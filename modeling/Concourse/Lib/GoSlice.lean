import Mathlib.Data.List.Basic

/-!
# Go slices and their backing arrays

A Go slice is a window `(array, len, cap)` on a backing array.  `append(s, x)` writes `x`
into the array when `len < cap`, so that every slice on the same array sees it, and copies
the window into a new, larger array otherwise (`growslice`).  Two appends to one slice with
spare capacity therefore write the same cell: the slice the first returned sees the second
element.  The arrays are kept in a heap, a list indexed by the array's number.

The capacity of a new array is the runtime's (`nextslicecap`, then the allocation rounded up
to a size class by `roundupsize`); it decides which appends share a cell.
-/

namespace GoSlice

/-- A slice: its backing array's number in the heap, its length and its capacity. -/
structure Slice where
  array : Nat
  len : Nat
  cap : Nat
  deriving DecidableEq, Repr

/-- The nil slice. -/
def nil : Slice := ⟨0, 0, 0⟩

/-- The sizes of the runtime's small size classes, in bytes. -/
def sizeClasses : List Nat :=
  [8, 16, 24, 32, 48, 64, 80, 96, 112, 128, 144, 160, 176, 192, 208, 224, 240, 256, 288, 320,
    352, 384, 416, 448, 480, 512, 576, 640, 704, 768, 896, 1024, 1152, 1280, 1408, 1536, 1792,
    2048, 2304, 2688, 3072, 3200, 3456, 4096, 4864, 5376, 6144, 6528, 6784, 6912, 8192, 9472,
    9728, 10240, 10880, 12288, 13568, 14336, 16384, 18432, 19072, 20480, 21760, 24576, 27264,
    28672, 32768]

/-- `roundupsize`: the bytes an allocation of `size` bytes gets, less the 8-byte malloc header
of objects over 512 bytes that hold pointers; large objects take whole 8 KiB pages. -/
def roundupsize (size : Nat) (noscan : Bool) : Nat :=
  if size ≤ 32768 - 8 then
    let reqSize := if !noscan && size > 512 then size + 8 else size
    (sizeClasses.find? (reqSize ≤ ·)).getD reqSize - (reqSize - size)
  else (size + 8191) / 8192 * 8192

/-- The loop of `nextslicecap` past 256 elements: grow by a quarter and 192 until `newLen`
fits, at most `fuel` times. -/
def growLoop : Nat → Nat → Nat → Nat
  | 0, newcap, _ => newcap
  | fuel + 1, newcap, newLen =>
    let newcap := newcap + (newcap + 3 * 256) / 4
    if newcap ≥ newLen then newcap else growLoop fuel newcap newLen

/-- `nextslicecap`: double a small slice, grow a large one by about a quarter. -/
def nextSliceCap (newLen oldCap : Nat) : Nat :=
  let doublecap := oldCap + oldCap
  if newLen > doublecap then newLen
  else if oldCap < 256 then doublecap
  else growLoop newLen oldCap newLen

/-- The capacity `growslice` gives a slice of `elemSize`-byte elements growing to `newLen`. -/
def growCap (elemSize : Nat) (noscan : Bool) (newLen oldCap : Nat) : Nat :=
  roundupsize (nextSliceCap newLen oldCap * elemSize) noscan / elemSize

variable {α : Type} [Inhabited α]

/-- `append(s, x)` over the heap of arrays. -/
def append (elemSize : Nat) (noscan : Bool) (heap : List (List α)) (s : Slice) (x : α) :
    List (List α) × Slice :=
  if s.len < s.cap then
    -- spare capacity: written in place, where every slice on the array sees it
    (heap.modify s.array (·.set s.len x), { s with len := s.len + 1 })
  else
    let cap := growCap elemSize noscan (s.len + 1) s.cap
    let elems := (heap.getD s.array []).take s.len ++ [x]
    (heap ++ [elems ++ List.replicate (cap - (s.len + 1)) default],
      ⟨heap.length, s.len + 1, cap⟩)

/-- The elements a slice sees. -/
def Slice.elems (heap : List (List α)) (s : Slice) : List α :=
  (heap.getD s.array []).take s.len

/-! ## Appends in place -/

theorem append_of_lt (elemSize : Nat) (noscan : Bool) (heap : List (List α)) {s : Slice}
    (h : s.len < s.cap) (x : α) :
    append elemSize noscan heap s x =
      (heap.modify s.array (·.set s.len x), { s with len := s.len + 1 }) := by
  simp [append, h]

omit [Inhabited α] in
/-- Writes one after the other into one cell leave the last one there. -/
theorem foldl_modify_set {heap : List (List α)} {array i : Nat} (xs : List α) (y : α) :
    (xs ++ [y]).foldl (fun heap x => heap.modify array (·.set i x)) heap =
      heap.modify array (·.set i y) := by
  induction xs generalizing heap with
  | nil => rfl
  | cons x xs ih =>
    rw [List.cons_append, List.foldl_cons, ih]
    simp [List.modify_modify_eq, Function.comp_def, List.set_set]

omit [Inhabited α] in
/-- The slice one longer than `s` on its array sees what was written in the cell after it. -/
theorem elems_modify_set {heap : List (List α)} {s : Slice} (y : α)
    (harray : s.array < heap.length) (hcell : s.len < (heap.getD s.array []).length) :
    Slice.elems (heap.modify s.array (·.set s.len y)) { s with len := s.len + 1 } =
      s.elems heap ++ [y] := by
  obtain ⟨arr, harr⟩ : ∃ arr, heap[s.array]? = some arr := ⟨_, List.getElem?_eq_getElem harray⟩
  rw [List.getD_eq_getElem?_getD, harr, Option.getD_some] at hcell
  simp only [Slice.elems, List.getD_eq_getElem?_getD, List.getElem?_modify, harr]
  simp [List.take_add_one, List.getElem?_set_self hcell, List.take_set_of_le]

end GoSlice
