import Mathlib.Algebra.BigOperators.Group.List.Basic

/-!
# Lexicographic products of lists

`lexProduct ls` lists the combinations of one element of each list of `ls`, the first list's
element changing slowest.  An index path picks one element of each list (`pick`), and its
place among the combinations is its value in the mixed radix of the lists' lengths (`rank`).

A product over a first list `l` is made of one block for each element of `l`, all of the
length of the product over the rest; `take_drop_flatMap` and `getElem?_flatMap` cut such
blocks out of a `flatMap`.
-/

namespace LexProduct

variable {α β : Type}

/-! ## Blocks of equal length -/

section Blocks

variable {f : α → List β} {m : Nat}

/-- The `i`-th block of a `flatMap` whose blocks all have length `m`. -/
theorem take_drop_flatMap (l : List α) (hf : ∀ a ∈ l, (f a).length = m) {i : Nat}
    (hi : i < l.length) : ((l.flatMap f).drop (i * m)).take m = f l[i] := by
  induction l generalizing i with
  | nil => simp at hi
  | cons a l ih =>
    have ha : (f a).length = m := hf a List.mem_cons_self
    cases i with
    | zero => simp [List.take_left' ha]
    | succ i =>
      have hrest : ∀ b ∈ l, (f b).length = m := fun b hb => hf b (List.mem_cons_of_mem a hb)
      -- the first block is `m` long, so the `i + 1`-th block starts `m` later
      have hdrop : ((a :: l).flatMap f).drop ((i + 1) * m) = (l.flatMap f).drop (i * m) := by
        rw [List.flatMap_cons, Nat.add_mul, Nat.one_mul, Nat.add_comm, ← List.drop_drop,
          List.drop_left' ha]
      rw [hdrop, ih hrest (by simpa using hi)]
      rfl

/-- The element `j` of the `i`-th block of a `flatMap` whose blocks all have length `m`. -/
theorem getElem?_flatMap (l : List α) (hf : ∀ a ∈ l, (f a).length = m) {i j : Nat}
    (hi : i < l.length) (hj : j < m) : (l.flatMap f)[i * m + j]? = (f l[i])[j]? := by
  rw [← take_drop_flatMap l hf hi, List.getElem?_take_of_lt hj, List.getElem?_drop]

/-- The first `m * k` elements are `m` consecutive blocks of length `k`. -/
theorem take_eq_flatMap_range (xs : List α) (m k : Nat) :
    xs.take (m * k) = (List.range m).flatMap fun i => (xs.drop (i * k)).take k := by
  induction m with
  | zero => simp
  | succ m ih =>
    rw [Nat.succ_mul, List.take_add, ih, List.range_succ, List.flatMap_append]
    simp

end Blocks

/-! ## Products -/

/-- The combinations of one element of each list, the first list's element changing
slowest. -/
def lexProduct : List (List α) → List (List α)
  | [] => [[]]
  | l :: ls => l.flatMap fun a => (lexProduct ls).map (a :: ·)

/-- The element of each list at its index of `path`, when each index is in range. -/
def pick : List (List α) → List Nat → Option (List α)
  | [], [] => some []
  | l :: ls, i :: path =>
    match l[i]?, pick ls path with
    | some a, some c => some (a :: c)
    | _, _ => none
  | _, _ => none

/-- The value of `path` in the mixed radix `lens`, the first index the most significant. -/
def rank : List Nat → List Nat → Nat
  | i :: path, _ :: lens => i * lens.prod + rank path lens
  | _, _ => 0

@[simp] theorem lexProduct_nil : lexProduct ([] : List (List α)) = [[]] := rfl

theorem lexProduct_cons (l : List α) (ls : List (List α)) :
    lexProduct (l :: ls) = l.flatMap fun a => (lexProduct ls).map (a :: ·) := rfl

theorem length_lexProduct : ∀ ls : List (List α), (lexProduct ls).length = (ls.map List.length).prod
  | [] => rfl
  | l :: ls => by
    simp [lexProduct_cons, List.length_flatMap, length_lexProduct ls]

/-- A product over lists with one more at the end: each combination followed by each element
of the last list. -/
theorem lexProduct_append_singleton (l : List α) :
    ∀ ls : List (List α),
      lexProduct (ls ++ [l]) = (lexProduct ls).flatMap fun c => l.map (c ++ [·])
  | [] => by simp [lexProduct_cons, List.map_eq_flatMap]
  | l' :: ls => by
    simp [lexProduct_cons, lexProduct_append_singleton l ls, List.map_flatMap,
      List.flatMap_assoc, List.flatMap_map, Function.comp_def]

/-- A combination has one element for each list. -/
theorem length_of_pick : ∀ {ls : List (List α)} {path : List Nat} {c : List α},
    pick ls path = some c → c.length = ls.length
  | [], [], c, h => by
    cases h
    rfl
  | l :: ls, i :: path, c, h => by
    simp only [pick] at h
    split at h
    · rename_i a c' _ hrest
      cases h
      simp [length_of_pick hrest]
    · cases h
  | [], _ :: _, _, h | _ :: _, [], _, h => by simp [pick] at h

theorem rank_lt : ∀ {ls : List (List α)} {path : List Nat} {c : List α},
    pick ls path = some c → rank path (ls.map List.length) < (ls.map List.length).prod
  | [], [], _, _ => by simp [rank]
  | l :: ls, i :: path, c, h => by
    simp only [pick] at h
    split at h
    · rename_i a c' hi hrest
      have hlt : i < l.length := (List.getElem?_eq_some_iff.mp hi).1
      have ih := rank_lt hrest
      simp only [rank, List.map_cons, List.prod_cons]
      -- `i * m + r < l.length * m` from `i < l.length` and `r < m`
      calc i * (ls.map List.length).prod + rank path (ls.map List.length)
          < i * (ls.map List.length).prod + (ls.map List.length).prod := by omega
        _ = (i + 1) * (ls.map List.length).prod := by rw [Nat.add_mul, Nat.one_mul]
        _ ≤ l.length * (ls.map List.length).prod := Nat.mul_le_mul_right _ hlt
    · cases h
  | [], _ :: _, _, h | _ :: _, [], _, h => by simp [pick] at h

/-- The combination that `path` picks stands at its rank. -/
theorem getElem?_lexProduct_rank : ∀ {ls : List (List α)} {path : List Nat} {c : List α},
    pick ls path = some c → (lexProduct ls)[rank path (ls.map List.length)]? = some c
  | [], [], c, h => by simp_all [pick, rank]
  | l :: ls, i :: path, c, h => by
    simp only [pick] at h
    split at h
    · rename_i a c' hi hrest
      cases h
      obtain ⟨hlt, rfl⟩ := List.getElem?_eq_some_iff.mp hi
      have hblocks : ∀ b ∈ l, ((lexProduct ls).map (b :: ·)).length = (ls.map List.length).prod :=
        fun b _ => by simp [length_lexProduct]
      simp only [rank, List.map_cons, lexProduct_cons]
      rw [getElem?_flatMap l hblocks hlt (rank_lt hrest), List.getElem?_map,
        getElem?_lexProduct_rank hrest]
      rfl
    · cases h
  | [], _ :: _, _, h | _ :: _, [], _, h => by simp [pick] at h

end LexProduct
