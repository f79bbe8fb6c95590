import Mathlib.Data.List.InsertIdx

/-!
# Moving one element of a list

`move xs i j` takes the element at index `i` out of `xs` and inserts it back so that it ends
up at index `j`: the reordering a drag and drop performs.  We prove

1. how a move peels off a common head (`move_cons_zero`, `move_cons_succ`), the two cases a
   recursive implementation walks through;
2. that a move seen through `List.reverse` is the mirrored move (`reverse_move`), which is how
   an implementation that handles backward moves on the reversed list is reduced to forward ones;
3. what a move keeps: the elements as a permutation (`move_perm`) and the order of all the
   others (`eraseIdx_move`);
4. that the move from `j` back to `i` undoes it (`move_move`).
-/

namespace ListMove

variable {α : Type*}

/-- Take the element at `i` out of `xs` and insert it at `j`; an index `i` past the end moves
nothing. -/
def move (xs : List α) (i j : Nat) : List α :=
  match xs[i]? with
  | some x => (xs.eraseIdx i).insertIdx j x
  | none => xs

theorem move_of_lt {xs : List α} {i : Nat} (j : Nat) (hi : i < xs.length) :
    move xs i j = (xs.eraseIdx i).insertIdx j xs[i] := by
  simp [move, List.getElem?_eq_getElem hi]

theorem move_self {xs : List α} {i : Nat} (hi : i < xs.length) : move xs i i = xs := by
  rw [move_of_lt i hi]
  exact List.insertIdx_eraseIdx_getElem hi

/-! ## Reading a moved list -/

theorem getElem?_move_self {xs : List α} {i j : Nat} (hi : i < xs.length) (hj : j < xs.length) :
    (move xs i j)[j]? = some xs[i] := by
  rw [move_of_lt j hi, List.getElem?_insertIdx_self,
    if_pos (by rw [List.length_eraseIdx_of_lt hi]; omega)]

/-- Before the insertion point a moved list reads as the list with the element taken out. -/
theorem getElem?_move_of_lt {xs : List α} {i j p : Nat} (hi : i < xs.length) (hp : p < j) :
    (move xs i j)[p]? = (xs.eraseIdx i)[p]? := by
  rw [move_of_lt j hi, List.getElem?_insertIdx_of_lt hp]

/-- After the insertion point it reads one place further back. -/
theorem getElem?_move_of_gt {xs : List α} {i j p : Nat} (hi : i < xs.length) (hp : j < p) :
    (move xs i j)[p]? = (xs.eraseIdx i)[p - 1]? := by
  rw [move_of_lt j hi, List.getElem?_insertIdx_of_gt hp]

/-! ## Peeling off the head -/

@[simp] theorem move_cons_zero (x : α) (xs : List α) (j : Nat) :
    move (x :: xs) 0 j = xs.insertIdx j x := rfl

@[simp] theorem move_cons_succ (x : α) (xs : List α) (i j : Nat) :
    move (x :: xs) (i + 1) (j + 1) = x :: move xs i j := by
  unfold move
  rw [List.getElem?_cons_succ]
  cases xs[i]? <;> simp [List.insertIdx_succ_cons]

theorem length_move {xs : List α} {i j : Nat} (hj : j < xs.length) :
    (move xs i j).length = xs.length := by
  by_cases hi : i < xs.length
  · rw [move_of_lt j hi, List.length_insertIdx_of_le_length, List.length_eraseIdx_of_lt hi]
    · omega
    · rw [List.length_eraseIdx_of_lt hi]; omega
  · simp [move, List.getElem?_eq_none (Nat.le_of_not_lt hi)]

/-! ## Moves through `List.reverse` -/

theorem eraseIdx_reverse {xs : List α} {i : Nat} (h : i < xs.length) :
    xs.reverse.eraseIdx i = (xs.eraseIdx (xs.length - 1 - i)).reverse := by
  have hn : (xs.eraseIdx (xs.length - 1 - i)).length = xs.length - 1 :=
    List.length_eraseIdx_of_lt (by omega)
  apply List.ext_getElem
  · simp [hn, List.length_eraseIdx_of_lt (by simpa using h : i < xs.reverse.length)]
  · intro k _ hk
    rw [List.length_reverse, hn] at hk
    simp only [List.getElem_eraseIdx, List.getElem_reverse, hn]
    split <;> split <;> (congr 1; omega)

theorem insertIdx_reverse {xs : List α} {i : Nat} (a : α) (h : i ≤ xs.length) :
    xs.reverse.insertIdx i a = (xs.insertIdx (xs.length - i) a).reverse := by
  have hn : (xs.insertIdx (xs.length - i) a).length = xs.length + 1 :=
    List.length_insertIdx_of_le_length (by omega) a
  apply List.ext_getElem
  · simp [hn, List.length_insertIdx_of_le_length (by simpa using h : i ≤ xs.reverse.length)]
  · intro k _ hk
    rw [List.length_reverse, hn] at hk
    simp only [List.getElem_insertIdx, List.getElem_reverse, hn]
    -- both sides split on where `k` falls against the insertion point; the cases that do
    -- not match up contradict each other's bounds
    split <;> split <;> (try split) <;> (try split) <;> first | rfl | omega | (congr 1; omega)

/-- Reversing a move gives the move between the mirrored indices of the reversed list. -/
theorem reverse_move {xs : List α} {i j : Nat} (hi : i < xs.length) (hj : j < xs.length) :
    (move xs i j).reverse = move xs.reverse (xs.length - 1 - i) (xs.length - 1 - j) := by
  have hi' : xs.length - 1 - i < xs.reverse.length := by simp; omega
  have hlen : (xs.eraseIdx i).length = xs.length - 1 := List.length_eraseIdx_of_lt hi
  have hget : xs.reverse[xs.length - 1 - i] = xs[i] := by
    simp only [List.getElem_reverse]; congr 1; omega
  have herase : xs.reverse.eraseIdx (xs.length - 1 - i) = (xs.eraseIdx i).reverse := by
    rw [eraseIdx_reverse (by omega)]; congr 2; omega
  rw [move_of_lt _ hi', move_of_lt _ hi, hget, herase, insertIdx_reverse _ (by omega), hlen]
  congr 3
  omega

/-! ## What a move keeps -/

open List in
theorem move_perm {xs : List α} {i j : Nat} (hi : i < xs.length) (hj : j < xs.length) :
    (move xs i j).Perm xs := by
  have hlen : (xs.eraseIdx i).length = xs.length - 1 := List.length_eraseIdx_of_lt hi
  -- both lists are the moved element consed onto the others
  calc (move xs i j)
      = (xs.eraseIdx i).insertIdx j xs[i] := move_of_lt j hi
    _ ~ xs[i] :: xs.eraseIdx i := List.perm_insertIdx _ _ (by omega)
    _ ~ (xs.eraseIdx i).insertIdx i xs[i] := (List.perm_insertIdx _ _ (by omega)).symm
    _ = xs := List.insertIdx_eraseIdx_getElem hi

/-- Taking the moved element back out leaves the others in their old order. -/
theorem eraseIdx_move {xs : List α} {i : Nat} (j : Nat) (hi : i < xs.length) :
    (move xs i j).eraseIdx j = xs.eraseIdx i := by
  rw [move_of_lt j hi, List.eraseIdx_insertIdx_self]

theorem getElem_move_self {xs : List α} {i j : Nat} (hi : i < xs.length)
    (h : j < (move xs i j).length) : (move xs i j)[j] = xs[i] := by
  simp only [move_of_lt j hi]
  exact List.getElem_insertIdx_self _

/-- The move back from `j` to `i` undoes the move from `i` to `j`. -/
theorem move_move {xs : List α} {i j : Nat} (hi : i < xs.length) (hj : j < xs.length) :
    move (move xs i j) j i = xs := by
  have hj' : j < (move xs i j).length := by rw [length_move hj]; exact hj
  rw [move_of_lt i hj', getElem_move_self hi hj', eraseIdx_move j hi]
  exact List.insertIdx_eraseIdx_getElem hi

end ListMove
