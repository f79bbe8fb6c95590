import Mathlib.Data.List.Basic

/-!
# Renumbering a sequence through a table

A pass over a sequence that threads a state from left to right (`walk`, the `mapAccumL` of
other libraries), and the renumbering that one such pass makes: each element in turn gets
the name `mk counter` for a counter that starts at `c`, and a table records its old name with
its new one, the latest first, so that `List.lookup` finds the last element of an old name.
A second, stateless pass then sends references through the table.

When the old names are distinct, the table sends the old name of the `j`-th element to
`mk (c + j)` and leaves every other name to the table it started from
(`lookup_walk_numberStep`, `lookup_walk_numberStep_of_not_mem`).
-/

namespace Renumber

variable {α β σ κ : Type}

/-- A map over a list that threads a state from left to right. -/
def walk (f : σ → α → β × σ) : List α → σ → List β × σ
  | [], s => ([], s)
  | a :: as, s =>
    let r := f s a
    let rest := walk f as r.2
    (r.1 :: rest.1, rest.2)

section Walk

variable (f : σ → α → β × σ)

@[simp] theorem walk_nil (s : σ) : walk f [] s = ([], s) := rfl

@[simp] theorem walk_cons (a : α) (as : List α) (s : σ) :
    walk f (a :: as) s = ((f s a).1 :: (walk f as (f s a).2).1, (walk f as (f s a).2).2) := rfl

theorem walk_append (as bs : List α) (s : σ) :
    walk f (as ++ bs) s =
      ((walk f as s).1 ++ (walk f bs (walk f as s).2).1, (walk f bs (walk f as s).2).2) := by
  induction as generalizing s with
  | nil => rfl
  | cons a as ih => simp [ih]

@[simp] theorem length_walk (as : List α) (s : σ) : (walk f as s).1.length = as.length := by
  induction as generalizing s with
  | nil => rfl
  | cons a as ih => simp [ih]

/-- A loop that appends each result to an accumulator is a `walk` after the accumulator. -/
theorem foldl_append_eq_walk (as : List α) (acc : List β) (s : σ) :
    as.foldl (fun acc a => let r := f acc.2 a; (acc.1 ++ [r.1], r.2)) (acc, s) =
      (acc ++ (walk f as s).1, (walk f as s).2) := by
  induction as generalizing acc s with
  | nil => simp
  | cons a as ih => simp [ih]

end Walk

/-- A walk that keeps its state maps each element. -/
theorem walk_const_state (g : α → β) (as : List α) (s : σ) :
    walk (fun s a => (g a, s)) as s = (as.map g, s) := by
  induction as with
  | nil => rfl
  | cons a as ih => simp [ih]

/-! ## The numbering pass -/

section Numbering

variable (mk : Nat → κ) (key : α → κ) (rename : κ → α → α)

/-- One step of the numbering pass: the element is renamed `mk counter`, and its old name is
recorded with the new one in front of the table. -/
def numberStep (st : List (κ × κ) × Nat) (a : α) : α × (List (κ × κ) × Nat) :=
  (rename (mk st.2) a, ((key a, mk st.2) :: st.1, st.2 + 1))

/-- The `j`-th element is renamed `mk (c + j)`. -/
theorem walk_numberStep_fst (as : List α) (t : List (κ × κ)) (c : Nat) :
    (walk (numberStep mk key rename) as (t, c)).1 =
      as.mapIdx fun j a => rename (mk (c + j)) a := by
  induction as generalizing t c with
  | nil => rfl
  | cons a as ih =>
    simp only [walk_cons, numberStep, ih, List.mapIdx_cons, Nat.add_zero]
    congr 2
    funext j a
    rw [Nat.add_assoc, Nat.add_comm 1 j]

theorem walk_numberStep_counter (as : List α) (t : List (κ × κ)) (c : Nat) :
    (walk (numberStep mk key rename) as (t, c)).2.2 = c + as.length := by
  induction as generalizing t c with
  | nil => rfl
  | cons a as ih =>
    simp only [walk_cons, numberStep, ih, List.length_cons]
    omega

/-- A name that no element had keeps what the table gave it before the pass. -/
theorem lookup_walk_numberStep_of_not_mem [DecidableEq κ] (as : List α) (t : List (κ × κ))
    (c : Nat) {k : κ} (hk : k ∉ as.map key) :
    (walk (numberStep mk key rename) as (t, c)).2.1.lookup k = t.lookup k := by
  induction as generalizing t c with
  | nil => rfl
  | cons a as ih =>
    simp only [List.map_cons, List.mem_cons, not_or] at hk
    simp only [walk_cons, numberStep]
    rw [ih _ _ hk.2, List.lookup_cons, beq_false_of_ne hk.1]

/-- With distinct old names, the table sends the old name of the `j`-th element to its new
name. -/
theorem lookup_walk_numberStep [DecidableEq κ] (as : List α) (t : List (κ × κ)) (c : Nat)
    (hnd : (as.map key).Nodup) {j : Nat} (hj : j < as.length) :
    (walk (numberStep mk key rename) as (t, c)).2.1.lookup (key as[j]) = some (mk (c + j)) := by
  induction as generalizing t c j with
  | nil => simp at hj
  | cons a as ih =>
    simp only [List.map_cons, List.nodup_cons] at hnd
    simp only [walk_cons, numberStep]
    cases j with
    | zero =>
      rw [List.getElem_cons_zero, lookup_walk_numberStep_of_not_mem _ _ _ _ _ _ hnd.1]
      simp [List.lookup_cons_self]
    | succ j =>
      rw [List.getElem_cons_succ, ih _ _ hnd.2 (by simpa using hj)]
      congr 2
      omega

end Numbering

end Renumber
