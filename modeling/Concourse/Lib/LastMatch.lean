import Mathlib.Data.List.Basic

/-!
# Searches that remember the last match

A loop that walks a list and, at every element satisfying a test, overwrites a result
variable ends with the last match, or with the value it started from when nothing
matched.  As a fold the loop is

  `l.foldl (fun acc x => if p x then some (g x) else acc) init`

and this file states what such code needs about it: the fold ends with `none` exactly when
it started with `none` and nothing matched, and a result it ends with either was the
initial one or comes from a match.  The same holds of two nested loops sharing the result
variable, where the test of the inner loop depends on the element of the outer one.
-/

namespace LastMatch

variable {α β : Type*} (p : α → Prop) [DecidablePred p] (g : α → β)

/-- The loop body: overwrite the result at a match. -/
def overwrite (acc : Option β) (x : α) : Option β :=
  if p x then some (g x) else acc

theorem foldl_overwrite_eq_none (l : List α) (init : Option β) :
    l.foldl (overwrite p g) init = none ↔ init = none ∧ ∀ x ∈ l, ¬ p x := by
  induction l generalizing init with
  | nil => simp
  | cons x xs ih =>
    rw [List.foldl_cons, ih]
    by_cases hx : p x
    · simp [overwrite, hx]
    · simp [overwrite, hx]

theorem foldl_overwrite_eq_some {l : List α} {init : Option β} {b : β}
    (h : l.foldl (overwrite p g) init = some b) :
    init = some b ∨ ∃ x ∈ l, p x ∧ g x = b := by
  induction l generalizing init with
  | nil => exact Or.inl h
  | cons x xs ih =>
    rcases ih h with hinit | ⟨y, hy, hpy, hgy⟩
    · -- the result already stood after the first element
      by_cases hx : p x
      · simp only [overwrite, hx, if_true, Option.some.injEq] at hinit
        exact Or.inr ⟨x, List.mem_cons_self .., hx, hinit⟩
      · simp only [overwrite, hx, if_false] at hinit
        exact Or.inl hinit
    · exact Or.inr ⟨y, List.mem_cons_of_mem _ hy, hpy, hgy⟩

section Nested

variable {γ : Type*} (m : γ → List α) (q : γ → α → Prop) [∀ c, DecidablePred (q c)]

theorem foldl_foldl_overwrite_eq_none (l : List γ) (init : Option β) :
    l.foldl (fun acc c => (m c).foldl (overwrite (q c) g) acc) init = none ↔
      init = none ∧ ∀ c ∈ l, ∀ x ∈ m c, ¬ q c x := by
  induction l generalizing init with
  | nil => simp
  | cons c cs ih =>
    rw [List.foldl_cons, ih, foldl_overwrite_eq_none]
    simp only [List.mem_cons, forall_eq_or_imp, and_assoc]

theorem foldl_foldl_overwrite_eq_some {l : List γ} {init : Option β} {b : β}
    (h : l.foldl (fun acc c => (m c).foldl (overwrite (q c) g) acc) init = some b) :
    init = some b ∨ ∃ c ∈ l, ∃ x ∈ m c, q c x ∧ g x = b := by
  induction l generalizing init with
  | nil => exact Or.inl h
  | cons c cs ih =>
    rcases ih h with hinner | ⟨c', hc', x, hx, hq, hg⟩
    · rcases foldl_overwrite_eq_some (q c) g hinner with hinit | ⟨x, hx, hq, hg⟩
      · exact Or.inl hinit
      · exact Or.inr ⟨c, List.mem_cons_self .., x, hx, hq, hg⟩
    · exact Or.inr ⟨c', List.mem_cons_of_mem _ hc', x, hx, hq, hg⟩

end Nested

end LastMatch
