import Mathlib.Logic.Relation

/-!
# Lists that put dependencies first

A list puts dependencies first for a relation `dep` (read `dep a b` as "`a` depends on `b`")
when whatever an element depends on stands before it (`DepsBefore`): the order a topological
sort produces.  We prove

1. that the empty list is so ordered, and that appending an element whose dependencies are all
   listed keeps the order (`DepsBefore.snoc`), the one step such a sort takes;
2. that from an element of such a list any chain of dependencies reaches only elements before it
   (`DepsBefore.transGen_mem`);
3. that a relation has no cycle once some list of distinct elements, holding every element
   depended on, puts its dependencies first (`DepsBefore.acyclic`).
-/

namespace DepOrder

open Relation

variable {α : Type*} (dep : α → α → Prop)

/-- Every element of `l` comes after all the elements it depends on. -/
def DepsBefore (l : List α) : Prop :=
  ∀ l₁ a l₂, l = l₁ ++ a :: l₂ → ∀ b, dep a b → b ∈ l₁

/-- No element depends on itself through a chain of dependencies. -/
def Acyclic : Prop :=
  ∀ a, ¬TransGen dep a a

variable {dep}

theorem depsBefore_nil : DepsBefore dep [] := by
  intro l₁ a l₂ h
  simp at h

/-- Appending an element whose dependencies are all listed keeps the dependencies first. -/
theorem DepsBefore.snoc {l : List α} {x : α} (h : DepsBefore dep l)
    (hx : ∀ b, dep x b → b ∈ l) : DepsBefore dep (l ++ [x]) := by
  intro l₁ a l₂ heq b hab
  rcases List.eq_nil_or_concat l₂ with rfl | ⟨l₂', z, rfl⟩
  · -- `a` is the appended element
    obtain ⟨rfl, hxa⟩ := List.append_inj' heq rfl
    obtain rfl : x = a := by simpa using hxa
    exact hx b hab
  · -- `a` was already listed
    have heq' : l ++ [x] = (l₁ ++ a :: l₂') ++ [z] := by simpa using heq
    obtain ⟨hl, -⟩ := List.append_inj' heq' rfl
    exact h l₁ a l₂' hl b hab

/-- Along a chain of dependencies from an element only elements before it are reached. -/
theorem DepsBefore.transGen_mem {l l₁ l₂ : List α} {a b : α} (h : DepsBefore dep l)
    (hl : l = l₁ ++ a :: l₂) (hab : TransGen dep a b) : b ∈ l₁ := by
  induction hab with
  | single hab => exact h l₁ a l₂ hl _ hab
  | tail _ hcb ih =>
    -- the chain reached some `c` before `a`, and what `c` depends on stands before `c`
    obtain ⟨m₁, m₂, rfl⟩ := List.append_of_mem ih
    have hb := h m₁ _ (m₂ ++ a :: l₂) (by simp [hl]) _ hcb
    exact List.mem_append_left _ hb

theorem DepsBefore.not_transGen_self {l : List α} {a : α} (h : DepsBefore dep l)
    (hnd : l.Nodup) (ha : a ∈ l) : ¬TransGen dep a a := by
  intro haa
  obtain ⟨l₁, l₂, hl⟩ := List.append_of_mem ha
  have hmem : a ∈ l₁ := h.transGen_mem hl haa
  -- then `a` stands in `l` twice
  rw [hl] at hnd
  exact (List.nodup_append.mp hnd).2.2 a hmem a List.mem_cons_self rfl

/-- A list of distinct elements that holds every element depended on and puts dependencies first
leaves no cycle. -/
theorem DepsBefore.acyclic {l : List α} (h : DepsBefore dep l) (hnd : l.Nodup)
    (hclosed : ∀ a b, dep a b → b ∈ l) : Acyclic dep := by
  intro a haa
  -- the last dependency of the cycle is on `a`, so `a` is listed
  have ha : a ∈ l := by
    obtain ⟨c, -, hca⟩ := TransGen.tail'_iff.mp haa
    exact hclosed c a hca
  exact h.not_transGen_self hnd ha haa

end DepOrder
