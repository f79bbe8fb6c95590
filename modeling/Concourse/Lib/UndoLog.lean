import Mathlib.Data.List.Basic

/-!
# Lists updated in place, with an undo log

A search that backtracks over a mutable array records, before overwriting an entry, the
index and the value it had, and on failure writes the recorded values back.  This file
states what such code needs about it, for a list `l : List α` and a log
`log : List (ℕ × α)` written back by `undo log l`:

* a property that holds of every entry at its index survives updates that respect it,
  and survives writing back a log whose entries respect it (`AllAt`);
* an index the log does not mention is left alone by the write-back;
* a log that records each index once, with the value it had before its first overwrite,
  writes the list back to what it was (`Records.undo_eq`).
-/

namespace UndoLog

variable {α : Type*}

/-- Write back every entry of the log, in order. -/
def undo (log : List (ℕ × α)) (l : List α) : List α :=
  log.foldl (fun l e => l.set e.1 e.2) l

/-- Every entry of `l` satisfies `P` at its index. -/
def AllAt (P : ℕ → α → Prop) (l : List α) : Prop :=
  ∀ i x, l[i]? = some x → P i x

section AllAt

variable {P : ℕ → α → Prop}

theorem AllAt.set {l : List α} (h : AllAt P l) {i : ℕ} {x : α} (hx : P i x) :
    AllAt P (l.set i x) := by
  intro j y hj
  rw [List.getElem?_set] at hj
  by_cases hij : i = j
  · subst hij
    by_cases hlt : i < l.length
    · simp only [if_true, hlt] at hj
      cases hj
      exact hx
    · simp only [if_true, hlt, if_false] at hj
      cases hj
  · simp only [hij, if_false] at hj
    exact h j y hj

theorem allAt_replicate {n : ℕ} {a : α} (ha : ∀ i, P i a) : AllAt P (List.replicate n a) := by
  intro i x hx
  rw [List.getElem?_replicate] at hx
  split_ifs at hx
  cases hx
  exact ha i

/-- Writing back a log whose entries satisfy `P` keeps `P` everywhere. -/
theorem AllAt.undo {l : List α} (h : AllAt P l) {log : List (ℕ × α)}
    (hlog : ∀ e ∈ log, P e.1 e.2) : AllAt P (undo log l) := by
  induction log generalizing l with
  | nil => exact h
  | cons e log ih =>
    have he : P e.1 e.2 := hlog e (List.mem_cons_self ..)
    exact ih (h.set he) fun e' he' => hlog e' (List.mem_cons_of_mem _ he')

end AllAt

@[simp] theorem length_undo (log : List (ℕ × α)) (l : List α) :
    (undo log l).length = l.length := by
  induction log generalizing l with
  | nil => rfl
  | cons e log ih =>
    simp only [undo, List.foldl_cons] at ih ⊢
    rw [ih, List.length_set]

/-- An index the log does not mention keeps its value. -/
theorem getElem?_undo_of_not_mem {log : List (ℕ × α)} {i : ℕ} (hi : i ∉ log.map Prod.fst)
    (l : List α) : (undo log l)[i]? = l[i]? := by
  induction log generalizing l with
  | nil => rfl
  | cons e log ih =>
    have hne : e.1 ≠ i := fun heq => hi (by simp [← heq])
    have hrest : i ∉ log.map Prod.fst := fun hmem => hi (List.mem_cons_of_mem _ hmem)
    simp only [undo, List.foldl_cons] at ih ⊢
    rw [ih hrest, List.getElem?_set_ne hne]

/-- An index the log mentions once ends with the value the log holds for it. -/
theorem getElem?_undo_of_mem {log : List (ℕ × α)} (hnodup : (log.map Prod.fst).Nodup)
    {e : ℕ × α} (he : e ∈ log) {l : List α} (hlt : e.1 < l.length) :
    (undo log l)[e.1]? = some e.2 := by
  induction log generalizing l with
  | nil => simp at he
  | cons e' log ih =>
    rw [List.map_cons, List.nodup_cons] at hnodup
    simp only [undo, List.foldl_cons] at ih ⊢
    rcases List.mem_cons.mp he with rfl | he
    · -- the first entry writes the index, and no later one does
      rw [← undo, getElem?_undo_of_not_mem hnodup.1, List.getElem?_set_self hlt]
    · exact ih hnodup.2 he (by rwa [List.length_set])

/-- `log` records the overwrites that took `l` to `l'`: each index once, with the value `l`
had there, and `l'` agrees with `l` elsewhere. -/
structure Records (l : List α) (log : List (ℕ × α)) (l' : List α) : Prop where
  nodup : (log.map Prod.fst).Nodup
  old : ∀ e ∈ log, l[e.1]? = some e.2
  rest : ∀ i, i ∉ log.map Prod.fst → l'[i]? = l[i]?
  length : l'.length = l.length

theorem records_nil (l : List α) : Records l [] l :=
  ⟨List.nodup_nil, by simp, fun _ _ => rfl, rfl⟩

/-- Overwriting an index not yet logged, after logging its value. -/
theorem Records.set {l l' : List α} {log : List (ℕ × α)} (h : Records l log l') {i : ℕ}
    (hi : i ∉ log.map Prod.fst) {v : α} (hv : l'[i]? = some v) (x : α) :
    Records l (log ++ [(i, v)]) (l'.set i x) := by
  refine ⟨?_, ?_, ?_, by rw [List.length_set, h.length]⟩
  · rw [List.map_append, List.map_singleton, List.nodup_append]
    refine ⟨h.nodup, by simp, fun a ha b hb hab => ?_⟩
    rw [List.mem_singleton] at hb
    subst hab hb
    exact hi ha
  · intro e he
    rcases List.mem_append.mp he with he | he
    · exact h.old e he
    · -- the new entry holds the value `l` still had at `i`
      rw [List.mem_singleton] at he
      subst he
      rw [← h.rest i hi]
      exact hv
  · intro j hj
    have hji : j ≠ i := fun hji => hj (by simp [hji])
    rw [List.getElem?_set_ne (Ne.symm hji)]
    exact h.rest j fun hmem => hj (by simp [hmem])

/-- Writing back the log of the overwrites gives the list back. -/
theorem Records.undo_eq {l l' : List α} {log : List (ℕ × α)} (h : Records l log l') :
    undo log l' = l := by
  apply List.ext_getElem?
  intro i
  by_cases hi : i ∈ log.map Prod.fst
  · obtain ⟨e, he, rfl⟩ := List.mem_map.mp hi
    have hlt : e.1 < l'.length := by
      rw [h.length]
      exact (List.getElem?_eq_some_iff.mp (h.old e he)).1
    rw [getElem?_undo_of_mem h.nodup he hlt, h.old e he]
  · rw [getElem?_undo_of_not_mem hi, h.rest i hi]

end UndoLog
