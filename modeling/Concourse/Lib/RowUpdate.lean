import Mathlib.Data.List.Nodup

/-!
# Updating the rows of a table

`UPDATE t SET ... WHERE cond` changes every row of the table that satisfies the condition and
leaves the others.  On a table kept as a list of rows that is `updateWhere cond f`.  A query
that counts the rows satisfying some `q` sees the update only through the rows it changed, so

1. an update that never makes a changed row satisfy `q` when it did not before can only lower
   the count (`countP_updateWhere_le_of`);
2. any update raises it by at most the number of rows it changed (`countP_updateWhere_le`),
   which is at most one for a condition on a key the table holds once (`countP_key_le_one`);
3. an update that keeps the key keeps the column of keys (`map_updateWhere_of_key`), and one
   that keeps a property of the rows it changes keeps it of the table
   (`forall_mem_updateWhere`);
4. two updates that set the same columns to the same values are one update
   (`updateWhere_updateWhere`).
-/

namespace RowUpdate

variable {α β : Type*}

/-- `UPDATE ... SET f WHERE cond`. -/
def updateWhere (cond : α → Bool) (f : α → α) (rows : List α) : List α :=
  rows.map fun r => if cond r then f r else r

variable {cond : α → Bool} {f : α → α} {rows : List α}

@[simp] theorem updateWhere_nil : updateWhere cond f [] = [] := rfl

@[simp] theorem length_updateWhere : (updateWhere cond f rows).length = rows.length := by
  simp [updateWhere]

theorem mem_updateWhere {r : α} :
    r ∈ updateWhere cond f rows ↔ ∃ r₀ ∈ rows, (if cond r₀ then f r₀ else r₀) = r := by
  simp [updateWhere]

theorem mem_updateWhere_of_mem {r : α} (h : r ∈ rows) :
    (if cond r then f r else r) ∈ updateWhere cond f rows :=
  List.mem_map_of_mem h

/-- A row after the update is a row before, changed when the condition held of it. -/
theorem exists_of_mem_updateWhere {r : α} (h : r ∈ updateWhere cond f rows) :
    ∃ r₀ ∈ rows, (cond r₀ = true ∧ r = f r₀) ∨ (cond r₀ = false ∧ r = r₀) := by
  obtain ⟨r₀, hr₀, rfl⟩ := mem_updateWhere.mp h
  refine ⟨r₀, hr₀, ?_⟩
  cases hc : cond r₀ <;> simp

/-- A property of every row that the update keeps on the rows it changes holds after it. -/
theorem forall_mem_updateWhere (P : α → Prop) (hrows : ∀ r ∈ rows, P r)
    (hf : ∀ r ∈ rows, cond r = true → P r → P (f r)) : ∀ r ∈ updateWhere cond f rows, P r := by
  intro r hr
  obtain ⟨r₀, hr₀, ⟨hc, hchanged⟩ | ⟨-, hkept⟩⟩ := exists_of_mem_updateWhere hr
  · rw [hchanged]
    exact hf r₀ hr₀ hc (hrows r₀ hr₀)
  · rw [hkept]
    exact hrows r₀ hr₀

theorem countP_updateWhere (q : α → Bool) :
    (updateWhere cond f rows).countP q = rows.countP fun r => q (if cond r then f r else r) := by
  simp only [updateWhere, List.countP_map]
  rfl

/-- An update that makes no changed row count when it did not can only lower a count. -/
theorem countP_updateWhere_le_of (q : α → Bool)
    (h : ∀ r ∈ rows, cond r = true → q (f r) = true → q r = true) :
    (updateWhere cond f rows).countP q ≤ rows.countP q := by
  rw [countP_updateWhere]
  refine List.countP_mono_left fun r hr hq => ?_
  by_cases hc : cond r = true
  · rw [if_pos hc] at hq
    exact h r hr hc hq
  · rwa [if_neg hc] at hq

/-- Any update raises a count by at most the number of rows it changes. -/
theorem countP_updateWhere_le (q : α → Bool) :
    (updateWhere cond f rows).countP q ≤ rows.countP q + rows.countP cond := by
  induction rows with
  | nil => simp
  | cons r rows ih =>
    simp only [updateWhere, List.map_cons, List.countP_cons] at ih ⊢
    by_cases hc : cond r = true
    · simp only [hc, if_true]
      split <;> split <;> omega
    · simp only [hc, Bool.false_eq_true, if_false]
      split <;> omega

/-- A key that no two rows share is held by at most one row. -/
theorem countP_key_le_one [DecidableEq β] (key : α → β) (hkeys : (rows.map key).Nodup) (k : β) :
    rows.countP (fun r => key r == k) ≤ 1 := by
  have hcount : rows.countP (fun r => key r == k) = (rows.map key).count k := by
    rw [List.count, List.countP_map]
    rfl
  rw [hcount]
  exact List.nodup_iff_count_le_one.mp hkeys k

/-- Conditions that agree on the rows make the same update. -/
theorem updateWhere_congr {cond' : α → Bool} (h : ∀ r ∈ rows, cond r = cond' r) :
    updateWhere cond f rows = updateWhere cond' f rows :=
  List.map_congr_left fun r hr => by rw [h r hr]

/-- A second update that makes the same change, on a condition the change does not touch, is
the first one on either condition. -/
theorem updateWhere_updateWhere {cond' : α → Bool} (hidem : ∀ r, f (f r) = f r)
    (hcond : ∀ r, cond' (f r) = cond' r) :
    updateWhere cond' f (updateWhere cond f rows) = updateWhere (fun r => cond r || cond' r) f rows := by
  simp only [updateWhere, List.map_map]
  refine List.map_congr_left fun r _ => ?_
  by_cases hc : cond r = true
  · simp [hc, hcond, hidem]
  · simp [hc]

/-- An update that keeps every row's key keeps the column of keys. -/
theorem map_updateWhere_of_key (key : α → β) (h : ∀ r, cond r = true → key (f r) = key r) :
    (updateWhere cond f rows).map key = rows.map key := by
  simp only [updateWhere, List.map_map]
  refine List.map_congr_left fun r _ => ?_
  by_cases hc : cond r = true
  · simp [hc, h r hc]
  · simp [hc]

end RowUpdate
