import Mathlib.Logic.Function.Basic

/-!
# Session-level advisory locks

A table of try-locks, one per key, that sessions of a database take and give back, as
PostgreSQL's session-level advisory locks behave: `pg_try_advisory_lock` takes a key that no
other session holds and never waits, a session that holds a key can take it again and then has
to give it back as many times, and `pg_advisory_unlock` gives back one hold of a key the session
holds and reports `false` otherwise.

A table keeps, for each key, its holder and how many times beyond the first it holds it, so a
table in which two sessions hold one key cannot be built (`eq_of_count_pos`).  The lemmas give
`count` after each operation: what the operations are for, and all the protocols built on the
table use of them.
-/

namespace AdvisoryLock

/-- For each key, the session that holds it and how many more times than once. -/
structure Table (S K : Type) where
  holder : K → Option (S × Nat)

namespace Table

variable {S K : Type} [DecidableEq S]

/-- No session holds a key. -/
def empty : Table S K := ⟨fun _ => none⟩

/-- How many times session `s` holds key `k`. -/
def count (t : Table S K) (k : K) (s : S) : Nat :=
  match t.holder k with
  | some (s', n) => if s' = s then n + 1 else 0
  | none => 0

variable {t : Table S K} {s s' : S} {k k' : K}

@[simp] theorem count_empty : (empty : Table S K).count k s = 0 := rfl

/-- Two sessions never both hold a key. -/
theorem eq_of_count_pos (h : 0 < t.count k s) (h' : 0 < t.count k s') : s = s' := by
  unfold count at h h'
  rcases hk : t.holder k with _ | ⟨s₀, n⟩
  · simp [hk] at h
  · simp only [hk] at h h'
    by_cases hs : s₀ = s
    · by_cases hs' : s₀ = s'
      · exact hs.symm.trans hs'
      · simp [hs'] at h'
    · simp [hs] at h

variable [DecidableEq K]

/-- `pg_try_advisory_lock(k)` in session `s`: whether the key was taken. -/
def tryLock (t : Table S K) (s : S) (k : K) : Table S K × Bool :=
  match t.holder k with
  | none => (⟨Function.update t.holder k (some (s, 0))⟩, true)
  | some (s', n) =>
    if s' = s then (⟨Function.update t.holder k (some (s, n + 1))⟩, true) else (t, false)

/-- `pg_advisory_unlock(k)` in session `s`: whether a hold was given back. -/
def unlock (t : Table S K) (s : S) (k : K) : Table S K × Bool :=
  match t.holder k with
  | some (s', n) =>
    if s' = s then
      (⟨Function.update t.holder k (match n with | 0 => none | m + 1 => some (s, m))⟩, true)
    else (t, false)
  | none => (t, false)

/-- The key is taken when no other session holds it. -/
theorem tryLock_snd_eq_true_iff : (t.tryLock s k).2 = true ↔ ∀ s', s' ≠ s → t.count k s' = 0 := by
  unfold tryLock count
  rcases hk : t.holder k with _ | ⟨s₀, n⟩
  · simp
  · by_cases hs : s₀ = s
    · subst hs
      simp only [if_true, true_iff]
      intro s' hne
      simp [Ne.symm hne]
    · simp only [hs, if_false, Bool.false_eq_true, false_iff, not_forall]
      exact ⟨s₀, hs, by simp⟩

/-- A taken key is held once more by the session that took it. -/
theorem count_tryLock_self (h : (t.tryLock s k).2 = true) :
    (t.tryLock s k).1.count k s = t.count k s + 1 := by
  unfold tryLock count at *
  rcases hk : t.holder k with _ | ⟨s₀, n⟩
  · simp
  · rw [hk] at h
    by_cases hs : s₀ = s
    · simp [hs]
    · simp [hs] at h

/-- Taking a key changes no other count. -/
theorem count_tryLock_of_ne (h : k' ≠ k ∨ s' ≠ s) :
    (t.tryLock s k).1.count k' s' = t.count k' s' := by
  unfold tryLock count
  rcases hk : t.holder k with _ | ⟨s₀, n⟩
  · rcases h with hne | hne
    · simp [Function.update_of_ne hne]
    · by_cases hkk : k' = k
      · subst hkk
        simp [hk, Ne.symm hne]
      · simp [Function.update_of_ne hkk]
  · by_cases hs : s₀ = s
    · subst hs
      rcases h with hne | hne
      · simp [Function.update_of_ne hne]
      · by_cases hkk : k' = k
        · subst hkk
          simp [hk, Ne.symm hne]
        · simp [Function.update_of_ne hkk]
    · simp [hs]

/-- A key another session holds is not taken, and the table stays as it is. -/
theorem tryLock_fst_of_snd_eq_false (h : (t.tryLock s k).2 = false) : (t.tryLock s k).1 = t := by
  unfold tryLock at h ⊢
  rcases hk : t.holder k with _ | ⟨s₀, n⟩
  · simp [hk] at h
  · by_cases hs : s₀ = s
    · simp [hk, hs] at h
    · simp [hs]

/-- Taking a key never lowers a count. -/
theorem count_le_tryLock : t.count k' s' ≤ (t.tryLock s k).1.count k' s' := by
  by_cases h : k' = k ∧ s' = s
  · obtain ⟨rfl, rfl⟩ := h
    cases hok : (t.tryLock s' k').2
    · exact Nat.le_of_eq (by rw [tryLock_fst_of_snd_eq_false hok])
    · rw [count_tryLock_self hok]
      exact Nat.le_succ _
  · exact Nat.le_of_eq (count_tryLock_of_ne (not_and_or.mp h)).symm

/-- A hold is given back exactly when the session holds the key. -/
theorem unlock_snd_eq_true_iff : (t.unlock s k).2 = true ↔ 0 < t.count k s := by
  unfold unlock count
  rcases hk : t.holder k with _ | ⟨s₀, n⟩
  · simp
  · by_cases hs : s₀ = s <;> simp [hs]

/-- Giving back a key lowers its count by one. -/
theorem count_unlock_self : (t.unlock s k).1.count k s = t.count k s - 1 := by
  unfold unlock count
  rcases hk : t.holder k with _ | ⟨s₀, n⟩
  · simp [hk]
  · by_cases hs : s₀ = s
    · subst hs
      cases n <;> simp
    · simp [hk, hs]

/-- Giving back a key changes no other count. -/
theorem count_unlock_of_ne (h : k' ≠ k ∨ s' ≠ s) :
    (t.unlock s k).1.count k' s' = t.count k' s' := by
  unfold unlock count
  rcases hk : t.holder k with _ | ⟨s₀, n⟩
  · rfl
  · by_cases hs : s₀ = s
    · subst hs
      rcases h with hne | hne
      · simp [Function.update_of_ne hne]
      · by_cases hkk : k' = k
        · subst hkk
          cases n <;> simp [hk, Ne.symm hne]
        · simp [Function.update_of_ne hkk]
    · simp [hs]

/-- Giving back a key never raises a count. -/
theorem count_unlock_le : (t.unlock s k).1.count k' s' ≤ t.count k' s' := by
  by_cases h : k' = k ∧ s' = s
  · obtain ⟨rfl, rfl⟩ := h
    rw [count_unlock_self]
    exact Nat.sub_le _ _
  · exact Nat.le_of_eq (count_unlock_of_ne (not_and_or.mp h))

end Table

end AdvisoryLock
