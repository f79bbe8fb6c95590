import Mathlib.Order.Basic

/-!
# Ordering keys by raising them to the top

A table gives keys natural numbers.  Raising a key gives its rows the value one above the
largest value of the table.  Raising the keys of a list one after another, each present in
the table, leaves every key of the list with the largest value before, plus one past the
position of its last occurrence in the list (`lookup_raiseAll`), and every other key as it
was.  So the keys raised end above all the others, in the order of their last occurrences,
and no two of them share a value.
-/

namespace TopOrder

variable {κ : Type*} [DecidableEq κ]

/-- The largest value of the table. -/
def top (rows : List (κ × ℕ)) : Option ℕ :=
  (rows.map Prod.snd).max?

/-- Give the rows of key `k` the value `v`. -/
def setValue (rows : List (κ × ℕ)) (k : κ) (v : ℕ) : List (κ × ℕ) :=
  rows.map fun r => if r.1 = k then (r.1, v) else r

/-- Give the rows of key `k` the value one above the largest. -/
def raise (rows : List (κ × ℕ)) (k : κ) : List (κ × ℕ) :=
  match top rows with
  | none => rows
  | some m => setValue rows k (m + 1)

/-- Raise the keys one after another. -/
def raiseAll (rows : List (κ × ℕ)) (ks : List κ) : List (κ × ℕ) :=
  ks.foldl raise rows

/-- One past the position of the last occurrence of `k` in `ks`, `0` when it does not occur. -/
def lastPos (k : κ) : List κ → ℕ
  | [] => 0
  | x :: xs => if k ∈ xs then lastPos k xs + 1 else if k = x then 1 else 0

/-- No two keys share a positive value. -/
def DistinctPositive (rows : List (κ × ℕ)) : Prop :=
  ∀ j j' c, rows.lookup j = some c → rows.lookup j' = some c → 0 < c → j = j'

@[simp] theorem raiseAll_nil (rows : List (κ × ℕ)) : raiseAll rows [] = rows := rfl

@[simp] theorem raiseAll_cons (rows : List (κ × ℕ)) (k : κ) (ks : List κ) :
    raiseAll rows (k :: ks) = raiseAll (raise rows k) ks := rfl

/-! ## The largest value -/

theorem mem_of_lookup_eq_some {rows : List (κ × ℕ)} {j : κ} {c : ℕ}
    (h : rows.lookup j = some c) : (j, c) ∈ rows := by
  obtain ⟨l₁, l₂, hrows, -⟩ := List.lookup_eq_some_iff.mp h
  simp [hrows]

theorem le_top {rows : List (κ × ℕ)} {m : ℕ} (htop : top rows = some m) {j : κ} {c : ℕ}
    (h : rows.lookup j = some c) : c ≤ m :=
  (List.max?_eq_some_iff.mp htop).2 c (List.mem_map.mpr ⟨(j, c), mem_of_lookup_eq_some h, rfl⟩)

/-- A table with a key has a largest value. -/
theorem exists_top {rows : List (κ × ℕ)} {j : κ} {c : ℕ} (h : rows.lookup j = some c) :
    ∃ m, top rows = some m :=
  Option.isSome_iff_exists.mp
    (List.isSome_max?_of_mem (List.mem_map.mpr ⟨(j, c), mem_of_lookup_eq_some h, rfl⟩))

theorem lookup_setValue (rows : List (κ × ℕ)) (k j : κ) (v : ℕ) :
    (setValue rows k v).lookup j =
      if j = k then (rows.lookup j).map fun _ => v else rows.lookup j := by
  induction rows with
  | nil => simp [setValue]
  | cons r rows ih =>
    obtain ⟨k', c⟩ := r
    simp only [setValue, List.map_cons] at ih ⊢
    -- the first row either has key `j`, and answers, or the lookup goes on in the rest
    by_cases hj : j = k'
    · subst hj
      by_cases hk : j = k <;> simp [hk]
    · have hjk' : (j == k') = false := by simp [hj]
      by_cases hk : k' = k
      · subst hk
        simp [List.lookup_cons, hjk', ih]
      · simp [List.lookup_cons, hjk', hk, ih]

theorem raise_of_top {rows : List (κ × ℕ)} {m : ℕ} (htop : top rows = some m) (k : κ) :
    raise rows k = setValue rows k (m + 1) := by
  simp [raise, htop]

theorem lookup_raise {rows : List (κ × ℕ)} {m : ℕ} (htop : top rows = some m) (k j : κ) :
    (raise rows k).lookup j =
      if j = k then (rows.lookup j).map fun _ => m + 1 else rows.lookup j := by
  rw [raise_of_top htop, lookup_setValue]

/-- A key present is raised above every value, so the largest value grows by one. -/
theorem top_raise {rows : List (κ × ℕ)} {m : ℕ} (htop : top rows = some m) {k : κ}
    (hk : (rows.lookup k).isSome) : top (raise rows k) = some (m + 1) := by
  obtain ⟨c, hc⟩ := Option.isSome_iff_exists.mp hk
  have hmem : (k, c) ∈ rows := mem_of_lookup_eq_some hc
  have hle : ∀ r ∈ rows, r.2 ≤ m := fun r hr =>
    (List.max?_eq_some_iff.mp htop).2 r.2 (List.mem_map.mpr ⟨r, hr, rfl⟩)
  rw [raise_of_top htop, top, setValue, List.map_map, List.max?_eq_some_iff]
  constructor
  · exact List.mem_map.mpr ⟨(k, c), hmem, by simp⟩
  · intro b hb
    obtain ⟨r, hr, rfl⟩ := List.mem_map.mp hb
    have := hle r hr
    -- a raised row has the new top, any other row its old value
    simp only [Function.comp_apply]
    split
    · simp
    · omega

/-! ## Positions of last occurrences -/

@[simp] theorem lastPos_cons (k x : κ) (xs : List κ) :
    lastPos k (x :: xs) = if k ∈ xs then lastPos k xs + 1 else if k = x then 1 else 0 := rfl

theorem lastPos_pos {k : κ} {ks : List κ} (h : k ∈ ks) : 0 < lastPos k ks := by
  induction ks with
  | nil => simp at h
  | cons x xs ih =>
    by_cases hx : k ∈ xs
    · simp [hx]
    · have hkx : k = x := by simpa [hx] using h
      subst hkx
      simp [hx]

theorem lastPos_of_not_mem {k : κ} {ks : List κ} (h : k ∉ ks) : lastPos k ks = 0 := by
  cases ks with
  | nil => rfl
  | cons x xs =>
    simp only [List.mem_cons, not_or] at h
    simp [h.1, h.2]

theorem lastPos_append (k : κ) (A B : List κ) :
    lastPos k (A ++ B) = if k ∈ B then A.length + lastPos k B else lastPos k A := by
  induction A with
  | nil => by_cases hB : k ∈ B <;> simp [hB, lastPos_of_not_mem]
  | cons x xs ih =>
    by_cases hB : k ∈ B
    · simp only [List.cons_append, lastPos_cons, List.mem_append, hB, or_true, if_true, ih,
        List.length_cons]
      omega
    · simp [ih, hB]

/-- Distinct keys occur last at distinct positions. -/
theorem lastPos_injective {j j' : κ} {ks : List κ} (hj : j ∈ ks) (hj' : j' ∈ ks)
    (h : lastPos j ks = lastPos j' ks) : j = j' := by
  induction ks with
  | nil => simp at hj
  | cons x xs ih =>
    by_cases hx : j ∈ xs <;> by_cases hx' : j' ∈ xs
    · simp only [lastPos_cons, hx, hx', if_true] at h
      exact ih hx hx' (by omega)
    · -- only `j` occurs again, so it occurs last further right than `j' = x`
      have hpos := lastPos_pos hx
      have hj'x : j' = x := by simpa [hx'] using hj'
      subst hj'x
      simp [hx, hx'] at h
      omega
    · have hpos := lastPos_pos hx'
      have hjx : j = x := by simpa [hx] using hj
      subst hjx
      simp [hx, hx'] at h
      omega
    · have hjx : j = x := by simpa [hx] using hj
      have hj'x : j' = x := by simpa [hx'] using hj'
      rw [hjx, hj'x]

/-- A key whose last occurrence comes before an occurrence of another occurs last before it. -/
theorem lastPos_lt {A B : List κ} {d e : κ} (hd : d ∉ B) (he : e ∈ B) :
    lastPos d (A ++ d :: B) < lastPos e (A ++ d :: B) := by
  have hpos := lastPos_pos he
  rw [lastPos_append, lastPos_append, if_pos List.mem_cons_self,
    if_pos (List.mem_cons_of_mem d he)]
  simp only [lastPos_cons, hd, he, if_true, if_false]
  omega

/-! ## Raising a list of keys -/

section raiseAll

variable {rows : List (κ × ℕ)} {ks : List κ}

/-- Raising keys present leaves each key of the list with the largest value before plus one
past its last position, and the other keys as they were. -/
theorem lookup_raiseAll {m : ℕ} (htop : top rows = some m)
    (hks : ∀ k ∈ ks, (rows.lookup k).isSome) (j : κ) :
    (raiseAll rows ks).lookup j = if j ∈ ks then some (m + lastPos j ks) else rows.lookup j := by
  induction ks generalizing rows m with
  | nil => simp
  | cons x xs ih =>
    have hx : (rows.lookup x).isSome := hks x List.mem_cons_self
    -- the keys after `x` are still present once `x` is raised
    have hxs : ∀ k ∈ xs, ((raise rows x).lookup k).isSome := by
      intro k hk
      rw [lookup_raise htop]
      split <;> simp [hks k (List.mem_cons_of_mem x hk)]
    rw [raiseAll_cons, ih (top_raise htop hx) hxs, lookup_raise htop]
    by_cases hj : j ∈ xs
    · simp only [hj, if_true, List.mem_cons, or_true, lastPos_cons]
      congr 1
      omega
    · by_cases hjx : j = x
      · obtain ⟨c, hc⟩ := Option.isSome_iff_exists.mp hx
        subst hjx
        simp [hj, hc]
      · simp [hj, hjx]

/-- The keys raised end above every key not raised. -/
theorem lt_of_raiseAll {m : ℕ} (htop : top rows = some m)
    (hks : ∀ k ∈ ks, (rows.lookup k).isSome) {j e : κ} (hj : j ∈ ks) (he : e ∉ ks) {c c' : ℕ}
    (hc : (raiseAll rows ks).lookup j = some c) (hc' : (raiseAll rows ks).lookup e = some c') :
    c' < c := by
  rw [lookup_raiseAll htop hks, if_pos hj] at hc
  rw [lookup_raiseAll htop hks, if_neg he] at hc'
  have hle := le_top htop hc'
  have hpos := lastPos_pos hj
  cases hc
  omega

theorem distinctPositive_raiseAll {m : ℕ} (htop : top rows = some m)
    (hks : ∀ k ∈ ks, (rows.lookup k).isSome) (h : DistinctPositive rows) :
    DistinctPositive (raiseAll rows ks) := by
  intro j j' c hj hj' hpos
  rw [lookup_raiseAll htop hks] at hj hj'
  by_cases hmj : j ∈ ks <;> by_cases hmj' : j' ∈ ks <;>
    simp only [hmj, hmj', if_true, if_false] at hj hj'
  · -- both raised: their last positions agree
    have h1 := Option.some.inj hj
    have h2 := Option.some.inj hj'
    exact lastPos_injective hmj hmj' (by omega)
  · have := le_top htop hj'
    have := lastPos_pos hmj
    cases hj
    omega
  · have := le_top htop hj
    have := lastPos_pos hmj'
    cases hj'
    omega
  · exact h j j' c hj hj' hpos

end raiseAll

end TopOrder
