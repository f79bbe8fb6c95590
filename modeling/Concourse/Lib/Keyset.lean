import Mathlib.Data.List.Sort

/-!
# Keyset pagination

A query `ORDER BY key DESC LIMIT n` is read page after page: each page after the first asks
for the rows older than the last row read, and the reading stops at an empty page.  When
the keys are distinct and "older" means "of smaller key", the pages together are the
whole sorted result, each row once (`keysetPages_eq`).  The library states this for rows
of any type with a key in any linear order, together with what it rests on: sorting by a
key with distinct values gives a strictly descending list, sorting commutes with
filtering, and the rows of a strictly descending list below one of its rows are exactly
those after it.
-/

namespace Keyset

variable {α κ : Type*} [LinearOrder κ] (key : α → κ)

/-- `ORDER BY key DESC`. -/
def sortDesc (rows : List α) : List α :=
  rows.insertionSort fun a b => key b ≤ key a

/-- `ORDER BY key ASC`. -/
def sortAsc (rows : List α) : List α :=
  rows.insertionSort fun a b => key a ≤ key b

/-- The rows are in strictly descending key order. -/
def Descending (rows : List α) : Prop :=
  rows.Pairwise fun a b => key b < key a

variable {key}

theorem sortDesc_perm (rows : List α) : (sortDesc key rows).Perm rows :=
  List.perm_insertionSort _ _

theorem sortAsc_perm (rows : List α) : (sortAsc key rows).Perm rows :=
  List.perm_insertionSort _ _

@[simp] theorem mem_sortDesc {rows : List α} {r : α} : r ∈ sortDesc key rows ↔ r ∈ rows :=
  (sortDesc_perm rows).mem_iff

theorem descending_sortDesc {rows : List α} (hnodup : (rows.map key).Nodup) :
    Descending key (sortDesc key rows) := by
  have : Std.Total fun a b : α => key b ≤ key a := ⟨fun a b => le_total (key b) (key a)⟩
  have : IsTrans α fun a b => key b ≤ key a := ⟨fun a b c hab hbc => le_trans hbc hab⟩
  have hsorted : (sortDesc key rows).Pairwise fun a b => key b ≤ key a :=
    List.pairwise_insertionSort _ rows
  -- distinct keys make the order strict
  have hdistinct : (sortDesc key rows).Pairwise fun a b => key a ≠ key b := by
    have hperm : (sortDesc key rows).Perm rows := sortDesc_perm rows
    have h := (hperm.map key).nodup_iff.mpr hnodup
    rwa [List.Nodup, List.pairwise_map] at h
  exact (hsorted.and hdistinct).imp fun ⟨hle, hne⟩ => lt_of_le_of_ne hle (Ne.symm hne)

theorem Descending.filter {rows : List α} (h : Descending key rows) (p : α → Bool) :
    Descending key (rows.filter p) :=
  List.Pairwise.filter p h

/-- A strictly descending rearrangement of rows of distinct keys is their sorted order. -/
theorem eq_sortDesc_of_perm {rows l : List α} (hnodup : (rows.map key).Nodup)
    (hperm : l.Perm rows) (hdesc : Descending key l) : l = sortDesc key rows :=
  -- two strictly descending lists with the same rows are equal
  List.Perm.eq_of_pairwise
    (fun a b _ _ (hab : key b < key a) hba => absurd (hab.trans hba) (lt_irrefl _))
    hdesc (descending_sortDesc hnodup) (hperm.trans (sortDesc_perm rows).symm)

/-- Sorting the rows a filter keeps gives the sorted rows, filtered. -/
theorem sortDesc_filter {rows : List α} (hnodup : (rows.map key).Nodup) (p : α → Bool) :
    sortDesc key (rows.filter p) = (sortDesc key rows).filter p := by
  have hsub : (rows.filter p).Sublist rows := List.filter_sublist
  have hnodup' : ((rows.filter p).map key).Nodup := hnodup.sublist (hsub.map key)
  have hperm : ((sortDesc key rows).filter p).Perm (rows.filter p) :=
    (sortDesc_perm rows).filter p
  exact (eq_sortDesc_of_perm hnodup' hperm ((descending_sortDesc hnodup).filter p)).symm

/-- In a strictly descending list, the rows of smaller key than one of its rows are the rows
after it. -/
theorem Descending.filter_lt {A B : List α} {x : α} (h : Descending key (A ++ x :: B)) :
    (A ++ x :: B).filter (fun r => decide (key r < key x)) = B := by
  unfold Descending at h
  rw [List.pairwise_append, List.pairwise_cons] at h
  obtain ⟨-, ⟨hxB, -⟩, hA⟩ := h
  have hAout : A.filter (fun r => decide (key r < key x)) = [] := by
    refine List.filter_eq_nil_iff.mpr fun a ha => ?_
    have hxa : key x < key a := hA a ha x (List.mem_cons_self ..)
    simpa using hxa.le
  have hBin : B.filter (fun r => decide (key r < key x)) = B :=
    List.filter_eq_self.mpr fun b hb => by simpa using hxB b hb
  simp [List.filter_append, hAout, hBin]

/-- The rows of a strictly descending list below its `j`-th row are the rows after it. -/
theorem Descending.filter_lt_getElem {S : List α} (h : Descending key S) {j : Nat}
    (hj : j < S.length) :
    S.filter (fun r => decide (key r < key S[j])) = S.drop (j + 1) := by
  obtain ⟨x, hx⟩ : ∃ x, S[j] = x := ⟨_, rfl⟩
  rw [hx]
  have hsplit : S = S.take j ++ x :: S.drop (j + 1) := by
    rw [← hx, List.getElem_cons_drop, List.take_append_drop]
  have h' : Descending key (S.take j ++ x :: S.drop (j + 1)) := hsplit ▸ h
  calc S.filter (fun r => decide (key r < key x))
      _ = (S.take j ++ x :: S.drop (j + 1)).filter (fun r => decide (key r < key x)) := by
        rw [← hsplit]
      _ = S.drop (j + 1) := h'.filter_lt

/-- In a strictly descending list whose first row of key below `k` is `p`, the rows of key up
to `p`'s are the rows of key below `k`: asking for the rows up to that row asks for the rest. -/
theorem Descending.filter_le_head {S : List α} (h : Descending key S) {k : κ} {p : α}
    (hp : (S.filter fun r => decide (key r < k)).head? = some p) :
    S.filter (fun r => decide (key r ≤ key p)) = S.filter fun r => decide (key r < k) := by
  obtain ⟨rest, hrest⟩ := List.head?_eq_some_iff.mp hp
  have hpk : key p < k := by
    have hmem : p ∈ S.filter fun r => decide (key r < k) := by
      rw [hrest]
      exact List.mem_cons_self
    simpa using (List.mem_filter.mp hmem).2
  -- the rows after `p` among those below `k` are below `p`
  have hbelow : ∀ r ∈ rest, key r < key p := by
    have hdesc := h.filter fun r => decide (key r < k)
    rw [hrest] at hdesc
    exact fun r hr => List.rel_of_pairwise_cons hdesc hr
  apply List.filter_congr
  intro r hr
  by_cases hrk : key r < k
  · have hmem : r ∈ p :: rest := hrest ▸ List.mem_filter.mpr ⟨hr, by simpa using hrk⟩
    rcases List.mem_cons.mp hmem with rfl | hmem
    · simp [hrk]
    · simp [hrk, le_of_lt (hbelow r hmem)]
  · have hle : ¬ key r ≤ key p := fun hle => hrk (lt_of_le_of_lt hle hpk)
    simp [hrk, hle]

/-- Keyset pagination with pages of `limit` rows: the first `limit` rows of `rows`, then the
pages of `query last` for the last row of each page, until a page is empty. -/
def keysetPages (query : α → List α) (limit : Nat) : Nat → List α → List α
  | 0, _ => []
  | fuel + 1, rows =>
    match (rows.take limit).getLast? with
    | none => []
    | some last => rows.take limit ++ keysetPages query limit fuel (query last)

@[simp] theorem keysetPages_nil (query : α → List α) (limit fuel : Nat) :
    keysetPages query limit fuel [] = [] := by
  cases fuel <;> simp [keysetPages]

/-- When every page after a row is the part of the sorted result older than that row, the
pages are the sorted result: no row is skipped or repeated at a page boundary. -/
theorem keysetPages_eq {S : List α} {query : α → List α} {limit : Nat}
    (hdesc : Descending key S)
    (hquery : ∀ b ∈ S, query b = S.filter fun r => decide (key r < key b))
    (hlimit : 0 < limit) :
    ∀ (fuel : Nat) (T : List α), (∃ P, S = P ++ T) → T.length < fuel →
      keysetPages query limit fuel T = T := by
  intro fuel
  induction fuel with
  | zero =>
    intro T _ hlen
    cases hlen
  | succ fuel ih =>
    intro T ⟨P, hS⟩ hlen
    unfold keysetPages
    cases hlast : (T.take limit).getLast? with
    | none =>
      -- an empty page: nothing is left
      rw [List.getLast?_eq_none_iff, List.take_eq_nil_iff] at hlast
      rcases hlast with hzero | rfl
      · omega
      · rfl
    | some last =>
      obtain ⟨A, hA⟩ := List.getLast?_eq_some_iff.mp hlast
      -- the sorted result is `P ++ A ++ last :: rest`, and `rest` is the next query
      have hT : T = A ++ last :: T.drop limit := by
        calc T = T.take limit ++ T.drop limit := (List.take_append_drop _ _).symm
          _ = A ++ last :: T.drop limit := by rw [hA]; simp
      have hsplit : S = (P ++ A) ++ last :: T.drop limit := by
        rw [hS]
        conv_lhs => rw [hT]
        simp
      have hnext : query last = T.drop limit := by
        have hmem : last ∈ S := by rw [hsplit]; simp
        rw [hquery last hmem, hsplit]
        exact Descending.filter_lt (hsplit ▸ hdesc)
      have hne : T ≠ [] := by
        rintro rfl
        simp at hA
      have hshorter : (T.drop limit).length < fuel := by
        have hpos : 0 < T.length := List.length_pos_iff.mpr hne
        simp only [List.length_drop]
        omega
      dsimp only
      rw [hnext, ih (T.drop limit) ⟨P ++ T.take limit, by rw [hS, List.append_assoc,
        List.take_append_drop]⟩ hshorter, List.take_append_drop]

end Keyset
