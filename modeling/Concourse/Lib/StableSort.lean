import Mathlib.Order.Lattice

/-!
# Stable sorts by strict weak orders

`sliceStable less l` sorts `l` stably by the strict order `less`: elements that `less` does not
tell apart keep the order they had.  It is `List.mergeSort` by `fun a b => !less b a`, a total
preorder when `less` is a strict weak order (`StrictWeakOrder`: asymmetric, and whenever
`less a c`, every `b` is above `a` or below `c`).  A strict order by a key into a linear order
is one (`StrictWeakOrder.of_key`).

A stable sort is determined by its input: two lists that are permutations of each other, both
sorted, and that list each class of elements `less` does not tell apart in the same order are
equal (`eq_of_perm_of_filter`).  So sorting stably by `less'` and then by `less` sorts stably
by `less`, its ties broken by `less'` (`sliceStable_sliceStable`), and a chain of stable sorts
applied from its last order to its first is one stable sort by the chain's lexicographic order,
in which the first order that tells two elements apart decides (`foldr_sliceStable`).
-/

namespace StableSort

variable {α : Type}

/-- A strict weak order: asymmetric, and `less a c` puts every `b` above `a` or below `c`. -/
structure StrictWeakOrder (less : α → α → Bool) : Prop where
  asymm : ∀ a b, less a b → less b a = false
  negTrans : ∀ a b c, less a c → less a b ∨ less b c

/-- Sort stably by `less`. -/
def sliceStable (less : α → α → Bool) (l : List α) : List α :=
  l.mergeSort fun a b => !less b a

/-- `less` tells neither of `a` and `b` below the other. -/
def incomp (less : α → α → Bool) (a b : α) : Bool :=
  !less a b && !less b a

/-- `less`, with its ties broken by `less'`. -/
def lexLess (less less' : α → α → Bool) (a b : α) : Bool :=
  less a b || (!less b a && less' a b)

/-- The orders of a chain, the first that tells two elements apart deciding. -/
def chainLess (lesses : List (α → α → Bool)) : α → α → Bool :=
  lesses.foldr lexLess fun _ _ => false

@[simp] theorem chainLess_nil : chainLess ([] : List (α → α → Bool)) = fun _ _ => false := rfl

@[simp] theorem chainLess_cons (less : α → α → Bool) (lesses : List (α → α → Bool)) :
    chainLess (less :: lesses) = lexLess less (chainLess lesses) := rfl

/-! ## Strict weak orders -/

namespace StrictWeakOrder

variable {less less' : α → α → Bool}

theorem of_key {β : Type} [LinearOrder β] (key : α → β) :
    StrictWeakOrder fun a b => decide (key a < key b) where
  asymm a b hab := by
    simp only [decide_eq_true_eq, decide_eq_false_iff_not, not_lt] at hab ⊢
    exact hab.le
  negTrans a b c hac := by
    simp only [decide_eq_true_eq] at hac ⊢
    exact (lt_or_ge (key a) (key b)).imp_right fun hba => lt_of_le_of_lt hba hac

theorem swap (h : StrictWeakOrder less) : StrictWeakOrder fun a b => less b a where
  asymm a b hab := h.asymm b a hab
  negTrans a b c hca := (h.negTrans c b a hca).symm

theorem const_false : StrictWeakOrder fun (_ _ : α) => false where
  asymm _ _ h := by cases h
  negTrans _ _ _ h := by cases h

theorem irrefl (h : StrictWeakOrder less) (a : α) : less a a = false := by
  cases ha : less a a with
  | false => rfl
  | true => simpa [ha] using h.asymm a a ha

/-- `fun a b => !less b a` is transitive. -/
theorem le_trans (h : StrictWeakOrder less) (a b c : α) :
    (!less b a) = true → (!less c b) = true → (!less c a) = true := by
  simp only [Bool.not_eq_true']
  intro hba hcb
  cases hca : less c a with
  | false => rfl
  | true =>
    rcases h.negTrans c b a hca with hcb' | hba'
    · simp [hcb] at hcb'
    · simp [hba] at hba'

/-- `fun a b => !less b a` is total. -/
theorem le_total (h : StrictWeakOrder less) (a b : α) : (!less b a || !less a b) = true := by
  cases hab : less a b with
  | false => simp
  | true => simp [h.asymm a b hab]

/-- Breaking the ties of a strict weak order by another keeps it a strict weak order. -/
theorem lex (h : StrictWeakOrder less) (h' : StrictWeakOrder less') :
    StrictWeakOrder (lexLess less less') where
  asymm a b hab := by
    simp only [lexLess, Bool.or_eq_true, Bool.and_eq_true, Bool.not_eq_true'] at hab
    rcases hab with hab | ⟨hba, hab'⟩
    · simp [lexLess, h.asymm a b hab, hab]
    · simp [lexLess, hba, h'.asymm a b hab']
  negTrans a b c hac := by
    simp only [lexLess, Bool.or_eq_true, Bool.and_eq_true, Bool.not_eq_true'] at hac ⊢
    by_cases hab : less a b = true
    · exact .inl (.inl hab)
    by_cases hbc : less b c = true
    · exact .inr (.inl hbc)
    simp only [Bool.not_eq_true] at hab hbc
    rcases hac with hac | ⟨hca, hac'⟩
    · -- `less` itself would put `b` between `a` and `c`
      rcases h.negTrans a b c hac with h1 | h1 <;> simp_all
    · -- a tie of `less` between `a` and `c`, broken by `less'`: `b` ties with both
      rcases h'.negTrans a b c hac' with h1 | h1
      · refine .inl (.inr ⟨?_, h1⟩)
        cases hba : less b a with
        | false => rfl
        | true => rcases h.negTrans b c a hba with h2 | h2 <;> simp_all
      · refine .inr (.inr ⟨?_, h1⟩)
        cases hcb : less c b with
        | false => rfl
        | true => rcases h.negTrans c a b hcb with h2 | h2 <;> simp_all

theorem chainLess {lesses : List (α → α → Bool)} (h : ∀ less ∈ lesses, StrictWeakOrder less) :
    StrictWeakOrder (chainLess lesses) := by
  induction lesses with
  | nil => exact const_false
  | cons less lesses ih =>
    exact (h less List.mem_cons_self).lex (ih fun l hl => h l (List.mem_cons_of_mem less hl))

/-- Two elements tied with a third are not below one another. -/
theorem not_less_of_incomp (h : StrictWeakOrder less) {x a b : α} (ha : incomp less x a = true)
    (hb : incomp less x b = true) : (!less b a) = true := by
  simp only [incomp, Bool.and_eq_true, Bool.not_eq_true'] at ha hb
  cases hba : less b a with
  | false => rfl
  | true => rcases h.negTrans b x a hba with h1 | h1 <;> simp_all

end StrictWeakOrder

/-- A tie of `less` and `less'` at once is a tie of `less` broken by `less'`. -/
theorem incomp_lexLess (less less' : α → α → Bool) (x a : α) :
    incomp (lexLess less less') x a = (incomp less x a && incomp less' x a) := by
  unfold incomp lexLess
  cases less x a <;> cases less a x <;> simp [Bool.and_comm]

/-! ## Sorting -/

section Sorting

variable {less : α → α → Bool}

theorem perm_sliceStable (less : α → α → Bool) (l : List α) : (sliceStable less l).Perm l :=
  List.mergeSort_perm l _

theorem perm_foldr_sliceStable (lesses : List (α → α → Bool)) (l : List α) :
    (lesses.foldr sliceStable l).Perm l := by
  induction lesses with
  | nil => exact List.Perm.refl l
  | cons less lesses ih => exact (perm_sliceStable less _).trans ih

theorem sliceStable_const_false (l : List α) : sliceStable (fun _ _ => false) l = l :=
  List.mergeSort_of_pairwise (List.pairwise_of_forall_mem_list fun _ _ _ _ => rfl)

variable (h : StrictWeakOrder less)
include h

theorem pairwise_sliceStable (l : List α) :
    (sliceStable less l).Pairwise fun a b => (!less b a) = true :=
  List.pairwise_mergeSort h.le_trans h.le_total l

/-- A stable sort keeps each class of ties in its order. -/
theorem filter_sliceStable (x : α) (l : List α) :
    (sliceStable less l).filter (incomp less x) = l.filter (incomp less x) := by
  have hpair : (l.filter (incomp less x)).Pairwise fun a b => (!less b a) = true :=
    List.pairwise_of_forall_mem_list fun a ha b hb =>
      h.not_less_of_incomp (List.mem_filter.mp ha).2 (List.mem_filter.mp hb).2
  -- the class is a sorted sublist of the input, so it stays a sublist of the output
  have hsorted : (l.filter (incomp less x)).Sublist (sliceStable less l) :=
    List.sublist_mergeSort h.le_trans h.le_total hpair List.filter_sublist
  have hsub : (l.filter (incomp less x)).Sublist ((sliceStable less l).filter (incomp less x)) := by
    have hfilter := hsorted.filter (incomp less x)
    simpa only [List.filter_filter, Bool.and_self] using hfilter
  exact (hsub.eq_of_length ((perm_sliceStable less l).filter _).length_eq.symm).symm

/-- A sorted permutation that keeps each class of ties in one order is unique. -/
theorem eq_of_perm_of_filter : ∀ {s t : List α}, s.Perm t →
    (s.Pairwise fun a b => (!less b a) = true) → (t.Pairwise fun a b => (!less b a) = true) →
    (∀ x, s.filter (incomp less x) = t.filter (incomp less x)) → s = t
  | [], _, hp, _, _, _ => hp.nil_eq
  | x :: s, [], hp, _, _, _ => absurd hp.length_eq (by simp)
  | x :: s, y :: t, hp, hs, ht, hfilter => by
    -- the heads are tied: each is at most everything of the other list
    have hyx : less y x = false := by
      rcases List.mem_cons.mp (hp.mem_iff.mpr List.mem_cons_self) with rfl | hy
      · exact h.irrefl y
      · simpa using List.rel_of_pairwise_cons hs hy
    have hxy : less x y = false := by
      rcases List.mem_cons.mp (hp.mem_iff.mp List.mem_cons_self) with rfl | hx
      · exact h.irrefl x
      · simpa using List.rel_of_pairwise_cons ht hx
    have hhead := hfilter x
    rw [List.filter_cons_of_pos (by simp [incomp, h.irrefl]),
      List.filter_cons_of_pos (by simp [incomp, hxy, hyx])] at hhead
    obtain ⟨rfl, -⟩ := List.cons.inj hhead
    have htail : ∀ z, s.filter (incomp less z) = t.filter (incomp less z) := by
      intro z
      have hz := hfilter z
      simp only [List.filter_cons] at hz
      split at hz
      · exact (List.cons.inj hz).2
      · exact hz
    rw [eq_of_perm_of_filter hp.cons_inv hs.of_cons ht.of_cons htail]

end Sorting

/-- A list sorted by `less` whose ties of `less` are sorted by `less'` is sorted by `less`
with its ties broken by `less'`. -/
theorem pairwise_lexLess_of_filter {less less' : α → α → Bool} (h : StrictWeakOrder less) :
    ∀ {s : List α}, (s.Pairwise fun a b => (!less b a) = true) →
      (∀ x, (s.filter (incomp less x)).Pairwise fun a b => (!less' b a) = true) →
      s.Pairwise fun a b => (!lexLess less less' b a) = true
  | [], _, _ => List.Pairwise.nil
  | a :: s, hs, hties => by
    refine List.pairwise_cons.mpr ⟨fun b hb => ?_, ?_⟩
    · have hba : less b a = false := by simpa using List.rel_of_pairwise_cons hs hb
      cases hab : less a b with
      | true => simp [lexLess, hba, hab]
      | false =>
        -- `a` and `b` are tied, so `b` follows `a` in their class
        have hclass := hties a
        rw [List.filter_cons_of_pos (by simp [incomp, h.irrefl])] at hclass
        have hb' : b ∈ s.filter (incomp less a) :=
          List.mem_filter.mpr ⟨hb, by simp [incomp, hab, hba]⟩
        simpa [lexLess, hba, hab] using List.rel_of_pairwise_cons hclass hb'
    · refine pairwise_lexLess_of_filter h hs.of_cons fun x => (hties x).sublist ?_
      exact (List.sublist_cons_self a s).filter _

section Chain

variable {less less' : α → α → Bool} (h : StrictWeakOrder less) (h' : StrictWeakOrder less')
include h h'

/-- Sorting stably by `less'` and then by `less` is sorting by `less` with its ties broken by
`less'`. -/
theorem sliceStable_sliceStable (l : List α) :
    sliceStable less (sliceStable less' l) = sliceStable (lexLess less less') l := by
  have hlex := h.lex h'
  refine eq_of_perm_of_filter hlex ?_ ?_ (pairwise_sliceStable hlex l) fun x => ?_
  · exact ((perm_sliceStable _ _).trans (perm_sliceStable _ _)).trans (perm_sliceStable _ _).symm
  · refine pairwise_lexLess_of_filter h (pairwise_sliceStable h _) fun x => ?_
    rw [filter_sliceStable h]
    exact (pairwise_sliceStable h' l).sublist List.filter_sublist
  · -- a tie of both orders keeps its order through each sort
    have hand : incomp (lexLess less less') x = fun a => incomp less x a && incomp less' x a :=
      funext (incomp_lexLess less less' x)
    calc (sliceStable less (sliceStable less' l)).filter (incomp (lexLess less less') x)
        = ((sliceStable less (sliceStable less' l)).filter (incomp less x)).filter
            (incomp less' x) := by rw [hand, List.filter_filter]; simp [Bool.and_comm]
      _ = ((sliceStable less' l).filter (incomp less' x)).filter (incomp less x) := by
          rw [filter_sliceStable h, List.filter_filter, List.filter_filter]
          simp [Bool.and_comm]
      _ = (l.filter (incomp less' x)).filter (incomp less x) := by rw [filter_sliceStable h']
      _ = (sliceStable (lexLess less less') l).filter (incomp (lexLess less less') x) := by
          rw [filter_sliceStable hlex, hand, List.filter_filter]

end Chain

/-- Stable sorts applied from the last order of a chain to the first are one stable sort by the
chain's lexicographic order. -/
theorem foldr_sliceStable {lesses : List (α → α → Bool)}
    (h : ∀ less ∈ lesses, StrictWeakOrder less) (l : List α) :
    lesses.foldr sliceStable l = sliceStable (chainLess lesses) l := by
  induction lesses with
  | nil => exact (sliceStable_const_false l).symm
  | cons less lesses ih =>
    have hrest : ∀ less' ∈ lesses, StrictWeakOrder less' :=
      fun l hl => h l (List.mem_cons_of_mem less hl)
    rw [List.foldr_cons, ih hrest, chainLess_cons,
      sliceStable_sliceStable (h less List.mem_cons_self) (StrictWeakOrder.chainLess hrest)]

end StableSort
