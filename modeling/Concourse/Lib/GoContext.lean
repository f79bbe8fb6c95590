import Mathlib.Order.MinMax

/-!
# Go contexts: cancellation and deadlines

A context of Go's `context` package is done from the moment it is cancelled or its deadline
passes, and from then on `ctx.Err()` says which of the two came first.  A context derived from
another is done when its parent is, so a context is given here by two times: when a
cancellation reaches it (its own or an ancestor's; never, for `context.Background()`), and its
deadline (the earliest of its own and its ancestors').

* `Ctx.err` is `ctx.Err()` at a time.  A cancellation and a deadline at the same instant race in
  Go; here the cancellation wins.
* Being cancelled lasts (`canceledBy_mono`), is inherited from a derived context
  (`canceledBy_of_withTimeout`) and never happens to `background`.
* A live context is live at every earlier time (`err_eq_none_of_le`), a context derived by
  `withTimeout` is live only when its parent is (`err_eq_none_of_withTimeout`), and a positive
  timeout of a live context is live when it is made (`err_withTimeout_self`).
-/

namespace GoContext

/-- What `ctx.Err()` returns once a context is done. -/
inductive Err where
  | canceled
  | deadlineExceeded
  deriving DecidableEq, Repr

/-- A context, by when a cancellation reaches it and by its deadline. -/
structure Ctx where
  cancelAt : Option Nat
  deadline : Option Nat
  deriving DecidableEq, Repr

namespace Ctx

/-- `context.Background()`. -/
def background : Ctx := ⟨none, none⟩

/-- `context.WithTimeout(ctx, d)`, called at time `now`. -/
def withTimeout (ctx : Ctx) (now d : Nat) : Ctx :=
  { ctx with deadline := some (ctx.deadline.elim (now + d) fun dl => min dl (now + d)) }

/-- The cancellation has come by `t`, and no deadline came before it. -/
def canceledBy (ctx : Ctx) (t : Nat) : Bool :=
  match ctx.cancelAt with
  | some c => decide (c ≤ t) && ctx.deadline.all (c ≤ ·)
  | none => false

/-- A deadline has passed by `t`. -/
def expiredBy (ctx : Ctx) (t : Nat) : Bool :=
  ctx.deadline.any (· ≤ t)

/-- `ctx.Err()` at time `t`. -/
def err (ctx : Ctx) (t : Nat) : Option Err :=
  if ctx.canceledBy t then some .canceled
  else if ctx.expiredBy t then some .deadlineExceeded
  else none

variable {ctx : Ctx} {t t' : Nat}

@[simp] theorem background_canceledBy : background.canceledBy t = false := rfl

@[simp] theorem background_err : background.err t = none := rfl

theorem err_eq_canceled_iff : ctx.err t = some .canceled ↔ ctx.canceledBy t = true := by
  unfold err
  split
  · simpa
  · split <;> simp_all

theorem err_of_canceledBy (h : ctx.canceledBy t = true) : ctx.err t = some .canceled :=
  err_eq_canceled_iff.mpr h

theorem canceledBy_mono (h : ctx.canceledBy t = true) (hle : t ≤ t') :
    ctx.canceledBy t' = true := by
  unfold canceledBy at h ⊢
  rcases hc : ctx.cancelAt with _ | c
  · simp [hc] at h
  · simp only [hc, Bool.and_eq_true, decide_eq_true_eq] at h ⊢
    exact ⟨le_trans h.1 hle, h.2⟩

/-- A cancellation that reaches a context made by `withTimeout` before its deadline reached its
parent before the parent's, which is no earlier. -/
theorem canceledBy_of_withTimeout {now d : Nat} (h : (ctx.withTimeout now d).canceledBy t = true) :
    ctx.canceledBy t = true := by
  unfold canceledBy withTimeout at h
  unfold canceledBy
  rcases hc : ctx.cancelAt with _ | c
  · simp [hc] at h
  · simp only [hc, Bool.and_eq_true, decide_eq_true_eq] at h ⊢
    refine ⟨h.1, ?_⟩
    rcases hd : ctx.deadline with _ | dl
    · rfl
    · have hmin := h.2
      simp only [hd, Option.elim_some, Option.all_some, decide_eq_true_eq, le_min_iff] at hmin
      simpa using hmin.1

/-- A context is live at `t` when neither its cancellation nor its deadline has come. -/
theorem err_eq_none_iff :
    ctx.err t = none ↔ ctx.cancelAt.all (t < ·) = true ∧ ctx.deadline.all (t < ·) = true := by
  obtain ⟨cancelAt, deadline⟩ := ctx
  cases cancelAt with
  | none =>
    cases deadline with
    | none => simp [err, canceledBy, expiredBy]
    | some dl =>
      by_cases hd : dl ≤ t
      · simp [err, canceledBy, expiredBy, hd]
      · simpa [err, canceledBy, expiredBy, hd] using Nat.lt_of_not_le hd
  | some c =>
    cases deadline with
    | none =>
      by_cases hc : c ≤ t
      · simp [err, canceledBy, hc]
      · simpa [err, canceledBy, expiredBy, hc] using Nat.lt_of_not_le hc
    | some dl =>
      by_cases hc : c ≤ t <;> by_cases hd : dl ≤ t <;> by_cases hcd : c ≤ dl <;>
        simp [err, canceledBy, expiredBy, hc, hd, hcd] <;> omega

/-- A context live at `t'` was live before. -/
theorem err_eq_none_of_le (h : ctx.err t' = none) (hle : t ≤ t') : ctx.err t = none := by
  rw [err_eq_none_iff] at h ⊢
  obtain ⟨hc, hd⟩ := h
  constructor
  · rcases hcan : ctx.cancelAt with _ | c
    · rfl
    · simp only [hcan, Option.all_some, decide_eq_true_eq] at hc ⊢
      omega
  · rcases hdl : ctx.deadline with _ | dl
    · rfl
    · simp only [hdl, Option.all_some, decide_eq_true_eq] at hd ⊢
      omega

/-- A context made by `withTimeout` is live only when its parent is. -/
theorem err_eq_none_of_withTimeout {now d : Nat} (h : (ctx.withTimeout now d).err t = none) :
    ctx.err t = none := by
  rw [err_eq_none_iff] at h ⊢
  obtain ⟨hc, hd⟩ := h
  refine ⟨hc, ?_⟩
  rcases hdl : ctx.deadline with _ | dl
  · rfl
  · simp only [withTimeout, hdl, Option.elim_some, Option.all_some, decide_eq_true_eq,
      lt_min_iff] at hd ⊢
    exact hd.1

/-- A positive timeout of a context live at `now` is live at `now`. -/
theorem err_withTimeout_self {now d : Nat} (h : ctx.err now = none) (hd : 0 < d) :
    (ctx.withTimeout now d).err now = none := by
  rw [err_eq_none_iff] at h ⊢
  obtain ⟨hc, hdl⟩ := h
  refine ⟨hc, ?_⟩
  rcases hdeadline : ctx.deadline with _ | dl
  · simp only [withTimeout, hdeadline, Option.elim_none, Option.all_some, decide_eq_true_eq]
    omega
  · simp only [hdeadline, Option.all_some, decide_eq_true_eq] at hdl
    simp only [withTimeout, hdeadline, Option.elim_some, Option.all_some, decide_eq_true_eq,
      lt_min_iff]
    omega

end Ctx

end GoContext
