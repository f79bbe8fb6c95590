import Concourse.Lib.GoContext
import Concourse.Atc.PlanId

/-!
# Running the steps of a build

`atc/exec`: the engine builds a plan into a tree of `exec.Step`s (`Concourse.Engine.Builder`),
and running the tree runs the steps that do the work (get, put, task, ...) in the order the
combinators around them decide:

* `OnSuccessStep`, `OnFailureStep`, `OnAbortStep`, `OnErrorStep` and `EnsureStep` run a step and
  then, depending on what it returned, a hook;
* `TryStep` turns a failure or an error other than an abort into success, `TimeoutStep` runs its
  step under a deadline and turns the deadline into a failure, `RetryStep` runs its attempts
  until one succeeds;
* `LogErrorStep` and `RetryErrorStep` wrap each step that does work: the first logs its error,
  the second marks an error that says the worker went away as `Retriable`.

`ExecStep` is the tree and `ExecStep.run` its `Run`.  A run takes the step's context (a
`GoContext.Ctx`, cancelled when the build is aborted) and the time it starts; it returns
`(ok, err)`, the time it returned, and the runs of the steps that do the work (`CoreRun`), in
order.  What those steps do is the `World`'s, which also runs an `in_parallel` or an `across`
step as a whole.  A `StepError` is a Go error as far as the code looks into it: `errors.Is`
against `context.Canceled`, `context.DeadlineExceeded` and `Retriable{}`, and `errors.As` into
a `Retriable`, both walking the chain that a multierror unwraps to.

The results are about every step tree:

1. the world's steps run under contexts derived from the step's: one cancelled when it returns
   leaves the step's context cancelled (`inherits_run`, `canceledBy_of_sawCancel`);
2. when the world's steps return `ctx.Err()` once their context is done (`World.Cooperative`),
   a run in which one of them saw the abort returns an error that is `context.Canceled`, is not
   `context.DeadlineExceeded` and holds no `Retriable` (`endsCanceled_of_sawCancel`), whatever
   hooks, tries, timeouts and retries stand around it;
3. when every step of the world succeeds while its context is live, a run succeeds and runs
   exactly the steps `successPath` lists (`run_of_succeeds`).

Left out: the build events `LogErrorStep` and `RetryErrorStep` save, and the `RunState` the
steps share; nothing a step returns depends on them.
-/

namespace Concourse
namespace Exec

open GoContext Atc

/-- An error a step returns, as far as the steps and the engine look into it. -/
inductive StepError where
  /-- `context.Canceled`. -/
  | canceled
  /-- `context.DeadlineExceeded`. -/
  | deadlineExceeded
  /-- `Retriable{Cause}`; `Retriable{}` has no cause. -/
  | retriable (cause : Option StepError)
  /-- A `*multierror.Error`, with the errors it holds. -/
  | multi (errors : List StepError)
  /-- An error wrapping another, as `fmt.Errorf` with `%w` makes, with its text. -/
  | wrapped (message : String) (inner : StepError)
  /-- `transport.WorkerMissingError`. -/
  | workerMissing (workerName : String)
  /-- `transport.WorkerUnreachableError`. -/
  | workerUnreachable (workerName workerState : String)
  /-- A `*url.Error`, with its text; it unwraps to the error it holds. -/
  | url (message : String) (inner : StepError)
  /-- A `net.Error` of any other type, with its text. -/
  | net (message : String)
  /-- Any other error. -/
  | failure (message : String)
  deriving Repr

namespace StepError

/-- `ctx.Err()`. -/
def ofCtx : GoContext.Err → StepError
  | .canceled => canceled
  | .deadlineExceeded => deadlineExceeded

mutual
/-- Whether an error on the chain that `errors.Is` and `errors.As` walk satisfies `p`: the error
itself, then what it unwraps to.  A `Retriable` does not unwrap; a multierror unwraps to its
errors one after another. -/
def anyInChain (p : StepError → Bool) : StepError → Bool
  | multi errs => p (multi errs) || anyInChainList p errs
  | wrapped message inner => p (wrapped message inner) || anyInChain p inner
  | url message inner => p (url message inner) || anyInChain p inner
  | err => p err

/-- `anyInChain` over the errors of a multierror. -/
def anyInChainList (p : StepError → Bool) : List StepError → Bool
  | [] => false
  | err :: errs => anyInChain p err || anyInChainList p errs
end

/-- `err == target`, for the targets the code compares errors with: `context.Canceled`,
`context.DeadlineExceeded` and `Retriable{}`.  A multierror or a wrapping error is a pointer,
equal to none of them. -/
def equals : StepError → StepError → Bool
  | canceled, canceled | deadlineExceeded, deadlineExceeded => true
  | retriable none, retriable none => true
  | _, _ => false

/-- `errors.Is(err, target)`. -/
def is (err target : StepError) : Bool :=
  err.anyInChain (·.equals target)

-- `errors.Is` compares values: a `Retriable` with a cause is not `Retriable{}`.
example : (retriable (some (failure "worker disappeared"))).is (retriable none) = false := by
  decide

/-- Whether an error is a `Retriable`. -/
def isRetriable : StepError → Bool
  | retriable _ => true
  | _ => false

/-- `errors.As(err, &Retriable{})`. -/
def asRetriable (err : StepError) : Bool :=
  err.anyInChain isRetriable

/-- The errors `multierror.Append` adds for `err`: a multierror's own, else `err` itself. -/
def flatten : StepError → List StepError
  | multi errs => errs
  | err => [err]

/-- `multierror.ListFormatFunc`, the text of a multierror from the texts of its errors. -/
def multierrorText (texts : List String) : String :=
  match texts with
  | [text] => "1 error occurred:\n\t* " ++ text ++ "\n\n"
  | _ => toString texts.length ++ " errors occurred:\n\t" ++
      "\n\t".intercalate (texts.map ("* " ++ ·)) ++ "\n\n"

mutual
/-- `err.Error()`.  Only a marked error is a `Retriable`: `Retriable{}` is a target of
`errors.Is`, whose text Go would panic on. -/
def text : StepError → String
  | canceled => "context canceled"
  | deadlineExceeded => "context deadline exceeded"
  | retriable (some cause) => "retriable: " ++ text cause
  | retriable none => "retriable: "
  | multi errs => multierrorText (textList errs)
  | workerMissing workerName => "worker " ++ workerName ++ " disappeared while trying to reach it"
  | workerUnreachable workerName workerState =>
    "worker '" ++ workerName ++ "' is unreachable (state is '" ++ workerState ++ "')"
  | wrapped message _ | url message _ | net message | failure message => message

/-- The texts of the errors of a multierror. -/
def textList : List StepError → List String
  | [] => []
  | err :: errs => text err :: textList errs
end

/-- A non-empty run of characters other than a newline, then ` disappeared`. -/
def disappearedAfter : List Char → Bool
  | [] => false
  | c :: cs => c != '\n' && (" disappeared".toList.isPrefixOf cs || disappearedAfter cs)

/-- `regexp.MustCompile("worker .+ disappeared").MatchString`: the match may start anywhere, and
`.` is any character but a newline. -/
def matchesWorkerDisappeared : List Char → Bool
  | [] => false
  | c :: cs =>
    ("worker ".toList.isPrefixOf (c :: cs) && disappearedAfter ((c :: cs).drop 7)) ||
      matchesWorkerDisappeared cs

/-- The errors `toRetry` looks for with `errors.As`: `transport.WorkerMissingError`,
`transport.WorkerUnreachableError`, `*url.Error` and `net.Error`. -/
def isWorkerGone : StepError → Bool
  | workerMissing _ | workerUnreachable _ _ | url _ _ | net _ => true
  | _ => false

/-- `RetryErrorStep.toRetry`: whether an error says that the worker went away. -/
def toRetry (err : StepError) : Bool :=
  err.anyInChain isWorkerGone || matchesWorkerDisappeared err.text.toList

-- a worker the pool lost
example : (workerMissing "w1").toRetry = true := by decide
-- the same text in a plain error, as an error from a worker's API comes back
example : (failure "worker w1 disappeared").toRetry = true := by decide
example : (failure "task failed: exit status 1").toRetry = false := by decide

section Chain

variable {p : StepError → Bool}

/-- The tests the code makes of errors say nothing of a multierror itself. -/
def SkipsMulti (p : StepError → Bool) : Prop := ∀ errs, p (multi errs) = false

theorem skipsMulti_equals (target : StepError) : SkipsMulti (·.equals target) := fun _ => rfl

theorem skipsMulti_isRetriable : SkipsMulti isRetriable := fun _ => rfl

@[simp] theorem anyInChainList_append (errs errs' : List StepError) :
    anyInChainList p (errs ++ errs') = (anyInChainList p errs || anyInChainList p errs') := by
  induction errs with
  | nil => simp [anyInChainList]
  | cons err errs ih => simp [anyInChainList, ih, Bool.or_assoc]

theorem anyInChainList_flatten (hp : SkipsMulti p) (err : StepError) :
    anyInChainList p err.flatten = anyInChain p err := by
  cases err with
  | multi errs => simp [flatten, anyInChain, hp errs]
  | canceled | deadlineExceeded | retriable _ | wrapped _ _ | workerMissing _
  | workerUnreachable _ _ | url _ _ | net _ | failure _ => simp [flatten, anyInChainList]

end Chain

end StepError

open StepError

/-- `multierror.Append(errs, err)` for an error `err`, with `errs` nil or an error. -/
def multierrorAppend : Option StepError → StepError → StepError
  | some (.multi errs), err => .multi (errs ++ err.flatten)
  | some errs, err => .multi (errs :: err.flatten)
  | none, err => .multi err.flatten

/-- What the chain of an appended multierror holds: that of what it appended to, and `err`'s. -/
theorem anyInChain_multierrorAppend {p : StepError → Bool} (hp : SkipsMulti p)
    (errs : Option StepError) (err : StepError) :
    (multierrorAppend errs err).anyInChain p =
      (errs.any (·.anyInChain p) || err.anyInChain p) := by
  have hm : ∀ errs, p (multi errs) = false := hp
  rcases errs with _ | ⟨errs⟩
  · simp [multierrorAppend, anyInChain, hm, anyInChainList_flatten hp]
  · cases errs with
    | multi errs => simp [multierrorAppend, anyInChain, hm, anyInChainList_flatten hp]
    | canceled | deadlineExceeded | retriable _ | wrapped _ _ | workerMissing _
    | workerUnreachable _ _ | url _ _ | net _ | failure _ =>
      simp [multierrorAppend, anyInChain, anyInChainList, hm, anyInChainList_flatten hp]

theorem StepError.is_multierrorAppend (errs : Option StepError) (err target : StepError) :
    (multierrorAppend errs err).is target = (errs.any (·.is target) || err.is target) :=
  anyInChain_multierrorAppend (skipsMulti_equals target) errs err

theorem StepError.asRetriable_multierrorAppend (errs : Option StepError) (err : StepError) :
    (multierrorAppend errs err).asRetriable = (errs.any (·.asRetriable) || err.asRetriable) :=
  anyInChain_multierrorAppend skipsMulti_isRetriable errs err

/-- What a run takes from outside this module. -/
structure World where
  /-- The `Run` of a step that does the work (or of an `in_parallel` or `across` step), started
  at a time under a context: how long it takes, and the `(ok, err)` it returns. -/
  runStep : PlanID → Ctx → Nat → Nat × Bool × Option StepError
  /-- `time.ParseDuration`, in the model's unit of time. -/
  parseDuration : String → Except String Nat

/-- A run of one of the world's steps: its plan, its context, when it started and returned. -/
structure CoreRun where
  id : PlanID
  ctx : Ctx
  start : Nat
  stop : Nat
  deriving DecidableEq, Repr

/-- What a `Run` returned, when, and the runs of the world's steps in it, in order. -/
structure RunResult where
  time : Nat
  trace : List CoreRun
  ok : Bool
  err : Option StepError

/-- A run that started when `r` returned, with `r`'s runs before its own. -/
def RunResult.after (r next : RunResult) : RunResult :=
  { next with trace := r.trace ++ next.trace }

@[simp] theorem RunResult.time_after (r next : RunResult) : (r.after next).time = next.time := rfl

@[simp] theorem RunResult.trace_after (r next : RunResult) :
    (r.after next).trace = r.trace ++ next.trace := rfl

@[simp] theorem RunResult.ok_after (r next : RunResult) : (r.after next).ok = next.ok := rfl

@[simp] theorem RunResult.err_after (r next : RunResult) : (r.after next).err = next.err := rfl

namespace RunResult

/-- One of the world's steps in the run returned with its context cancelled. -/
def SawCancel (r : RunResult) : Prop :=
  ∃ c ∈ r.trace, c.ctx.canceledBy c.stop = true

instance (r : RunResult) : Decidable r.SawCancel :=
  inferInstanceAs (Decidable (∃ c ∈ r.trace, c.ctx.canceledBy c.stop = true))

theorem sawCancel_after {r next : RunResult} :
    (r.after next).SawCancel ↔ r.SawCancel ∨ next.SawCancel := by
  simp only [SawCancel, trace_after, List.mem_append, or_and_right, exists_or]

/-- The world's steps in the run ran under contexts derived from `ctx`: each returned by the
time the run did, and was cancelled only if `ctx` was by then. -/
def Inherits (ctx : Ctx) (r : RunResult) : Prop :=
  ∀ c ∈ r.trace, c.stop ≤ r.time ∧ (c.ctx.canceledBy c.stop = true → ctx.canceledBy c.stop = true)

variable {ctx : Ctx} {r next : RunResult}

theorem Inherits.after (h : r.Inherits ctx) (h' : next.Inherits ctx) (hle : r.time ≤ next.time) :
    (r.after next).Inherits ctx := by
  intro c hc
  rcases List.mem_append.mp hc with hc | hc
  · obtain ⟨hstop, hcan⟩ := h c hc
    exact ⟨le_trans hstop hle, hcan⟩
  · exact h' c hc

theorem Inherits.of_withTimeout {now d : Nat} (h : r.Inherits (ctx.withTimeout now d)) :
    r.Inherits ctx := fun c hc =>
  ⟨(h c hc).1, fun hcan => Ctx.canceledBy_of_withTimeout ((h c hc).2 hcan)⟩

/-- Nothing under `context.Background()` is cancelled. -/
theorem Inherits.of_background (h : r.Inherits .background) : r.Inherits ctx := fun c hc =>
  ⟨(h c hc).1, fun hcan => by simpa using (h c hc).2 hcan⟩

/-- A run under `ctx` in which one of the world's steps was cancelled ends with `ctx` cancelled. -/
theorem Inherits.canceledBy (h : r.Inherits ctx) (hs : r.SawCancel) :
    ctx.canceledBy r.time = true := by
  obtain ⟨c, hc, hcan⟩ := hs
  obtain ⟨hstop, hinherit⟩ := h c hc
  exact Ctx.canceledBy_mono (hinherit hcan) hstop

end RunResult

/-- What `engineBuild.finish` takes for an abort: `errors.Is(err, context.Canceled)`, and neither
`errors.Is(err, context.DeadlineExceeded)` nor a `Retriable` in it. -/
structure StepError.IsAbort (err : StepError) : Prop where
  canceled : err.is .canceled = true
  notDeadline : err.is .deadlineExceeded = false
  notRetriable : err.asRetriable = false

theorem StepError.isAbort_ofCtx : (StepError.ofCtx .canceled).IsAbort := ⟨rfl, rfl, rfl⟩

/-- `OnErrorStep` and `EnsureStep` keep an abort when they collect errors in a multierror. -/
theorem StepError.IsAbort.multierrorAppend {err : StepError} (h : err.IsAbort) :
    (Exec.multierrorAppend none err).IsAbort where
  canceled := by
    simpa [is, anyInChain_multierrorAppend (skipsMulti_equals _)] using h.canceled
  notDeadline := by
    simpa [is, anyInChain_multierrorAppend (skipsMulti_equals _)] using h.notDeadline
  notRetriable := by
    simpa [asRetriable, anyInChain_multierrorAppend skipsMulti_isRetriable] using h.notRetriable

/-- The run returned an error that `finish` takes for an abort. -/
def RunResult.EndsCanceled (r : RunResult) : Prop :=
  ∃ err, r.err = some err ∧ err.IsAbort

/-- The world's steps honour their context: one whose context is done when it returns returns
`(false, ctx.Err())`. -/
def World.Cooperative (w : World) : Prop :=
  ∀ id ctx t e, ctx.err (t + (w.runStep id ctx t).1) = some e →
    (w.runStep id ctx t).2 = (false, some (.ofCtx e))

/-- Every step of the world started under a live context succeeds and returns while the context
is live. -/
def World.Succeeds (w : World) : Prop :=
  ∀ id ctx t, ctx.err t = none →
    (w.runStep id ctx t).2 = (true, none) ∧ ctx.err (t + (w.runStep id ctx t).1) = none

/-- The world's steps never return `Retriable{}`: only `RetryErrorStep` makes a `Retriable`, and
with a cause. -/
def World.NoZeroRetriable (w : World) : Prop :=
  ∀ id ctx t err, (w.runStep id ctx t).2.2 = some err → err.is (.retriable none) = false

/-- The run's error, if it returned one, is not and holds no `Retriable{}`. -/
def RunResult.NoZeroRetriable (r : RunResult) : Prop :=
  ∀ err, r.err = some err → err.is (.retriable none) = false

/-- The run succeeded without an error, with `ctx` still live, having run the world's steps
`path`. -/
structure RunResult.SucceededAlong (ctx : Ctx) (path : List PlanID) (r : RunResult) : Prop where
  ok : r.ok = true
  err : r.err = none
  live : ctx.err r.time = none
  path : r.trace.map (·.id) = path

theorem RunResult.SucceededAlong.after {ctx : Ctx} {path path' : List PlanID} {r next : RunResult}
    (h : r.SucceededAlong ctx path) (h' : next.SucceededAlong ctx path') :
    (r.after next).SucceededAlong ctx (path ++ path') :=
  ⟨h'.ok, h'.err, h'.live, by simp [h.path, h'.path]⟩

/-- The tree of `exec.Step`s a plan is built into. -/
inductive ExecStep where
  /-- `IdentityStep`. -/
  | identity
  /-- A step the world runs: a get, put, check, task, run, set_pipeline or load_var step, or an
  `in_parallel` or `across` step, by its plan's ID. -/
  | core (id : PlanID)
  | logError (step : ExecStep)
  | retryError (step : ExecStep)
  | onSuccess (step hook : ExecStep)
  | onFailure (step hook : ExecStep)
  | onAbort (step hook : ExecStep)
  | onError (step hook : ExecStep)
  | ensure (step hook : ExecStep)
  | tryStep (step : ExecStep)
  | timeout (step : ExecStep) (duration : String)
  | retry (attempts : List ExecStep)
  deriving Repr

namespace ExecStep

/-- Induction on a step, with the attempts of a retry as its children. -/
theorem induction {motive : ExecStep → Prop}
    (identity : motive .identity)
    (core : ∀ id, motive (.core id))
    (logError : ∀ step, motive step → motive (.logError step))
    (retryError : ∀ step, motive step → motive (.retryError step))
    (onSuccess : ∀ step hook, motive step → motive hook → motive (.onSuccess step hook))
    (onFailure : ∀ step hook, motive step → motive hook → motive (.onFailure step hook))
    (onAbort : ∀ step hook, motive step → motive hook → motive (.onAbort step hook))
    (onError : ∀ step hook, motive step → motive hook → motive (.onError step hook))
    (ensure : ∀ step hook, motive step → motive hook → motive (.ensure step hook))
    (tryStep : ∀ step, motive step → motive (.tryStep step))
    (timeout : ∀ step duration, motive step → motive (.timeout step duration))
    (retry : ∀ attempts, (∀ attempt ∈ attempts, motive attempt) → motive (.retry attempts)) :
    ∀ step, motive step :=
  @ExecStep.rec motive (fun attempts => ∀ attempt ∈ attempts, motive attempt)
    identity core logError retryError onSuccess onFailure onAbort onError ensure tryStep timeout
    retry (fun _ h => absurd h List.not_mem_nil)
    (fun _ _ hhead htail attempt h => by
      rcases List.mem_cons.mp h with rfl | h
      · exact hhead
      · exact htail attempt h)

mutual
/-- The steps the world runs when every one of them succeeds: a step's, then its on_success or
ensure hook's, and a retry's first attempt's; never an on_failure, on_abort or on_error hook. -/
def successPath : ExecStep → List PlanID
  | identity => []
  | core id => [id]
  | logError step | retryError step | tryStep step | timeout step _ => successPath step
  | onSuccess step hook | ensure step hook => successPath step ++ successPath hook
  | onFailure step _ | onAbort step _ | onError step _ => successPath step
  | retry attempts => firstAttemptPath attempts

/-- `successPath` of the first of a retry's attempts. -/
def firstAttemptPath : List ExecStep → List PlanID
  | [] => []
  | attempt :: _ => successPath attempt
end

variable (w : World)

mutual
/-- `Step.Run(ctx, state)`, started at time `t`. -/
def run : ExecStep → Ctx → Nat → RunResult
  | identity, _, t => ⟨t, [], true, none⟩
  | core id, ctx, t =>
    let (d, ok, err) := w.runStep id ctx t
    ⟨t + d, [⟨id, ctx, t, t + d⟩], ok, err⟩
  | logError step, ctx, t => run step ctx t
  | retryError step, ctx, t =>
    let r := run step ctx t
    -- `<-ctx.Done()`: a step of an aborted or timed-out build is not retried
    if (ctx.err r.time).isSome then r
    else
      match r.err with
      | some err => if err.toRetry then { r with err := some (.retriable (some err)) } else r
      | none => r
  | onSuccess step hook, ctx, t =>
    let r := run step ctx t
    match r.err with
    | some _ => { r with ok := false }
    | none => if r.ok then r.after (run hook ctx r.time) else r
  | onFailure step hook, ctx, t =>
    let r := run step ctx t
    match r.err with
    | some _ => { r with ok := false }
    | none =>
      if r.ok then r
      else
        -- the hook's `ok` is dropped, its error is the step's
        let h := r.after (run hook ctx r.time)
        match h.err with
        | some _ => { h with ok := false }
        | none => { h with ok := r.ok }
  | onAbort step hook, ctx, t =>
    let r := run step ctx t
    match r.err with
    | none => r
    | some err =>
      -- on an abort, not on a timeout; what the hook returns is dropped
      if err.is .canceled then { r.after (run hook .background r.time) with ok := r.ok, err := r.err }
      else r
  | onError step hook, ctx, t =>
    let r := run step ctx t
    match r.err with
    | none => r
    | some err =>
      let errs := multierrorAppend none err
      if !(err.is .canceled || err.is (.retriable none)) then
        let h := run hook .background r.time
        { r.after h with
          ok := r.ok
          err := some (match h.err with
            | some hookErr => multierrorAppend (some errs) hookErr
            | none => errs) }
      else { r with err := some errs }
  | ensure step hook, ctx, t =>
    let r := run step ctx t
    let errors := r.err.map (multierrorAppend none)
    -- the hook of an aborted or timed-out step runs under `context.Background()`
    let hookCtx := if (ctx.err r.time).isSome then Ctx.background else ctx
    let h := r.after (run hook hookCtx r.time)
    let errors := match h.err with
      | some hookErr => some (multierrorAppend errors hookErr)
      | none => errors
    match ctx.err h.time with
    | some e => { h with ok := false, err := some (.ofCtx e) }
    | none =>
      match errors with
      | some errs => { h with ok := false, err := some errs }
      | none => { h with ok := r.ok && h.ok }
  | tryStep step, ctx, t =>
    let r := run step ctx t
    -- aborts are passed on, timeouts and other errors are not
    match r.err with
    | some err => if err.is .canceled then { r with ok := false } else { r with ok := true, err := none }
    | none => { r with ok := true }
  | timeout step duration, ctx, t =>
    match w.parseDuration duration with
    | .error message => ⟨t, [], false, some (.failure message)⟩
    | .ok d =>
      let r := run step (ctx.withTimeout t d) t
      match r.err with
      | some err => if err.is .deadlineExceeded then { r with ok := false, err := none } else r
      | none => r
  | retry attempts, ctx, t => runAttempts ctx attempts ⟨t, [], false, none⟩

/-- The loop of `RetryStep.Run` over the attempts left, after the last one returned `last`. -/
def runAttempts (ctx : Ctx) : List ExecStep → RunResult → RunResult
  | [], last => last
  | attempt :: attempts, last =>
    let r := last.after (run attempt ctx last.time)
    match ctx.err r.time with
    | some e => { r with ok := false, err := some (.ofCtx e) }
    | none =>
      match r.err, r.ok with
      -- an attempt that succeeded ends the loop, one that errored or failed is followed by the next
      | none, true => r
      | _, _ => runAttempts ctx attempts r
end

variable {w}

/-! ### One equation for each combinator

The proofs below go through these, never through the equations Lean would derive for `run`. -/

section Equations

variable {ctx : Ctx} {t : Nat}

theorem run_identity : identity.run w ctx t = ⟨t, [], true, none⟩ := rfl

theorem run_core (id : PlanID) :
    (core id).run w ctx t =
      ⟨t + (w.runStep id ctx t).1, [⟨id, ctx, t, t + (w.runStep id ctx t).1⟩],
        (w.runStep id ctx t).2.1, (w.runStep id ctx t).2.2⟩ := rfl

theorem run_logError (step : ExecStep) : (logError step).run w ctx t = step.run w ctx t := rfl

theorem run_retryError (step : ExecStep) :
    (retryError step).run w ctx t =
      if (ctx.err (step.run w ctx t).time).isSome then step.run w ctx t
      else
        match (step.run w ctx t).err with
        | some err =>
          if err.toRetry then { step.run w ctx t with err := some (.retriable (some err)) }
          else step.run w ctx t
        | none => step.run w ctx t := rfl

theorem run_onSuccess (step hook : ExecStep) :
    (onSuccess step hook).run w ctx t =
      match (step.run w ctx t).err with
      | some _ => { step.run w ctx t with ok := false }
      | none =>
        if (step.run w ctx t).ok then
          (step.run w ctx t).after (hook.run w ctx (step.run w ctx t).time)
        else step.run w ctx t := rfl

theorem run_onFailure (step hook : ExecStep) :
    (onFailure step hook).run w ctx t =
      match (step.run w ctx t).err with
      | some _ => { step.run w ctx t with ok := false }
      | none =>
        if (step.run w ctx t).ok then step.run w ctx t
        else
          match ((step.run w ctx t).after (hook.run w ctx (step.run w ctx t).time)).err with
          | some _ => { (step.run w ctx t).after (hook.run w ctx (step.run w ctx t).time) with
              ok := false }
          | none => { (step.run w ctx t).after (hook.run w ctx (step.run w ctx t).time) with
              ok := (step.run w ctx t).ok } := rfl

theorem run_onAbort (step hook : ExecStep) :
    (onAbort step hook).run w ctx t =
      match (step.run w ctx t).err with
      | none => step.run w ctx t
      | some err =>
        if err.is .canceled then
          { (step.run w ctx t).after (hook.run w .background (step.run w ctx t).time) with
            ok := (step.run w ctx t).ok, err := (step.run w ctx t).err }
        else step.run w ctx t := rfl

theorem run_onError (step hook : ExecStep) :
    (onError step hook).run w ctx t =
      match (step.run w ctx t).err with
      | none => step.run w ctx t
      | some err =>
        if !(err.is .canceled || err.is (.retriable none)) then
          { (step.run w ctx t).after (hook.run w .background (step.run w ctx t).time) with
            ok := (step.run w ctx t).ok
            err := some (match (hook.run w .background (step.run w ctx t).time).err with
              | some hookErr => multierrorAppend (some (multierrorAppend none err)) hookErr
              | none => multierrorAppend none err) }
        else { step.run w ctx t with err := some (multierrorAppend none err) } := rfl

theorem run_ensure (step hook : ExecStep) :
    (ensure step hook).run w ctx t =
      let r := step.run w ctx t
      let errors := r.err.map (multierrorAppend none)
      let hookCtx := if (ctx.err r.time).isSome then Ctx.background else ctx
      let h := r.after (hook.run w hookCtx r.time)
      let errors := match h.err with
        | some hookErr => some (multierrorAppend errors hookErr)
        | none => errors
      match ctx.err h.time with
      | some e => { h with ok := false, err := some (.ofCtx e) }
      | none =>
        match errors with
        | some errs => { h with ok := false, err := some errs }
        | none => { h with ok := r.ok && h.ok } := rfl

theorem run_tryStep (step : ExecStep) :
    (tryStep step).run w ctx t =
      match (step.run w ctx t).err with
      | some err =>
        if err.is .canceled then { step.run w ctx t with ok := false }
        else { step.run w ctx t with ok := true, err := none }
      | none => { step.run w ctx t with ok := true } := rfl

theorem run_timeout (step : ExecStep) (duration : String) :
    (timeout step duration).run w ctx t =
      match w.parseDuration duration with
      | .error message => ⟨t, [], false, some (.failure message)⟩
      | .ok d =>
        match (step.run w (ctx.withTimeout t d) t).err with
        | some err =>
          if err.is .deadlineExceeded then
            { step.run w (ctx.withTimeout t d) t with ok := false, err := none }
          else step.run w (ctx.withTimeout t d) t
        | none => step.run w (ctx.withTimeout t d) t := rfl

theorem run_retry (attempts : List ExecStep) :
    (retry attempts).run w ctx t = runAttempts w ctx attempts ⟨t, [], false, none⟩ := rfl

theorem runAttempts_nil (last : RunResult) : runAttempts w ctx [] last = last := rfl

theorem runAttempts_cons (attempt : ExecStep) (attempts : List ExecStep) (last : RunResult) :
    runAttempts w ctx (attempt :: attempts) last =
      match ctx.err (last.after (attempt.run w ctx last.time)).time with
      | some e => { last.after (attempt.run w ctx last.time) with ok := false, err := some (.ofCtx e) }
      | none =>
        match (last.after (attempt.run w ctx last.time)).err,
            (last.after (attempt.run w ctx last.time)).ok with
        | none, true => last.after (attempt.run w ctx last.time)
        | _, _ => runAttempts w ctx attempts (last.after (attempt.run w ctx last.time)) := rfl

end Equations

/-- What holds of `last` and of a run of each attempt after a result it holds of, and survives
the loop's `ok = false` and `err = ctx.Err()`, holds of the whole loop. -/
theorem runAttempts_induction {ctx : Ctx} (P : RunResult → Prop) {attempts : List ExecStep}
    (hstep : ∀ attempt ∈ attempts, ∀ r, P r → P (r.after (attempt.run w ctx r.time)))
    (hset : ∀ r e, P r → P { r with ok := false, err := some (.ofCtx e) }) :
    ∀ last, P last → P (runAttempts w ctx attempts last) := by
  induction attempts with
  | nil => exact fun last h => h
  | cons attempt attempts ih =>
    intro last hlast
    have hr := hstep attempt (List.mem_cons_self ..) last hlast
    have hrest := ih fun a ha => hstep a (List.mem_cons_of_mem _ ha)
    simp only [runAttempts_cons]
    split
    · exact hset _ _ hr
    · split
      · exact hr
      · exact hrest _ hr

/-- A run returns no earlier than it starts. -/
theorem le_time_run : ∀ (step : ExecStep) (ctx : Ctx) (t : Nat), t ≤ (step.run w ctx t).time := by
  intro step
  induction step using ExecStep.induction with
  | identity => intro ctx t; simp [run_identity]
  | core id => intro ctx t; simp [run_core]
  | logError step ih => exact ih
  | retryError step ih =>
    intro ctx t
    simp only [run_retryError]
    split
    · exact ih ctx t
    · split
      · split <;> exact ih ctx t
      · exact ih ctx t
  | onSuccess step hook ihs ihh =>
    intro ctx t
    simp only [run_onSuccess]
    split
    · exact ihs ctx t
    · split
      · exact le_trans (ihs ctx t) (ihh ctx _)
      · exact ihs ctx t
  | onFailure step hook ihs ihh =>
    intro ctx t
    simp only [run_onFailure]
    split
    · exact ihs ctx t
    · split
      · exact ihs ctx t
      · split <;> exact le_trans (ihs ctx t) (ihh ctx _)
  | onAbort step hook ihs ihh =>
    intro ctx t
    simp only [run_onAbort]
    split
    · exact ihs ctx t
    · split
      · exact le_trans (ihs ctx t) (ihh _ _)
      · exact ihs ctx t
  | onError step hook ihs ihh =>
    intro ctx t
    simp only [run_onError]
    split
    · exact ihs ctx t
    · split
      · exact le_trans (ihs ctx t) (ihh _ _)
      · exact ihs ctx t
  | ensure step hook ihs ihh =>
    intro ctx t
    -- the hook runs under `ctx` or `background`, after the step
    have hle : ∀ hookCtx, t ≤ (hook.run w hookCtx (step.run w ctx t).time).time :=
      fun hookCtx => le_trans (ihs ctx t) (ihh hookCtx _)
    simp only [run_ensure]
    split
    · exact hle _
    · split <;> exact hle _
  | tryStep step ih =>
    intro ctx t
    simp only [run_tryStep]
    split
    · split <;> exact ih ctx t
    · exact ih ctx t
  | timeout step duration ih =>
    intro ctx t
    simp only [run_timeout]
    split
    · exact le_refl t
    · split
      · split <;> exact ih _ t
      · exact ih _ t
  | retry attempts ih =>
    intro ctx t
    exact runAttempts_induction (fun r => t ≤ r.time)
      (fun a ha r hr => le_trans hr (ih a ha ctx r.time)) (fun _ _ h => h) _ (le_refl t)

open RunResult in
/-- The world's steps run under contexts derived from the step's: `ctx`, a timeout of it, or
`background` for a hook that runs after an abort. -/
theorem inherits_run :
    ∀ (step : ExecStep) (ctx : Ctx) (t : Nat), (step.run w ctx t).Inherits ctx := by
  intro step
  induction step using ExecStep.induction with
  | identity => intro ctx t c hc; simp [run_identity] at hc
  | core id =>
    intro ctx t c hc
    simp only [run_core, List.mem_singleton] at hc
    subst hc
    exact ⟨le_refl _, fun hcan => hcan⟩
  | logError step ih => exact ih
  | retryError step ih =>
    intro ctx t
    simp only [run_retryError]
    split
    · exact ih ctx t
    · split
      · split <;> exact ih ctx t
      · exact ih ctx t
  | onSuccess step hook ihs ihh =>
    intro ctx t
    simp only [run_onSuccess]
    split
    · exact ihs ctx t
    · split
      · exact (ihs ctx t).after (ihh ctx _) (le_time_run _ _ _)
      · exact ihs ctx t
  | onFailure step hook ihs ihh =>
    intro ctx t
    simp only [run_onFailure]
    split
    · exact ihs ctx t
    · split
      · exact ihs ctx t
      · split <;> exact (ihs ctx t).after (ihh ctx _) (le_time_run _ _ _)
  | onAbort step hook ihs ihh =>
    intro ctx t
    simp only [run_onAbort]
    split
    · exact ihs ctx t
    · split
      · exact (ihs ctx t).after (ihh _ _).of_background (le_time_run _ _ _)
      · exact ihs ctx t
  | onError step hook ihs ihh =>
    intro ctx t
    simp only [run_onError]
    split
    · exact ihs ctx t
    · split
      · exact (ihs ctx t).after (ihh _ _).of_background (le_time_run _ _ _)
      · exact ihs ctx t
  | ensure step hook ihs ihh =>
    intro ctx t
    have hhook : ∀ hookCtx, (hookCtx = ctx ∨ hookCtx = .background) →
        ((step.run w ctx t).after (hook.run w hookCtx (step.run w ctx t).time)).Inherits ctx := by
      rintro hookCtx (rfl | rfl)
      · exact (ihs _ t).after (ihh _ _) (le_time_run _ _ _)
      · exact (ihs ctx t).after (ihh _ _).of_background (le_time_run _ _ _)
    have hctx : (if (ctx.err (step.run w ctx t).time).isSome then Ctx.background else ctx) = ctx ∨
        (if (ctx.err (step.run w ctx t).time).isSome then Ctx.background else ctx) = .background := by
      split
      · exact .inr rfl
      · exact .inl rfl
    simp only [run_ensure]
    split
    · exact hhook _ hctx
    · split <;> exact hhook _ hctx
  | tryStep step ih =>
    intro ctx t
    simp only [run_tryStep]
    split
    · split <;> exact ih ctx t
    · exact ih ctx t
  | timeout step duration ih =>
    intro ctx t
    simp only [run_timeout]
    split
    · intro c hc; simp at hc
    · split
      · split <;> exact (ih _ t).of_withTimeout
      · exact (ih _ t).of_withTimeout
  | retry attempts ih =>
    intro ctx t
    refine runAttempts_induction (fun r => r.Inherits ctx)
      (fun a ha r hr => hr.after (ih a ha ctx r.time) (le_time_run _ _ _)) (fun _ _ h => h) _ ?_
    intro c hc
    simp at hc

/-- A run in which one of the world's steps was cancelled ends with its context cancelled. -/
theorem canceledBy_of_sawCancel {step : ExecStep} {ctx : Ctx} {t : Nat}
    (h : (step.run w ctx t).SawCancel) : ctx.canceledBy (step.run w ctx t).time = true :=
  (inherits_run step ctx t).canceledBy h

/-- Nothing a hook runs under `context.Background()` is cancelled. -/
theorem not_sawCancel_background (step : ExecStep) (t : Nat) :
    ¬ (step.run w .background t).SawCancel := fun h => by
  simpa using canceledBy_of_sawCancel h

/-- `RetryErrorStep` changes only the error its step returned. -/
theorem run_retryError_eq (step : ExecStep) (ctx : Ctx) (t : Nat) :
    ∃ err, (retryError step).run w ctx t = { step.run w ctx t with err := err } := by
  simp only [run_retryError]
  split
  · exact ⟨_, rfl⟩
  · split
    · split
      · exact ⟨_, rfl⟩
      · exact ⟨_, rfl⟩
    · exact ⟨_, rfl⟩

/-- `TryStep` changes only what its step returned. -/
theorem run_tryStep_eq (step : ExecStep) (ctx : Ctx) (t : Nat) :
    ∃ ok err, (tryStep step).run w ctx t = { step.run w ctx t with ok := ok, err := err } := by
  simp only [run_tryStep]
  split
  · split
    · exact ⟨_, _, rfl⟩
    · exact ⟨_, _, rfl⟩
  · exact ⟨_, _, rfl⟩

/-- An ensure step whose context is done when its hook returns returns `ctx.Err()`. -/
theorem err_run_ensure_of_done {step hook : ExecStep} {ctx : Ctx} {t : Nat} {e : GoContext.Err}
    (h : ctx.err ((ensure step hook).run w ctx t).time = some e) :
    ((ensure step hook).run w ctx t).err = some (.ofCtx e) := by
  have htime : ((ensure step hook).run w ctx t).time =
      (hook.run w (if (ctx.err (step.run w ctx t).time).isSome then .background else ctx)
        (step.run w ctx t).time).time := by
    simp only [run_ensure]
    split
    · rfl
    · split <;> rfl
  rw [htime] at h
  simp only [run_ensure, RunResult.time_after, h]

open RunResult

theorem not_sawCancel_of_err_eq_none {r : RunResult} (ih : r.SawCancel → r.EndsCanceled)
    (hr : r.err = none) : ¬ r.SawCancel := fun hs => by
  obtain ⟨err, herr, -⟩ := ih hs
  rw [hr] at herr
  cases herr

theorem isAbort_of_err_eq {r : RunResult} {err : StepError} (ih : r.SawCancel → r.EndsCanceled)
    (hs : r.SawCancel) (hr : r.err = some err) : err.IsAbort := by
  obtain ⟨e, he, habort⟩ := ih hs
  rw [hr, Option.some.injEq] at he
  subst he
  exact habort

/-- In the retry loop, the attempt that saw the abort left `ctx` cancelled, and the loop returned
`ctx.Err()` right after it. -/
theorem endsCanceled_runAttempts {ctx : Ctx} (attempts : List ExecStep) :
    ∀ last : RunResult, ¬ last.SawCancel → (runAttempts w ctx attempts last).SawCancel →
      (runAttempts w ctx attempts last).EndsCanceled := by
  induction attempts with
  | nil => exact fun last hlast h => absurd h hlast
  | cons attempt attempts ih =>
    intro last hlast h
    rcases hdone : ctx.err (attempt.run w ctx last.time).time with _ | e
    · -- `ctx` was live after the attempt: the abort reached neither the attempt nor `last`
      have hno : ¬ (last.after (attempt.run w ctx last.time)).SawCancel := by
        rw [sawCancel_after]
        rintro (hs | hs)
        · exact hlast hs
        · have hcan := Ctx.err_of_canceledBy (canceledBy_of_sawCancel hs)
          rw [hdone] at hcan
          cases hcan
      have hnext : runAttempts w ctx (attempt :: attempts) last =
            last.after (attempt.run w ctx last.time) ∨
          runAttempts w ctx (attempt :: attempts) last =
            runAttempts w ctx attempts (last.after (attempt.run w ctx last.time)) := by
        simp only [runAttempts_cons, time_after, hdone]
        split
        · exact .inl rfl
        · exact .inr rfl
      rcases hnext with heq | heq <;> rw [heq] at h ⊢
      · exact absurd h hno
      · exact ih _ hno h
    · -- `ctx` was done after the attempt: the loop returned `ctx.Err()`
      simp only [runAttempts_cons, time_after, hdone] at h ⊢
      have h' : (last.after (attempt.run w ctx last.time)).SawCancel := h
      rcases sawCancel_after.mp h' with hs | hs
      · exact absurd hs hlast
      · have hcan := Ctx.err_of_canceledBy (canceledBy_of_sawCancel hs)
        rw [hdone, Option.some.injEq] at hcan
        subst hcan
        exact ⟨_, rfl, StepError.isAbort_ofCtx⟩

/-- **An abort that reaches a step ends the run as an abort.**  When the world's steps return
`ctx.Err()` once their context is done, a run in which one of them returned cancelled returns an
error that is `context.Canceled`, is not `context.DeadlineExceeded` and holds no `Retriable`,
whatever stands around the step. -/
theorem endsCanceled_of_sawCancel (hw : w.Cooperative) :
    ∀ (step : ExecStep) (ctx : Ctx) (t : Nat),
      (step.run w ctx t).SawCancel → (step.run w ctx t).EndsCanceled := by
  intro step
  induction step using ExecStep.induction with
  | identity => intro ctx t h; simp [run_identity, SawCancel] at h
  | core id =>
    intro ctx t h
    obtain ⟨c, hc, hcan⟩ := h
    simp only [run_core, List.mem_singleton] at hc
    subst hc
    -- the step returned after the abort reached its context: it returned `context.Canceled`
    have hcoop := hw id ctx t .canceled (Ctx.err_of_canceledBy hcan)
    refine ⟨.ofCtx .canceled, ?_, StepError.isAbort_ofCtx⟩
    show (w.runStep id ctx t).2.2 = _
    rw [hcoop]
  | logError step ih => exact ih
  | retryError step ih =>
    intro ctx t h
    obtain ⟨err, heq⟩ := run_retryError_eq step ctx t
    have hs : (step.run w ctx t).SawCancel := by
      rw [heq] at h
      exact h
    -- the build was aborted: `RetryErrorStep` passes the error on as it is
    have hdone : (ctx.err (step.run w ctx t).time).isSome = true := by
      rw [Ctx.err_of_canceledBy (canceledBy_of_sawCancel hs)]
      rfl
    simp only [run_retryError, hdone, ↓reduceIte]
    exact ih ctx t hs
  | onSuccess step hook ihs ihh =>
    intro ctx t h
    rcases hr : (step.run w ctx t).err with _ | err
    · have hno := not_sawCancel_of_err_eq_none (ihs ctx t) hr
      cases hok : (step.run w ctx t).ok
      · simp only [run_onSuccess, hr, hok, Bool.false_eq_true, ↓reduceIte] at h
        exact absurd h hno
      · -- the step succeeded: the hook ran, and the abort reached it
        simp only [run_onSuccess, hr, hok, ↓reduceIte] at h ⊢
        rcases sawCancel_after.mp h with hs | hs
        · exact absurd hs hno
        · exact ihh ctx _ hs
    · simp only [run_onSuccess, hr] at h ⊢
      exact ⟨err, rfl, isAbort_of_err_eq (ihs ctx t) h hr⟩
  | onFailure step hook ihs ihh =>
    intro ctx t h
    rcases hr : (step.run w ctx t).err with _ | err
    · have hno := not_sawCancel_of_err_eq_none (ihs ctx t) hr
      cases hok : (step.run w ctx t).ok
      · -- the step failed: the hook ran, and the abort reached it
        have hhook : (hook.run w ctx (step.run w ctx t).time).SawCancel := by
          have h' : ((step.run w ctx t).after (hook.run w ctx (step.run w ctx t).time)).SawCancel := by
            simp only [run_onFailure, hr, hok, Bool.false_eq_true, ↓reduceIte] at h
            split at h <;> exact h
          rcases sawCancel_after.mp h' with hs | hs
          · exact absurd hs hno
          · exact hs
        obtain ⟨herr, hherr, habort⟩ := ihh ctx _ hhook
        simp only [run_onFailure, hr, hok, Bool.false_eq_true, ↓reduceIte, err_after, hherr]
        exact ⟨herr, rfl, habort⟩
      · simp only [run_onFailure, hr, hok, ↓reduceIte] at h
        exact absurd h hno
    · simp only [run_onFailure, hr] at h ⊢
      exact ⟨err, rfl, isAbort_of_err_eq (ihs ctx t) h hr⟩
  | onAbort step hook ihs ihh =>
    intro ctx t h
    rcases hr : (step.run w ctx t).err with _ | err
    · simp only [run_onAbort, hr] at h
      exact absurd h (not_sawCancel_of_err_eq_none (ihs ctx t) hr)
    · by_cases hc : err.is .canceled = true
      · -- the hook ran under `background`: the abort reached the step
        simp only [run_onAbort, hr, hc, ↓reduceIte] at h ⊢
        have h' : ((step.run w ctx t).after
            (hook.run w .background (step.run w ctx t).time)).SawCancel := h
        rcases sawCancel_after.mp h' with hs | hs
        · exact ⟨err, rfl, isAbort_of_err_eq (ihs ctx t) hs hr⟩
        · exact absurd hs (not_sawCancel_background hook _)
      · simp only [run_onAbort, hr, hc, Bool.false_eq_true, ↓reduceIte] at h ⊢
        exact ihs ctx t h
  | onError step hook ihs ihh =>
    intro ctx t h
    rcases hr : (step.run w ctx t).err with _ | err
    · simp only [run_onError, hr] at h
      exact absurd h (not_sawCancel_of_err_eq_none (ihs ctx t) hr)
    · -- whether or not the hook ran (under `background`), the abort reached the step
      have hs : (step.run w ctx t).SawCancel := by
        simp only [run_onError, hr] at h
        split at h
        · have h' : ((step.run w ctx t).after
              (hook.run w .background (step.run w ctx t).time)).SawCancel := h
          rcases sawCancel_after.mp h' with hs | hs
          · exact hs
          · exact absurd hs (not_sawCancel_background hook _)
        · exact h
      have habort := isAbort_of_err_eq (ihs ctx t) hs hr
      -- so the error is an abort, which `OnErrorStep` collects without running the hook
      simp only [run_onError, hr, habort.canceled, Bool.true_or, Bool.not_true, Bool.false_eq_true,
        ↓reduceIte]
      exact ⟨_, rfl, habort.multierrorAppend⟩
  | ensure step hook _ _ =>
    intro ctx t h
    exact ⟨_, err_run_ensure_of_done (Ctx.err_of_canceledBy (canceledBy_of_sawCancel h)),
      StepError.isAbort_ofCtx⟩
  | tryStep step ih =>
    intro ctx t h
    obtain ⟨ok, err, heq⟩ := run_tryStep_eq step ctx t
    have hs : (step.run w ctx t).SawCancel := by
      rw [heq] at h
      exact h
    obtain ⟨err, herr, habort⟩ := ih ctx t hs
    -- `TryStep` passes an abort on
    simp only [run_tryStep, herr, habort.canceled, ↓reduceIte]
    exact ⟨err, rfl, habort⟩
  | timeout step duration ih =>
    intro ctx t h
    rcases hd : w.parseDuration duration with message | d
    · simp [run_timeout, hd, SawCancel] at h
    · rcases hr : (step.run w (ctx.withTimeout t d) t).err with _ | err
      · simp only [run_timeout, hd, hr] at h
        exact absurd h (not_sawCancel_of_err_eq_none (ih _ t) hr)
      · have hs : (step.run w (ctx.withTimeout t d) t).SawCancel := by
          simp only [run_timeout, hd, hr] at h
          split at h <;> exact h
        have habort := isAbort_of_err_eq (ih _ t) hs hr
        -- an abort is not a timeout: `TimeoutStep` passes it on
        simp only [run_timeout, hd, hr, habort.notDeadline, Bool.false_eq_true, ↓reduceIte]
        exact ih _ t hs
  | retry attempts _ =>
    intro ctx t h
    exact endsCanceled_runAttempts attempts _ (by simp [SawCancel]) h

/-! ### No run returns `Retriable{}` -/

namespace RunResult

variable {r next : RunResult}

theorem NoZeroRetriable.after (h : next.NoZeroRetriable) : (r.after next).NoZeroRetriable := h

theorem NoZeroRetriable.with_ok (h : r.NoZeroRetriable) (ok : Bool) :
    ({ r with ok := ok } : RunResult).NoZeroRetriable := h

theorem noZeroRetriable_of_err_none (ok : Bool) :
    ({ r with ok := ok, err := none } : RunResult).NoZeroRetriable := fun _ h => by cases h

/-- An error the code makes itself: `ctx.Err()` or a `Retriable` with a cause. -/
theorem noZeroRetriable_of_err_eq (ok : Bool) {err : StepError}
    (herr : err.is (.retriable none) = false) :
    ({ r with ok := ok, err := some err } : RunResult).NoZeroRetriable := fun _ h => by
  cases h
  exact herr

end RunResult

open RunResult in
/-- **No run returns `Retriable{}`.**  When the world's steps never return it, no step tree's
run returns an error that `errors.Is` matches with the zero `Retriable`: `RetryErrorStep` marks
an error as `Retriable{err}`, with its cause, and the other steps pass errors on or collect them
in multierrors. -/
theorem noZeroRetriable_run (hw : w.NoZeroRetriable) :
    ∀ (step : ExecStep) (ctx : Ctx) (t : Nat), (step.run w ctx t).NoZeroRetriable := by
  intro step
  induction step using ExecStep.induction with
  | identity => intro ctx t err h; cases h
  | core id => exact fun ctx t err h => hw id ctx t err h
  | logError step ih => exact ih
  | retryError step ih =>
    intro ctx t
    rw [run_retryError]
    split
    · exact ih ctx t
    · split
      · split
        · exact noZeroRetriable_of_err_eq _ rfl
        · exact ih ctx t
      · exact ih ctx t
  | onSuccess step hook ihs ihh =>
    intro ctx t
    rw [run_onSuccess]
    split
    · exact NoZeroRetriable.with_ok (ihs ctx t) false
    · split
      · exact NoZeroRetriable.after (ihh ctx _)
      · exact ihs ctx t
  | onFailure step hook ihs ihh =>
    intro ctx t
    rw [run_onFailure]
    split
    · exact NoZeroRetriable.with_ok (ihs ctx t) false
    · split
      · exact ihs ctx t
      · split
        · exact NoZeroRetriable.with_ok (NoZeroRetriable.after (ihh ctx _)) false
        · exact NoZeroRetriable.with_ok (NoZeroRetriable.after (ihh ctx _)) _
  | onAbort step hook ihs ihh =>
    intro ctx t
    rw [run_onAbort]
    split
    · exact ihs ctx t
    · split
      · exact fun err h => ihs ctx t err h
      · exact ihs ctx t
  | onError step hook ihs ihh =>
    intro ctx t
    rw [run_onError]
    split
    · exact ihs ctx t
    · rename_i err herr
      -- the multierror holds the step's error, and the hook's if it returned one
      have hstep : err.is (.retriable none) = false := ihs ctx t err herr
      have hfirst : (multierrorAppend none err).is (.retriable none) = false := by
        rw [StepError.is_multierrorAppend, hstep]
        rfl
      split
      · refine noZeroRetriable_of_err_eq _ ?_
        split
        · rename_i hookErr hhook
          rw [StepError.is_multierrorAppend, Option.any_some, hfirst, ihh _ _ hookErr hhook]
          rfl
        · exact hfirst
      · exact noZeroRetriable_of_err_eq _ hfirst
  | ensure step hook ihs ihh =>
    intro ctx t
    -- the step's error, collected in a multierror
    have hstep : ∀ errs, (step.run w ctx t).err.map (multierrorAppend none) = some errs →
        errs.is (.retriable none) = false := by
      intro errs h
      obtain ⟨err, hr, rfl⟩ := Option.map_eq_some_iff.mp h
      rw [StepError.is_multierrorAppend, ihs ctx t err hr]
      rfl
    rw [run_ensure]
    dsimp only
    split
    · exact noZeroRetriable_of_err_eq _ (by cases ‹GoContext.Err› <;> rfl)
    · split
      · rename_i errs herrs
        refine noZeroRetriable_of_err_eq _ ?_
        split at herrs
        · rename_i hookErr hhook
          cases herrs
          rw [StepError.is_multierrorAppend, ihh _ _ hookErr hhook, Bool.or_false]
          cases hm : (step.run w ctx t).err.map (multierrorAppend none) with
          | none => rfl
          | some errs => exact hstep errs hm
        · exact hstep errs herrs
      · -- nothing collected: the hook returned no error either
        rename_i hnone
        intro err herr
        split at hnone
        · cases hnone
        · rename_i hhook
          rw [RunResult.err_after] at hhook
          exact absurd (herr.symm.trans hhook) (Option.some_ne_none err)
  | tryStep step ih =>
    intro ctx t
    rw [run_tryStep]
    split
    · split
      · exact NoZeroRetriable.with_ok (ih ctx t) false
      · exact noZeroRetriable_of_err_none true
    · exact NoZeroRetriable.with_ok (ih ctx t) true
  | timeout step duration ih =>
    intro ctx t
    rw [run_timeout]
    split
    · exact fun err h => by cases h; rfl
    · split
      · split
        · exact noZeroRetriable_of_err_none false
        · exact ih _ t
      · exact ih _ t
  | retry attempts ih =>
    intro ctx t
    -- the loop keeps an attempt's error, or returns `ctx.Err()`
    exact runAttempts_induction NoZeroRetriable (fun a ha r _ => NoZeroRetriable.after (ih a ha ctx r.time))
      (fun _ e _ => noZeroRetriable_of_err_eq false (by cases e <;> rfl)) _ fun err h => by cases h

variable (w) in
mutual
/-- Every timeout of the step has a duration that parses to a positive time, and every retry
has an attempt. -/
def valid : ExecStep → Bool
  | identity | core _ => true
  | logError step | retryError step | tryStep step => valid step
  | onSuccess step hook | onFailure step hook | onAbort step hook | onError step hook
  | ensure step hook => valid step && valid hook
  | timeout step duration =>
    (match w.parseDuration duration with
      | .ok d => decide (0 < d)
      | .error _ => false) && valid step
  | retry attempts => !attempts.isEmpty && validAll attempts

/-- `valid` of each of a retry's attempts. -/
def validAll : List ExecStep → Bool
  | [] => true
  | attempt :: attempts => valid attempt && validAll attempts
end

/-- **Every step succeeding, a run succeeds along `successPath`.**  When each of the world's
steps started under a live context succeeds and returns while the context is live, a valid step
started under a live context succeeds, leaves the context live, and runs exactly the steps
`successPath` lists, in that order. -/
theorem run_of_succeeds (hw : w.Succeeds) :
    ∀ step : ExecStep, step.valid w = true → ∀ (ctx : Ctx) (t : Nat), ctx.err t = none →
      (step.run w ctx t).SucceededAlong ctx step.successPath := by
  intro step
  induction step using ExecStep.induction with
  | identity => intro _ ctx t hlive; exact ⟨rfl, rfl, hlive, rfl⟩
  | core id =>
    intro _ ctx t hlive
    obtain ⟨hres, hend⟩ := hw id ctx t hlive
    refine ⟨?_, ?_, hend, rfl⟩
    · show (w.runStep id ctx t).2.1 = true
      rw [hres]
    · show (w.runStep id ctx t).2.2 = none
      rw [hres]
  | logError step ih => exact ih
  | retryError step ih =>
    intro hv ctx t hlive
    have hr := ih hv ctx t hlive
    -- nothing to retry
    simp only [run_retryError, hr.live, hr.err, Option.isSome_none, Bool.false_eq_true, ↓reduceIte]
    exact hr
  | onSuccess step hook ihs ihh =>
    intro hv ctx t hlive
    simp only [valid, Bool.and_eq_true] at hv
    have hr := ihs hv.1 ctx t hlive
    simp only [run_onSuccess, hr.err, hr.ok, ↓reduceIte, successPath]
    exact hr.after (ihh hv.2 ctx _ hr.live)
  | onFailure step hook ihs _ | onAbort step hook ihs _ | onError step hook ihs _ =>
    intro hv ctx t hlive
    simp only [valid, Bool.and_eq_true] at hv
    have hr := ihs hv.1 ctx t hlive
    simp only [run_onFailure, run_onAbort, run_onError, hr.err, hr.ok, ↓reduceIte, successPath]
    exact hr
  | ensure step hook ihs ihh =>
    intro hv ctx t hlive
    simp only [valid, Bool.and_eq_true] at hv
    have hr := ihs hv.1 ctx t hlive
    -- the step left `ctx` live, so the hook ran under it
    have hh := ihh hv.2 ctx _ hr.live
    simp only [run_ensure, hr.live, hr.err, hr.ok, Option.isSome_none, Bool.false_eq_true, ↓reduceIte,
      Option.map_none, err_after, hh.err, time_after, hh.live, successPath]
    exact ⟨by simp [hh.ok], rfl, hh.live, (hr.after hh).path⟩
  | tryStep step ih =>
    intro hv ctx t hlive
    have hr := ih hv ctx t hlive
    simp only [run_tryStep, hr.err, successPath]
    exact ⟨rfl, rfl, hr.live, hr.path⟩
  | timeout step duration ih =>
    intro hv ctx t hlive
    simp only [valid, Bool.and_eq_true] at hv
    obtain ⟨hd, hv⟩ := hv
    split at hd
    · rename_i d hparse
      -- the timeout's context is live when it starts, and its step leaves it live
      have hr := ih hv _ t (Ctx.err_withTimeout_self hlive (of_decide_eq_true hd))
      simp only [run_timeout, hparse, hr.err, successPath]
      exact ⟨hr.ok, hr.err, Ctx.err_eq_none_of_withTimeout hr.live, hr.path⟩
    · cases hd
  | retry attempts ih =>
    intro hv ctx t hlive
    simp only [valid, Bool.and_eq_true, Bool.not_eq_true', List.isEmpty_eq_false_iff] at hv
    obtain ⟨hne, hall⟩ := hv
    obtain ⟨attempt, attempts, rfl⟩ := List.exists_cons_of_ne_nil hne
    simp only [validAll, Bool.and_eq_true] at hall
    -- the first attempt succeeds, which ends the loop
    have hr := ih attempt (List.mem_cons_self ..) hall.1 ctx t hlive
    simp only [run_retry, runAttempts_cons, time_after, hr.live, err_after, hr.err, ok_after, hr.ok,
      successPath, firstAttemptPath]
    exact ⟨hr.ok, hr.err, hr.live, by simp [hr.path]⟩
end ExecStep

end Exec
end Concourse
