import Concourse.Exec.StepRun
import Concourse.Atc.Plan
import Concourse.Db.PaginatedBuilds

/-!
# Building a plan into steps, and how a build ends

`atc/engine`: `planBuilder.buildStep` turns a build's plan into the tree of `exec.Step`s that
runs it, and `engineBuild.Run` runs the tree under the build's context, cancelled when the build
is aborted, then records how the build ended.

* A do plan is its steps chained by `OnSuccessStep`, the last onto `IdentityStep`; each attempt
  of a retry plan is built into a step; a get, put, check, task, run, set_pipeline or load_var
  plan is the step that does the work, wrapped by `LogErrorStep`, and by `RetryErrorStep` when
  `atc.EnableBuildRerunWhenWorkerDisappears` is set (`coreStep`).
* After the run, a build whose error holds a `Retriable` is left running, to be run again (unless
  it is a check build); any other is finished aborted, errored, succeeded or failed (`finish`).

For every plan:

1. a build in which the abort reached a running step finishes aborted
   (`aborted_build_finishes_aborted`);
2. with no abort, a build whose steps all succeed in time finishes succeeded, having run exactly
   the steps of its success path (`build_succeeds_along_successPath`);
3. an on_error hook runs on every error of its step but an abort, and on one `RetryErrorStep`
   marked retriable the build is then left to run again (`onError_hook_runs_on_retriable`).  The
   hook was meant to be skipped there: `OnErrorStep` checks `errors.Is(err, Retriable{})`, which
   compares with the zero `Retriable`, and no run returns that value (`noZeroRetriable_run`).

The hooks' build status (`withBuildStatus`), the attempt numbers and the step metadata only name
containers and fill in variables; they are left out.
-/

namespace Concourse
namespace Engine

open Atc Exec GoContext

/-- What `coreStepFactory` makes of a step that does the work: the step with its errors logged,
marked retriable when `atc.EnableBuildRerunWhenWorkerDisappears` is set. -/
def coreStep (enableRerun : Bool) (id : PlanID) : ExecStep :=
  let step := ExecStep.logError (.core id)
  if enableRerun then .retryError step else step

mutual
/-- `planBuilder.buildStep`. -/
def buildStep (enableRerun : Bool) : Plan → ExecStep
  -- run as wholes here; their executors are `Exec.InParallel` and `Exec.AcrossStep`
  | .inParallel id .. => .core id
  | .across id .. => .logError (.core id)
  | .doPlan _ steps => buildDoStep enableRerun steps
  | .timeout _ duration step => .timeout (buildStep enableRerun step) duration
  | .tryPlan _ step => .tryStep (buildStep enableRerun step)
  | .onAbort _ step next => .onAbort (buildStep enableRerun step) (buildStep enableRerun next)
  | .onError _ step next => .onError (buildStep enableRerun step) (buildStep enableRerun next)
  | .onSuccess _ step next => .onSuccess (buildStep enableRerun step) (buildStep enableRerun next)
  | .onFailure _ step next => .onFailure (buildStep enableRerun step) (buildStep enableRerun next)
  | .ensure _ step next => .ensure (buildStep enableRerun step) (buildStep enableRerun next)
  | .run id .. | .task id .. | .setPipeline id .. | .loadVar id .. | .check id .. | .get id ..
  | .put id .. => coreStep enableRerun id
  | .retry _ attempts => .retry (buildRetryStep enableRerun attempts)

/-- `planBuilder.buildDoStep`: each step chained onto the ones after it, the last onto
`IdentityStep`. -/
def buildDoStep (enableRerun : Bool) : List Plan → ExecStep
  | [] => .identity
  | step :: steps => .onSuccess (buildStep enableRerun step) (buildDoStep enableRerun steps)

/-- The attempts of `planBuilder.buildRetryStep`. -/
def buildRetryStep (enableRerun : Bool) : List Plan → List ExecStep
  | [] => []
  | attempt :: attempts => buildStep enableRerun attempt :: buildRetryStep enableRerun attempts
end

/-- `engineBuild.finish`: the status a build's result records. -/
def finish (err : Option StepError) (succeeded : Bool) : Db.BuildStatus :=
  match err with
  | some err => if err.is .canceled then .aborted else .errored
  | none => if succeeded then .succeeded else .failed

/-- The end of `engineBuild.Run`: nothing, leaving the build to be run again, when the error
holds a `Retriable` and the build is not a check build; else the status `finish` records. -/
def buildStatus (isCheckBuild succeeded : Bool) (err : Option StepError) :
    Option Db.BuildStatus :=
  if !isCheckBuild && err.any (·.asRetriable) then none else some (finish err succeeded)

/-- The build's context: `context.WithCancel`, cancelled when the abort notifier fires. -/
def buildCtx (abortAt : Option Nat) : Ctx := ⟨abortAt, none⟩

/-- `engineBuild.Run` from the build's step on, started at `t`: the run of the plan's step and the
status the build ends with, if it ends. -/
def runBuild (w : World) (enableRerun isCheckBuild : Bool) (plan : Plan) (abortAt : Option Nat)
    (t : Nat) : RunResult × Option Db.BuildStatus :=
  let r := (buildStep enableRerun plan).run w (buildCtx abortAt) t
  (r, buildStatus isCheckBuild r.ok r.err)

variable {w : World}

/-- A build whose error `finish` takes for an abort finishes aborted. -/
theorem buildStatus_of_isAbort {isCheckBuild succeeded : Bool} {err : StepError}
    (h : err.IsAbort) : buildStatus isCheckBuild succeeded (some err) = some .aborted := by
  simp [buildStatus, finish, h.notRetriable, h.canceled]

/-- **An aborted build finishes aborted.**  When the world's steps return `ctx.Err()` once their
context is done, a build in which the abort reached a running step is recorded as aborted,
whatever plan it runs, whether or not steps are retried when their worker goes away. -/
theorem aborted_build_finishes_aborted (hw : w.Cooperative) (enableRerun isCheckBuild : Bool)
    (plan : Plan) (abortAt : Option Nat) (t : Nat)
    (h : (runBuild w enableRerun isCheckBuild plan abortAt t).1.SawCancel) :
    (runBuild w enableRerun isCheckBuild plan abortAt t).2 = some .aborted := by
  obtain ⟨err, herr, habort⟩ :=
    ExecStep.endsCanceled_of_sawCancel hw (buildStep enableRerun plan) (buildCtx abortAt) t h
  simp only [runBuild, herr]
  exact buildStatus_of_isAbort habort

/-- A world whose steps take two units of time and return `ctx.Err()` when their context is done
by then. -/
def cooperativeWorld : World where
  runStep _ ctx t :=
    match ctx.err (t + 2) with
    | some e => (2, false, some (.ofCtx e))
    | none => (2, true, none)
  parseDuration _ := .ok 10

theorem cooperativeWorld_cooperative : cooperativeWorld.Cooperative := by
  intro id ctx t e h
  simp only [cooperativeWorld] at h ⊢
  -- the step ran for two units of time whatever its context
  rcases hdone : ctx.err (t + 2) with _ | e'
  · simp only [hdone] at h
    cases h
  · simp only [hdone, Option.some.injEq] at h ⊢
    rw [h]

/-- A plan whose task is tried and followed by a cleanup hook. -/
def triedTaskPlan : Plan :=
  .ensure (.num 0) (.tryPlan (.num 3) (.task (.num 1) "unit" [])) (.task (.num 2) "cleanup" [])

/-- Aborted while its task runs, the build finishes aborted, the try step notwithstanding. -/
theorem aborted_build_finishes_aborted_triedTask :
    cooperativeWorld.Cooperative ∧
      (runBuild cooperativeWorld true false triedTaskPlan (some 1) 0).1.SawCancel ∧
      (runBuild cooperativeWorld true false triedTaskPlan (some 1) 0).2 = some .aborted :=
  ⟨cooperativeWorld_cooperative, by decide,
    aborted_build_finishes_aborted cooperativeWorld_cooperative true false triedTaskPlan (some 1) 0
      (by decide)⟩

/-- **A build whose steps all succeed succeeds along its success path.**  With no abort, when
each step succeeds while its context is live, a build of a plan whose timeouts parse to positive
durations and whose retries have attempts finishes succeeded, having run exactly the steps of its
step's `successPath`. -/
theorem build_succeeds_along_successPath (hw : w.Succeeds) (enableRerun isCheckBuild : Bool)
    (plan : Plan) (hv : (buildStep enableRerun plan).valid w = true) (t : Nat) :
    (runBuild w enableRerun isCheckBuild plan none t).2 = some .succeeded ∧
      (runBuild w enableRerun isCheckBuild plan none t).1.trace.map (·.id) =
        (buildStep enableRerun plan).successPath := by
  have hr := ExecStep.run_of_succeeds hw (buildStep enableRerun plan) hv (buildCtx none) t rfl
  refine ⟨?_, hr.path⟩
  simp [runBuild, buildStatus, finish, hr.err, hr.ok]

/-- A world whose steps take one unit of time, or none when their context is done by then, and
succeed. -/
def successWorld : World where
  runStep _ ctx t := if (ctx.err (t + 1)).isNone then (1, true, none) else (0, true, none)
  parseDuration _ := .ok 10

theorem successWorld_succeeds : successWorld.Succeeds := by
  intro id ctx t hlive
  simp only [successWorld]
  split
  · rename_i h
    exact ⟨rfl, Option.isNone_iff_eq_none.mp h⟩
  · exact ⟨rfl, hlive⟩

/-- A do plan of a timed-out task, a retried task and a task with an on_failure hook. -/
def pipelinePlan : Plan :=
  .doPlan (.num 0)
    [.timeout (.num 1) "1h" (.task (.num 2) "unit" []),
     .retry (.num 3) [.task (.num 4) "e2e" [], .task (.num 5) "e2e" []],
     .onFailure (.num 6) (.task (.num 7) "lint" []) (.task (.num 8) "alert" [])]

/-- The build succeeds having run tasks 2, 4 and 7: not the second attempt nor the hook. -/
theorem build_succeeds_along_successPath_pipeline :
    successWorld.Succeeds ∧ (buildStep true pipelinePlan).valid successWorld = true ∧
      (runBuild successWorld true false pipelinePlan none 0).2 = some .succeeded ∧
      (runBuild successWorld true false pipelinePlan none 0).1.trace.map (·.id) =
        [.num 2, .num 4, .num 7] :=
  ⟨successWorld_succeeds, rfl,
    build_succeeds_along_successPath successWorld_succeeds true false pipelinePlan rfl 0⟩

/-- **An on_error hook runs on every error but an abort, retriable ones included.**  When the
world's steps never return the zero `Retriable{}` (the code makes a `Retriable` only in
`RetryErrorStep`, with its cause), no run returns an error `errors.Is(err, Retriable{})` holds of
(`noZeroRetriable_run`), so the exemption `OnErrorStep` makes for retriable errors never applies.
For every plan, when the step of an on_error plan fails with an error other than an abort, the
hook runs after it, under `context.Background()`; and when that error holds a `Retriable`, the
engine leaves the build running, to be run again, where the hook will run again. -/
theorem onError_hook_runs_on_retriable (hw : w.NoZeroRetriable) (enableRerun : Bool)
    (id : PlanID) (plan next : Plan) (abortAt : Option Nat) (t : Nat) (err : StepError)
    (herr : ((buildStep enableRerun plan).run w (buildCtx abortAt) t).err = some err)
    (hnotAbort : err.is .canceled = false) :
    (runBuild w enableRerun false (.onError id plan next) abortAt t).1.trace =
        ((buildStep enableRerun plan).run w (buildCtx abortAt) t).trace ++
          ((buildStep enableRerun next).run w .background
            ((buildStep enableRerun plan).run w (buildCtx abortAt) t).time).trace ∧
      (err.asRetriable = true →
        (runBuild w enableRerun false (.onError id plan next) abortAt t).2 = none) := by
  have hzero : err.is (.retriable none) = false :=
    ExecStep.noZeroRetriable_run hw (buildStep enableRerun plan) (buildCtx abortAt) t err herr
  simp only [runBuild, buildStep, ExecStep.run_onError, herr, hnotAbort, hzero, Bool.or_false,
    Bool.not_false, ↓reduceIte, RunResult.trace_after]
  refine ⟨trivial, fun hretriable => ?_⟩
  -- the multierror `OnErrorStep` returns holds the step's error, whatever the hook returned
  split <;> simp [buildStatus, StepError.asRetriable_multierrorAppend, hretriable]

/-- A world whose first task loses its worker: the worker client's `worker w1 disappeared
while trying to reach it`. -/
def workerLostWorld : World where
  runStep id _ _ := if id = .num 1 then (3, false, some (.workerMissing "w1")) else (1, true, none)
  parseDuration _ := .ok 10

theorem workerLostWorld_noZeroRetriable : workerLostWorld.NoZeroRetriable := by
  intro id ctx t err h
  simp only [workerLostWorld] at h
  split at h
  · cases h
    rfl
  · cases h

/-- A task with an on_error hook that notifies. -/
def notifiedTaskPlan : Plan :=
  .onError (.num 0) (.task (.num 1) "unit" []) (.task (.num 2) "notify" [])

/-- The task loses its worker, which `RetryErrorStep` marks retriable: the notification runs,
and the build is left to run again. -/
theorem onError_hook_runs_on_retriable_workerLost :
    workerLostWorld.NoZeroRetriable ∧
      ((buildStep true (.task (.num 1) "unit" [])).run workerLostWorld (buildCtx none) 0).err =
        some (.retriable (some (.workerMissing "w1"))) ∧
      (runBuild workerLostWorld true false notifiedTaskPlan none 0).1.trace.map (·.id) =
        [.num 1, .num 2] ∧
      (runBuild workerLostWorld true false notifiedTaskPlan none 0).2 = none := by
  have h := onError_hook_runs_on_retriable workerLostWorld_noZeroRetriable true (.num 0)
    (.task (.num 1) "unit" []) (.task (.num 2) "notify" []) none 0
    (.retriable (some (.workerMissing "w1"))) rfl rfl
  exact ⟨workerLostWorld_noZeroRetriable, rfl, by rw [notifiedTaskPlan, h.1]; rfl, h.2 rfl⟩

end Engine
end Concourse
