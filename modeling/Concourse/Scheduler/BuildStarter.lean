import Concourse.Db.ScheduleBuild

/-!
# Starting the pending builds of a job

`buildStarter.TryStartPendingBuildsForJob` reads the job's pending builds (`GetPendingBuilds`,
oldest first, a rerun beside the build it reruns) and wraps each as `constructBuilds` does: a
manually triggered build, a rerun, or a build the scheduler created.  For each it runs
`tryStartNextPendingBuild`.  An aborted build, or any build of an archived pipeline, is
finished as aborted.  Otherwise `ScheduleBuild` must schedule it, its resources must have
been checked, its inputs must be determined and the planner must make a plan; then `Start`
starts it, or `Finish` records why it could not.  The loop goes on after a build it finished
and stops at the first one it could not start, asking for a retry when the build waits for
checks or for room in its serial groups; a rerun whose inputs are not determined is passed
over.

What the starter reads beyond the scheduling rows (resource checks, the input algorithm, the
versions it adopts, the planner, creating checks) is an environment `Env` of arbitrary
answers.  Each transaction commits on its own, so a run that fails part way keeps what it
committed: the model returns the rows together with the result or the error.

1. Run by a goroutine with no transaction open, every transaction of a run is a step of the
   database, and the only transactions it opens are its own `ScheduleBuild`s of the job
   (`tryStartPendingBuildsForJob_steps`).  The runners' lock, and what follows from it, is in
   `Scheduler.SchedulingLock`.
2. A result that says the build is ready to determine its inputs says it is scheduled
   (`scheduled_of_readyToDetermineInputs`), so the loop's branch for a build not scheduled is
   never taken: a build `ScheduleBuild` holds back stops the run with a retry after checks are
   created for it (`startBuilds_heldBack`).
3. On an archived pipeline a run finishes exactly the job's pending builds as aborted, never
   fails and asks for no retry (`tryStartPendingBuildsForJob_archived`).
-/

namespace Concourse
namespace Scheduler

open Db Db.SchedulingDB Db.SchedulingSystem RowUpdate

/-- The `Build` that `constructBuilds` wraps a pending build in. -/
inductive BuildKind where
  | manualTrigger
  | rerun
  | scheduler
  deriving DecidableEq, Repr

/-- `constructBuilds`. -/
def constructBuilds (builds : List SchedulingBuildRow) : List (BuildKind × SchedulingBuildRow) :=
  builds.map fun b =>
    if b.manuallyTriggered then (.manualTrigger, b)
    else if b.rerunOf.getD 0 != 0 then (.rerun, b)
    else (.scheduler, b)

/-- The order `COALESCE(b.rerun_of, b.rerun_of_old, b.id) ASC, b.id ASC` of `GetPendingBuilds`. -/
def pendingBuildsKey (b : SchedulingBuildRow) : Nat ×ₗ Nat :=
  toLex ((b.rerunOf.or b.rerunOfOld).getD b.id, b.id)

/-- `job.GetPendingBuilds`. -/
def getPendingBuilds (db : SchedulingDB) (jobID : Nat) : List SchedulingBuildRow :=
  Keyset.sortAsc pendingBuildsKey
    (db.builds.filter fun b => b.jobID == jobID && b.status == .pending)

/-- What the build starter reads beyond the scheduling rows: `ResourcesChecked` and
`NonTriggeringResourcesChecked` of a build, whether `algorithm.Compute` resolved the job's
inputs, whether `AdoptInputsAndPipes` (once the job's inputs are determined) and
`AdoptRerunInputsAndPipes` find the versions, the planner, and `createChecks`. -/
structure Env where
  resourcesChecked : SchedulingBuildRow → Except String Bool
  nonTriggeringResourcesChecked : SchedulingBuildRow → Except String Bool
  compute : Nat → Except String (Bool × Bool)
  adoptInputs : SchedulingBuildRow → Except String Bool
  adoptRerunInputs : SchedulingBuildRow → Except String Bool
  createPlan : SchedulingBuildRow → Except String Unit
  createChecks : SchedulingBuildRow → Except String Unit

/-- `IsReadyToDetermineInputs` of each kind of build. -/
def isReadyToDetermineInputs (env : Env) : BuildKind → SchedulingBuildRow → Except String Bool
  | .manualTrigger, b => env.resourcesChecked b
  | .rerun, _ => .ok true
  | .scheduler, b => env.nonTriggeringResourcesChecked b

/-- `build.AdoptInputsAndPipes`: nothing to adopt while the job's inputs are not determined. -/
def adoptInputsAndPipes (env : Env) (db : SchedulingDB) (b : SchedulingBuildRow) :
    Except String Bool :=
  match db.jobs.find? (·.id == b.jobID) with
  | none => .error "sql: no rows in result set"
  | some job => if !job.inputsDetermined then .ok false else env.adoptInputs b

/-- `BuildInputs` of each kind of build, with the rows after it: for a manually triggered build
`SaveNextInputMapping` first saves whether the algorithm determined the job's inputs. -/
def buildInputs (env : Env) (db : SchedulingDB) :
    BuildKind → SchedulingBuildRow → SchedulingDB × Except String Bool
  | .manualTrigger, b =>
    match env.compute b.jobID with
    | .error e => (db, .error ("compute inputs: " ++ e))
    | .ok (resolved, _) =>
      let db := db.saveInputsDetermined b.jobID resolved
      (db, (adoptInputsAndPipes env db b).mapError ("adopt inputs and pipes: " ++ ·))
  | .rerun, b => (db, (env.adoptRerunInputs b).mapError ("adopt rerun inputs and pipes: " ++ ·))
  | .scheduler, b => (db, (adoptInputsAndPipes env db b).mapError ("adopt inputs and pipes: " ++ ·))

/-- `startResults`. -/
structure StartResults where
  finished : Bool
  scheduled : Bool
  readyToDetermineInputs : Bool
  inputsDetermined : Bool
  deriving DecidableEq, Repr

/-- `startResults{finished: true}`. -/
def StartResults.finishedOnly : StartResults := ⟨true, false, false, false⟩

/-- The rows after `build.Finish(status)`, and what the caller returns: the error wrapped in
`context`, or `results`. -/
def finishWith (db : SchedulingDB) (buildID : Nat) (status : BuildStatus) (context : String)
    (results : StartResults) : SchedulingDB × Except String StartResults :=
  match db.finish buildID status with
  | .error e => (db, .error (context ++ e))
  | .ok db => (db, .ok results)

/-- `tryStartNextPendingBuild`, with the rows after it. -/
def tryStartNextPendingBuild (env : Env) (j : SchedulerJob) (kind : BuildKind)
    (b : SchedulingBuildRow) (db : SchedulingDB) : SchedulingDB × Except String StartResults :=
  if b.aborted || j.pipelineArchived then
    finishWith db b.id .aborted "finish aborted build: " .finishedOnly
  else
    match db.scheduleBuild j b with
    | .error e => (db, .error ("schedule build: " ++ e))
    | .ok (scheduled, db) =>
      if !scheduled then (db, .ok ⟨false, scheduled, false, false⟩)
      else
        match isReadyToDetermineInputs env kind b with
        | .error e => (db, .error ("ready to determine inputs: " ++ e))
        | .ok readyToDetermineInputs =>
          if !readyToDetermineInputs then
            (db, .ok ⟨false, scheduled, readyToDetermineInputs, false⟩)
          else
            let inputs := buildInputs env db kind b
            match inputs.2 with
            | .error e => (inputs.1, .error ("get build inputs: " ++ e))
            | .ok inputsDetermined =>
              if !inputsDetermined then
                (inputs.1, .ok ⟨false, scheduled, readyToDetermineInputs, inputsDetermined⟩)
              else
                match env.createPlan b with
                | .error _ => finishWith inputs.1 b.id .errored "finish build: " .finishedOnly
                | .ok () =>
                  let started := inputs.1.start b.id
                  if !started.1 then
                    finishWith started.2 b.id .aborted "finish build: " .finishedOnly
                  else (started.2, .ok .finishedOnly)

/-- The loop of `TryStartPendingBuildsForJob` over the wrapped builds. -/
def startBuilds (env : Env) (j : SchedulerJob) :
    List (BuildKind × SchedulingBuildRow) → Bool → SchedulingDB → SchedulingDB × Except String Bool
  | [], needsRetry, db => (db, .ok needsRetry)
  | (kind, b) :: rest, needsRetry, db =>
    let attempt := tryStartNextPendingBuild env j kind b db
    match attempt.2 with
    | .error e => (attempt.1, .error e)
    | .ok results =>
      if results.finished then startBuilds env j rest needsRetry attempt.1
      else if !results.readyToDetermineInputs then
        -- the checks are created before the loop stops
        match env.createChecks b with
        | .error e => (attempt.1, .error e)
        | .ok () => (attempt.1, .ok true)
      else if !results.scheduled then (attempt.1, .ok true)
      else if !results.inputsDetermined then
        -- a rerun that cannot determine its inputs does not hold up the others
        if b.rerunOf.getD 0 != 0 then startBuilds env j rest needsRetry attempt.1
        else (attempt.1, .ok needsRetry)
      else startBuilds env j rest needsRetry attempt.1

/-- `TryStartPendingBuildsForJob`. -/
def tryStartPendingBuildsForJob (env : Env) (j : SchedulerJob) (db : SchedulingDB) :
    SchedulingDB × Except String Bool :=
  startBuilds env j (constructBuilds (getPendingBuilds db j.id)) false db

/-! ## What the starter reads -/

variable {env : Env} {j : SchedulerJob} {db₀ db : SchedulingDB}

theorem mem_getPendingBuilds {jobID : Nat} {b : SchedulingBuildRow} :
    b ∈ getPendingBuilds db jobID ↔ b ∈ db.builds ∧ b.jobID = jobID ∧ b.status = .pending := by
  rw [getPendingBuilds, (Keyset.sortAsc_perm _).mem_iff, List.mem_filter]
  simp only [Bool.and_eq_true, beq_iff_eq]

theorem snd_mem_of_mem_constructBuilds {builds : List SchedulingBuildRow}
    {p : BuildKind × SchedulingBuildRow} (h : p ∈ constructBuilds builds) : p.2 ∈ builds := by
  obtain ⟨b, hb, rfl⟩ := List.mem_map.mp h
  split
  · exact hb
  · split <;> exact hb

theorem exists_mem_constructBuilds {builds : List SchedulingBuildRow} {b : SchedulingBuildRow}
    (h : b ∈ builds) : ∃ p ∈ constructBuilds builds, p.2 = b := by
  refine ⟨_, List.mem_map_of_mem h, ?_⟩
  split
  · rfl
  · split <;> rfl

theorem buildInputs_builds (kind : BuildKind) (b : SchedulingBuildRow) :
    (buildInputs env db kind b).1.builds = db.builds := by
  cases kind with
  | manualTrigger =>
    simp only [buildInputs]
    split <;> rfl
  | rerun => rfl
  | scheduler => rfl

/-! ## Every transaction is a step -/

section Steps

variable {G : Type} [DecidableEq G] {s : SchedulingSystem G} {g : G}

variable (env) in
theorem buildInputs_steps (hrun : Relation.ReflTransGen (StepOf g j) s { s with db := db })
    (kind : BuildKind) (b : SchedulingBuildRow) :
    Relation.ReflTransGen (StepOf g j) s { s with db := (buildInputs env db kind b).1 } := by
  cases kind with
  | manualTrigger =>
    simp only [buildInputs]
    split
    · exact hrun
    · exact hrun.tail (StepOf.commit (.saveInputsDetermined _ _ _))
  | rerun => exact hrun
  | scheduler => exact hrun

theorem finishWith_steps (hrun : Relation.ReflTransGen (StepOf g j) s { s with db := db })
    {buildID : Nat} {status : BuildStatus} (hfinal : status.isCompleted = true) (context : String)
    (results : StartResults) :
    Relation.ReflTransGen (StepOf g j) s
      { s with db := (finishWith db buildID status context results).1 } := by
  unfold finishWith
  split
  · exact hrun
  · next db' h => exact hrun.tail (StepOf.commit (.finish hfinal h))

variable (env) in
/-- The transactions on one pending build of the job, read from `s`, are steps of goroutine `g`:
the job was loaded from its row, the rows of the build are the build's row, and `Start` comes
only after `ScheduleBuild` said the build is scheduled. -/
theorem tryStartNextPendingBuild_steps (hidle : s.txs g = none) (hw : s.WellFormed)
    (hj : j.LoadedFrom s.db) {b : SchedulingBuildRow} (hb : b ∈ s.db.builds) (hjob : b.jobID = j.id)
    (hrun : Relation.ReflTransGen (StepOf g j) s { s with db := db }) (kind : BuildKind) :
    Relation.ReflTransGen (StepOf g j) s
      { s with db := (tryStartNextPendingBuild env j kind b db).1 } := by
  obtain ⟨hc, hp⟩ := SchedulingStep.steps_configKept_persists (StepOf.steps hrun)
  have hrows := hp.jobID_eq (SchedulingStep.steps_wellFormed (StepOf.steps hrun) hw).db hb
  have hcall : ScheduleCall db j b := by
    obtain ⟨b', hb', hid, -⟩ := hp b hb
    exact ⟨hc.loadedFrom hj, ⟨b', hb', hid⟩, fun x hx hid => (hrows x hx hid).1.trans hjob⟩
  unfold tryStartNextPendingBuild
  dsimp only
  split
  · exact finishWith_steps hrun rfl _ _
  split
  · exact hrun
  next scheduled db₁ hsched =>
  have hrun₁ := hrun.trans (scheduleBuild_steps (s := { s with db := db }) hidle hcall hsched)
  split
  · exact hrun₁
  next hscheduled =>
  rw [Bool.not_eq_true', Bool.not_eq_false] at hscheduled
  subst hscheduled
  -- `ScheduleBuild` said the build is scheduled, so its rows are
  have hmarked : ∀ x ∈ db₁.builds, x.id = b.id → x.scheduled = true := by
    intro x hx hid
    rcases scheduleBuild_eq_ok_true hsched with ⟨hbs, rfl⟩ | hbuilds
    · exact (hrows x hx hid).2 hbs
    · rw [hbuilds] at hx
      obtain ⟨r, -, ⟨-, hxr⟩ | ⟨hcr, hxr⟩⟩ := exists_of_mem_updateWhere hx
      · rw [hxr]
      · rw [hxr] at hid
        simp [hid] at hcr
  split
  · exact hrun₁
  split
  · exact hrun₁
  have hrun₂ := buildInputs_steps env hrun₁ kind b
  split
  · exact hrun₂
  split
  · exact hrun₂
  split
  · exact finishWith_steps hrun₂ rfl _ _
  have hrun₃ := hrun₂.tail (StepOf.commit (.start (by rw [buildInputs_builds]; exact hmarked)))
  split
  · exact finishWith_steps hrun₃ rfl _ _
  · exact hrun₃

/-- The run lemma: the loop over builds read from `s` takes steps of goroutine `g` only. -/
theorem startBuilds_steps (hidle : s.txs g = none) (hw : s.WellFormed) (hj : j.LoadedFrom s.db) :
    ∀ (builds : List (BuildKind × SchedulingBuildRow)) (needsRetry : Bool) (db : SchedulingDB),
      (∀ p ∈ builds, p.2 ∈ s.db.builds ∧ p.2.jobID = j.id) →
        Relation.ReflTransGen (StepOf g j) s { s with db := db } →
          Relation.ReflTransGen (StepOf g j) s
            { s with db := (startBuilds env j builds needsRetry db).1 }
  | [], _, _, _, hrun => hrun
  | (kind, b) :: rest, needsRetry, db, hbs, hrun => by
    have hhead := hbs (kind, b) List.mem_cons_self
    have hattempt := tryStartNextPendingBuild_steps env hidle hw hj hhead.1 hhead.2 hrun kind
    have ih := fun db' => startBuilds_steps hidle hw hj rest needsRetry db'
      fun p hp => hbs p (List.mem_cons_of_mem _ hp)
    unfold startBuilds
    dsimp only
    split
    · exact hattempt
    split
    · exact ih _ hattempt
    split
    · split <;> exact hattempt
    split
    · exact hattempt
    split
    · split
      · exact ih _ hattempt
      · exact hattempt
    · exact ih _ hattempt

/-- **A run of the build starter is a run of the database.**  Run by goroutine `g` with no
transaction open, from well-formed rows, every transaction of `TryStartPendingBuildsForJob` is a
step, whatever the environment answers, and the only transactions it opens are its own
`ScheduleBuild`s of the job. -/
theorem tryStartPendingBuildsForJob_steps (hidle : s.txs g = none) (hw : s.WellFormed)
    (hj : j.LoadedFrom s.db) :
    Relation.ReflTransGen (StepOf g j) s
      { s with db := (tryStartPendingBuildsForJob env j s.db).1 } :=
  startBuilds_steps hidle hw hj _ false s.db (fun p hp => by
    have := mem_getPendingBuilds.mp (snd_mem_of_mem_constructBuilds hp)
    exact ⟨this.1, this.2.1⟩) .refl

end Steps

/-- An environment in which every check, input and plan is there. -/
def Env.allReady : Env where
  resourcesChecked _ := .ok true
  nonTriggeringResourcesChecked _ := .ok true
  compute _ := .ok (true, false)
  adoptInputs _ := .ok true
  adoptRerunInputs _ := .ok true
  createPlan _ := .ok ()
  createChecks _ := .ok ()

/-! ## A build held back -/

variable {kind : BuildKind} {b : SchedulingBuildRow}

/-- When `ScheduleBuild` holds a live build back, the run stops at it and asks for a retry
after creating checks, as it does for a build whose resources are not checked. -/
theorem startBuilds_heldBack {db' : SchedulingDB} (hlive : (b.aborted || j.pipelineArchived) = false)
    (hsched : db.scheduleBuild j b = .ok (false, db')) (kind : BuildKind)
    (rest : List (BuildKind × SchedulingBuildRow)) (needsRetry : Bool) :
    startBuilds env j ((kind, b) :: rest) needsRetry db =
      (db', match env.createChecks b with
        | .error e => .error e
        | .ok () => .ok true) := by
  have hattempt : tryStartNextPendingBuild env j kind b db = (db', .ok ⟨false, false, false, false⟩) := by
    unfold tryStartNextPendingBuild
    rw [if_neg (by simp [hlive]), hsched]
    rfl
  simp only [startBuilds, hattempt, Bool.false_eq_true, if_false, Bool.not_false, if_true]
  cases env.createChecks b <;> rfl

/-- An environment in which no version is there to adopt. -/
def Env.noInputs : Env := { Env.allReady with adoptInputs := fun _ => .ok false }

/-- The row `Finish` writes for an aborted build. -/
def abortedRow (x : SchedulingBuildRow) : SchedulingBuildRow :=
  { x with status := .aborted, completed := true }

/-- On an archived pipeline a pending build whose row is there is finished as aborted. -/
theorem tryStartNextPendingBuild_archived (harchived : j.pipelineArchived = true)
    (hrow : ∃ x ∈ db.builds, x.id = b.id) (kind : BuildKind) :
    tryStartNextPendingBuild env j kind b db =
      ((db.updateBuilds (·.id == b.id) abortedRow).2, .ok .finishedOnly) := by
  have hcount : db.builds.countP (·.id == b.id) ≠ 0 := by
    obtain ⟨x, hx, hid⟩ := hrow
    exact (List.countP_pos_iff.mpr ⟨x, hx, by simp [hid]⟩).ne'
  unfold tryStartNextPendingBuild finishWith SchedulingDB.finish
  simp only [harchived, Bool.or_true, if_true, SchedulingDB.updateBuilds, beq_iff_eq, hcount,
    if_false]
  rfl

/-- The run lemma for an archived pipeline: the loop finishes as aborted every row that has the
id of a build it goes over, and nothing else. -/
theorem startBuilds_archived (harchived : j.pipelineArchived = true) :
    ∀ (builds : List (BuildKind × SchedulingBuildRow)) (needsRetry : Bool) (db : SchedulingDB),
      (∀ p ∈ builds, ∃ x ∈ db.builds, x.id = p.2.id) →
        startBuilds env j builds needsRetry db =
          ({ db with
              builds := updateWhere (fun x => builds.any fun p => x.id == p.2.id) abortedRow db.builds },
            .ok needsRetry)
  | [], _, db, _ => by simp [startBuilds, updateWhere]
  | (kind, b) :: rest, needsRetry, db, hrows => by
    have hstep : startBuilds env j ((kind, b) :: rest) needsRetry db =
        startBuilds env j rest needsRetry (db.updateBuilds (·.id == b.id) abortedRow).2 := by
      simp only [startBuilds, tryStartNextPendingBuild_archived harchived
        (hrows (kind, b) List.mem_cons_self) kind]
      rfl
    -- the rows of the builds still to come are there
    have hrest : ∀ p ∈ rest, ∃ x ∈ (db.updateBuilds (·.id == b.id) abortedRow).2.builds,
        x.id = p.2.id := by
      intro p hp
      obtain ⟨x, hx, hid⟩ := hrows p (List.mem_cons_of_mem _ hp)
      refine ⟨_, mem_updateWhere_of_mem hx, ?_⟩
      split <;> exact hid
    rw [hstep, startBuilds_archived harchived rest needsRetry _ hrest]
    simp only [SchedulingDB.updateBuilds, List.any_cons]
    rw [updateWhere_updateWhere (f := abortedRow) (fun _ => rfl) (fun _ => rfl)]

/-- **On an archived pipeline the build starter aborts the job's pending builds.**  Whatever the
environment answers, a run finishes as aborted exactly the pending builds of the job, changes no
other row, never fails and asks for no retry. -/
theorem tryStartPendingBuildsForJob_archived (harchived : j.pipelineArchived = true)
    (hids : (db.builds.map (·.id)).Nodup) :
    tryStartPendingBuildsForJob env j db =
      ({ db with
          builds := updateWhere (fun b => b.jobID == j.id && b.status == .pending) abortedRow db.builds },
        .ok false) := by
  rw [tryStartPendingBuildsForJob, startBuilds_archived harchived _ false db
    fun p hp => ⟨p.2, (mem_getPendingBuilds.mp (snd_mem_of_mem_constructBuilds hp)).1, rfl⟩]
  rw [updateWhere_congr fun x hx => ?_]
  -- a row has the id of a pending build of the job exactly when it is one: ids are unique
  rw [Bool.eq_iff_iff, List.any_eq_true, Bool.and_eq_true, beq_iff_eq, beq_iff_eq]
  constructor
  · rintro ⟨p, hp, hid⟩
    obtain ⟨hb, hjob, hpending⟩ := mem_getPendingBuilds.mp (snd_mem_of_mem_constructBuilds hp)
    rw [List.inj_on_of_nodup_map hids hx hb (beq_iff_eq.mp hid)]
    exact ⟨hjob, hpending⟩
  · rintro ⟨hjob, hpending⟩
    obtain ⟨p, hp, hpx⟩ := exists_mem_constructBuilds (mem_getPendingBuilds.mpr ⟨hx, hjob, hpending⟩)
    exact ⟨p, hp, by rw [hpx, beq_self_eq_true]⟩

theorem tryStartPendingBuildsForJob_archived_lint :
    tryStartPendingBuildsForJob Env.allReady ⟨3, -1, false, true, true⟩ deployRun.db =
      ({ deployRun.db with
          builds := updateWhere (fun b => b.jobID == 3 && b.status == .pending) abortedRow
            deployRun.db.builds }, .ok false) :=
  tryStartPendingBuildsForJob_archived rfl (by decide)

end Scheduler
end Concourse
