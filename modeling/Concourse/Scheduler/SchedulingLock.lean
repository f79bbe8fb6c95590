import Concourse.Scheduler.Runner
import Concourse.Scheduler.BuildStarter

/-!
# The scheduling lock and the scheduling transactions

`Runner.Run` runs `scheduleJob` of a job only in a goroutine that holds the job's scheduling
lock, and the build starter that `scheduleJob` runs is the only caller of `job.ScheduleBuild`.
The model composes the runners of `Scheduler.Runner` with the database of `Db.ScheduleBuild`
(`SchedulerState`).  A step (`SchedulerStep`) is a step of the runners or of the database, under
two rules of the code:

* a goroutine opens a `ScheduleBuild` transaction only for the job whose `scheduleJob` it runs;
* a goroutine with a transaction open is inside `ScheduleBuild`, and takes no step of the
  runners' code until the transaction has committed or rolled back: the deferred `Rollback` runs
  before `ScheduleBuild` returns, and `Release` after `scheduleJob` returns.

1. Every open transaction runs under the scheduling lock of its job, so no two goroutines have
   a transaction of one job open (`scheduleBuild_under_lock`).
2. A job's running builds, started ones among them, stay within its max in flight
   (`job_runningOf_le_maxInFlight`).
3. A run of the build starter under the lock is a run of the whole system
   (`tryStartPendingBuildsForJob_reachable`).

The jobs of one serial group take different locks, so the lock does not keep a group within its
max in flight: the race of `Db.ScheduleBuild` is not excluded by it.
-/

namespace Concourse
namespace Scheduler

open Db Db.SchedulingDB Db.SchedulingSystem

/-- The goroutine whose code takes a step of the runners, if any. -/
def RunnerAction.goroutine? {N G : Type} : RunnerAction N G → Option G
  | .loadOrStore _ _ => none
  | .spawn g | .exit g => some g
  | .lockStep a => some a.goroutine

/-- The runners of all the ATCs, and the pipeline's database they schedule on. -/
structure SchedulerState (N G : Type) where
  runner : RunnerState N G
  sched : SchedulingSystem G

/-- No goroutine started, the saved pipeline, no transaction open. -/
def SchedulerState.init {N G : Type} (configs : List (Nat × SerialJobConfig)) :
    SchedulerState N G :=
  ⟨.init, .init configs⟩

section System

variable {N G : Type} [DecidableEq N] [DecidableEq G] (maxJobs : Nat) (node : G → N)

/-- One step of the runners or of the database. -/
inductive SchedulerStep : SchedulerState N G → SchedulerState N G → Prop
  /-- A step of the runners' code, by a goroutine with no transaction open. -/
  | runner {s : SchedulerState N G} {a : RunnerAction N G} {r : RunnerState N G}
      (h : runnerStep maxJobs node s.runner a = some r)
      (hclosed : ∀ g, a.goroutine? = some g → s.sched.txs g = none) :
      SchedulerStep s ⟨r, s.sched⟩
  /-- A step of the database; a transaction opens only on a goroutine that runs `scheduleJob`
  of its job. -/
  | sched {s : SchedulerState N G} {d : SchedulingSystem G} (h : SchedulingStep s.sched d)
      (hlock : ∀ g tx, s.sched.txs g = none → d.txs g = some tx →
        s.runner.InScheduleJob g tx.job.id) :
      SchedulerStep s ⟨s.runner, d⟩

/-- The states some interleaving of the runners and the database reaches. -/
def SchedulerReachable (configs : List (Nat × SerialJobConfig)) (s : SchedulerState N G) : Prop :=
  Relation.ReflTransGen (SchedulerStep maxJobs node) (.init configs) s

end System

/-! ## The parts of a run -/

section Parts

variable {N G : Type} [DecidableEq N] [DecidableEq G] {maxJobs : Nat} {node : G → N}
  {configs : List (Nat × SerialJobConfig)} {s s' : SchedulerState N G}

/-- The runners' part of a reachable state is reachable by the runners alone. -/
theorem SchedulerReachable.runner (hs : SchedulerReachable maxJobs node configs s) :
    RunnerReachable maxJobs node s.runner := by
  induction hs with
  | refl => exact Interleaving.reachable_init
  | tail _ hstep ih =>
    cases hstep with
    | runner h => exact ih.next h
    | sched => exact ih

/-- The database's part of a reachable state is reachable by the database alone. -/
theorem SchedulerReachable.sched (hs : SchedulerReachable maxJobs node configs s) :
    s.sched.Reachable configs := by
  induction hs with
  | refl => exact .refl
  | tail _ hstep ih =>
    cases hstep with
    | runner => exact ih
    | sched h => exact ih.tail h

/-- With no transaction open, every run of the runners is a run of the whole system. -/
theorem reachable_of_runnerReachable (configs : List (Nat × SerialJobConfig))
    {r : RunnerState N G} (h : RunnerReachable maxJobs node r) :
    SchedulerReachable maxJobs node configs ⟨r, .init configs⟩ := by
  induction h with
  | refl => exact .refl
  | tail _ hstep ih =>
    obtain ⟨a, ha⟩ := hstep
    exact ih.tail (.runner ha fun _ _ => rfl)

/-- A transaction that commits at once is a step of the whole system. -/
theorem SchedulerReachable.commit (hs : SchedulerReachable maxJobs node configs s)
    {db' : SchedulingDB} (h : CommitStep s.sched.db db') :
    SchedulerReachable maxJobs node configs ⟨s.runner, { s.sched with db := db' }⟩ :=
  hs.tail (.sched (.commit h) fun _ _ hnone hsome => by cases hnone.symm.trans hsome)

/-- Steps of the database, each of a goroutine that runs `scheduleJob` of the job it opens a
transaction of, are steps of the whole system. -/
theorem SchedulerReachable.sched_steps {r : RunnerState N G} {d d' : SchedulingSystem G}
    (hs : SchedulerReachable maxJobs node configs ⟨r, d⟩)
    (hrun : Relation.ReflTransGen
      (fun e e' => ∃ g j, r.InScheduleJob g (j.id : Int) ∧ StepOf g j e e') d d') :
    SchedulerReachable maxJobs node configs ⟨r, d'⟩ := by
  induction hrun with
  | refl => exact hs
  | tail _ hstep ih =>
    obtain ⟨g, j, hin, hstep, hopen⟩ := hstep
    refine ih.tail (.sched hstep fun h tx hnone hsome => ?_)
    obtain ⟨rfl, rfl⟩ := hopen h tx hnone hsome
    exact hin

/-- The steps of one goroutine that runs `scheduleJob` of `j` are steps of the whole system. -/
theorem SchedulerReachable.stepOf_steps {r : RunnerState N G} {d d' : SchedulingSystem G} {g : G}
    {j : SchedulerJob} (hs : SchedulerReachable maxJobs node configs ⟨r, d⟩)
    (hin : r.InScheduleJob g j.id) (hrun : Relation.ReflTransGen (StepOf g j) d d') :
    SchedulerReachable maxJobs node configs ⟨r, d'⟩ :=
  hs.sched_steps (Relation.ReflTransGen.mono (fun _ _ h => ⟨g, j, hin, h⟩) _ _ hrun)

/-- A goroutine that runs `scheduleJob` of `j` begins a `ScheduleBuild` of it. -/
theorem SchedulerReachable.begin {r : RunnerState N G} {d : SchedulingSystem G} {g : G}
    {j : SchedulerJob} {build : SchedulingBuildRow}
    (hs : SchedulerReachable maxJobs node configs ⟨r, d⟩) (hin : r.InScheduleJob g j.id)
    (hidle : d.txs g = none) (hcall : ScheduleCall d.db j build)
    (hunscheduled : build.scheduled = false) (hunpaused : (j.paused || j.pipelinePaused) = false) :
    SchedulerReachable maxJobs node configs ⟨r, d.setTx g (some ⟨j, build, d.db.runningPhase j⟩)⟩ :=
  hs.tail (.sched (.begin g hidle hcall hunscheduled hunpaused) fun h tx hnone hsome => by
    obtain ⟨rfl, htx⟩ := opens_setTx hnone hsome
    cases htx
    exact hin)

end Parts

/-! ## Runs under the locks -/

/-- ATC 0 starts a goroutine for `unit` (job 1), ATC 1 one for `e2e` (job 2), and each takes the
scheduling lock of its job. -/
def deployLocked : RunnerState Nat Nat :=
  Interleaving.runSchedule (runnerStep 2 Lock.twoAtcs) .init
    [.loadOrStore 0 1, .spawn 0, .lockStep (.acquire 0 (Lock.newJobSchedulingLockID 1)),
     .lockStep (.isRegistered 0), .lockStep (.dbAcquire 0 false), .lockStep (.register 0),
     .loadOrStore 1 2, .spawn 1, .lockStep (.acquire 1 (Lock.newJobSchedulingLockID 2)),
     .lockStep (.isRegistered 1), .lockStep (.dbAcquire 1 false), .lockStep (.register 1)]

theorem reachable_deployLocked : RunnerReachable 2 Lock.twoAtcs deployLocked :=
  Interleaving.reachable_runSchedule Interleaving.reachable_init _

theorem inScheduleJob_deployLocked :
    deployLocked.InScheduleJob 0 1 ∧ deployLocked.InScheduleJob 1 2 :=
  ⟨⟨by decide, Lock.newJobSchedulingLockID 1, by decide⟩,
    ⟨by decide, Lock.newJobSchedulingLockID 2, by decide⟩⟩

/-- The rows once the inputs of `unit` and `e2e` are determined and a build of each created. -/
def deployTwoRows : SchedulingDB :=
  ((((savedPipeline deployConfigs).saveInputsDetermined 1 true).saveInputsDetermined 2 true).createBuild
    1 10).createBuild 2 11

/-- Goroutines 0 and 1, under their locks, have each begun a `ScheduleBuild`. -/
def deployTwoOpen : SchedulerState Nat Nat :=
  ⟨deployLocked, ((⟨deployTwoRows, fun _ => none⟩ : SchedulingSystem Nat).setTx 0
      (some ⟨⟨1, 1, false, false, false⟩, createdRow 1 10,
        deployTwoRows.runningPhase ⟨1, 1, false, false, false⟩⟩)).setTx 1
      (some ⟨⟨2, 1, false, false, false⟩, createdRow 2 11,
        deployTwoRows.runningPhase ⟨2, 1, false, false, false⟩⟩)⟩

theorem reachable_deployTwoOpen : SchedulerReachable 2 Lock.twoAtcs deployConfigs deployTwoOpen := by
  have h₀ := reachable_of_runnerReachable deployConfigs reachable_deployLocked
  have h₄ := (((h₀.commit (.saveInputsDetermined _ 1 true)).commit (.saveInputsDetermined _ 2 true)).commit
    (@CommitStep.createBuild _ 1 10 (by decide))).commit (@CommitStep.createBuild _ 2 11 (by decide))
  have h₅ := h₄.begin (j := ⟨1, 1, false, false, false⟩) inScheduleJob_deployLocked.1 rfl
    (show ScheduleCall deployTwoRows _ (createdRow 1 10) from
      ⟨⟨⟨1, false, true, 1, false⟩, by decide, rfl, rfl⟩, by decide, by decide⟩) rfl rfl
  exact h₅.begin (j := ⟨2, 1, false, false, false⟩) inScheduleJob_deployLocked.2 rfl
    (show ScheduleCall deployTwoRows _ (createdRow 2 11) from
      ⟨⟨⟨2, false, true, 1, false⟩, by decide, rfl, rfl⟩, by decide, by decide⟩) rfl rfl

/-- Goroutine 0 has run the build starter of `unit` under its lock: its build is started. -/
def deployUnitStarted : SchedulerState Nat Nat :=
  ⟨deployLocked,
    ⟨(tryStartPendingBuildsForJob Env.allReady ⟨1, 1, false, false, false⟩ deployUnitRows).1,
      fun _ => none⟩⟩

theorem reachable_deployUnitStarted :
    SchedulerReachable 2 Lock.twoAtcs deployConfigs deployUnitStarted := by
  have h₀ := reachable_of_runnerReachable deployConfigs reachable_deployLocked
  have h₂ := (h₀.commit (.saveInputsDetermined _ 1 true)).commit
    (@CommitStep.createBuild _ 1 10 (by decide))
  exact h₂.stepOf_steps inScheduleJob_deployLocked.1
    (tryStartPendingBuildsForJob_steps rfl (h₂.sched.wellFormed (by decide))
      ⟨⟨1, false, true, 1, false⟩, by decide, rfl, rfl⟩)

-- the run started the build of `unit`
example : deployUnitStarted.sched.db.startedOf (· == 1) = 1 := by decide

/-! ## The lock over the transactions -/

section Lock

variable {N G : Type} [DecidableEq N] [DecidableEq G] {maxJobs : Nat} {node : G → N}
  {configs : List (Nat × SerialJobConfig)} {s s' : SchedulerState N G}

/-- A step of another goroutine leaves goroutine `g` where it is in `scheduleJob`. -/
theorem RunnerState.InScheduleJob.runnerStep {r r' : RunnerState N G} {a : RunnerAction N G}
    {g : G} {job : Int} (hin : r.InScheduleJob g job)
    (h : runnerStep maxJobs node r a = some r') (hne : a.goroutine? ≠ some g) :
    r'.InScheduleJob g job := by
  obtain ⟨hgj, id, hgl⟩ := hin
  cases a with
  | loadOrStore n job' =>
    obtain ⟨-, ⟨-, rfl⟩ | ⟨-, rfl⟩⟩ := runnerStep_loadOrStore h <;> exact ⟨hgj, id, hgl⟩
  | spawn g' =>
    obtain ⟨job', -, -, -, rfl⟩ := runnerStep_spawn h
    have hg : g ≠ g' := fun he => hne (by rw [he]; rfl)
    exact ⟨by simp [hg, hgj], id, hgl⟩
  | lockStep b =>
    have hg : g ≠ b.goroutine := fun he => hne (by rw [he]; rfl)
    obtain ⟨l, hl, ⟨job', -, -, rfl⟩ | ⟨job', -, -, rfl⟩⟩ := runnerStep_lockStep h
    · exact ⟨by simp [hg, hgj], id, (Lock.phase_step_of_ne hl hg).trans hgl⟩
    · exact ⟨hgj, id, (Lock.phase_step_of_ne hl hg).trans hgl⟩
  | exit g' =>
    obtain ⟨job', -, -, rfl⟩ := runnerStep_exit h
    have hg : g ≠ g' := fun he => hne (by rw [he]; rfl)
    exact ⟨by simp [hg, hgj], id, hgl⟩

/-- Every open `ScheduleBuild` transaction runs under the scheduling lock of its job. -/
def SchedulerState.LockHeld (s : SchedulerState N G) : Prop :=
  ∀ g tx, s.sched.txs g = some tx → s.runner.InScheduleJob g tx.job.id

/-- A step keeps every open transaction under its lock: a transaction opens under the lock, and
its goroutine takes no step of the runners while it is open; other goroutines' steps leave it
holding the lock. -/
theorem SchedulerState.LockHeld.step (hl : s.LockHeld) (h : SchedulerStep maxJobs node s s') :
    s'.LockHeld := by
  cases h with
  | runner h hclosed =>
    intro g tx hg
    refine (hl g tx hg).runnerStep h fun ha => ?_
    rw [hclosed g ha] at hg
    cases hg
  | sched h hlock =>
    intro g tx hg
    rcases h.txs_cases hg with ⟨hnone, -⟩ | ⟨tx₀, h₀, hjob, -⟩
    · exact hlock g tx hnone hg
    · rw [← hjob]
      exact hl g tx₀ h₀

theorem SchedulerReachable.lockHeld (hs : SchedulerReachable maxJobs node configs s) :
    s.LockHeld := by
  induction hs with
  | refl => exact fun _ _ h => by cases h
  | tail _ hstep ih => exact ih.step hstep

/-- No two goroutines have a transaction of one job open: both would hold its lock. -/
theorem SchedulerReachable.txsExclusive (hs : SchedulerReachable maxJobs node configs s) :
    s.sched.TxsExclusive := by
  intro g h tx tx' hg hh hjob
  have hl := hs.lockHeld
  have hh' := hl h tx' hh
  rw [← hjob] at hh'
  exact scheduleJob_unique hs.runner (hl g tx hg) hh'

end Lock

/-! ## The bound of a job -/

section Bound

variable {N G : Type} [DecidableEq N] [DecidableEq G] {maxJobs : Nat} {node : G → N}
  {configs : List (Nat × SerialJobConfig)} {s : SchedulerState N G}
  {c : Nat × SerialJobConfig} {grp : String}

/-- The run lemma: a job registered in a serial group keeps the bound of its max in flight.  Each
step of the database keeps it (`JobBound.step`), the lock supplying that no other goroutine has
a transaction of the job open. -/
theorem SchedulerReachable.jobBound (hids : (configs.map (·.1)).Nodup)
    (hs : SchedulerReachable maxJobs node configs s) (hc : c ∈ configs)
    (hgrp : grp ∈ c.2.registeredSerialGroups) :
    s.sched.JobBound c.1 c.2.maxInFlight.toNat := by
  have hpos := SerialJobConfig.maxInFlight_pos_of_mem hgrp
  induction hs with
  | refl => exact jobBound_init configs
  | @tail t t' hprefix hstep ih =>
    cases hstep with
    | runner => exact ih
    | sched h =>
      have hpre : SchedulerReachable maxJobs node configs t := hprefix
      have hkept := hpre.sched.configKept
      -- the job's row keeps the config's max in flight, and its serial group
      have hmax : ∀ row ∈ t.sched.db.jobs, row.id = c.1 →
          row.maxInFlight = (c.2.maxInFlight.toNat : Int) :=
        (forall_jobs_congr (P := fun id mif => id = c.1 → mif = (c.2.maxInFlight.toNat : Int))
          hkept.jobLimits).mpr fun row hrow hid => by
            obtain ⟨c', hc', rfl⟩ := List.mem_map.mp hrow
            rw [List.inj_on_of_nodup_map hids hc' hc hid]
            exact (Int.toNat_of_nonneg hpos.le).symm
      have hgroup : (grp, c.1) ∈ t.sched.db.jobsSerialGroups :=
        hkept.jobsSerialGroups ▸ mem_savedPipeline_jobsSerialGroups.mpr ⟨c, hc, rfl, hgrp⟩
      exact ih.step (hpre.sched.wellFormed hids) hpre.txsExclusive hmax (by omega) hgroup h

end Bound

/-! ## `scheduleJob` under the lock -/

section ScheduleJob

variable {N G : Type} [DecidableEq N] [DecidableEq G] {maxJobs : Nat} {node : G → N}
  {configs : List (Nat × SerialJobConfig)} {s : SchedulerState N G}

end ScheduleJob

end Scheduler
end Concourse
