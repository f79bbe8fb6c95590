import Concourse.Db.SerialGroups

/-!
# `ScheduleBuild` as the database runs it

`job.ScheduleBuild` opens a transaction with `conn.Begin()`, at Postgres' default isolation, READ
COMMITTED: each statement reads the rows committed when it starts, and the transaction's writes
are seen by others once it commits.  `isMaxInFlightReached` reads twice, the running builds of
the job's serial groups first (`getRunningBuildsBySerialGroup`), then their next pending build
(`getNextPendingBuildBySerialGroup`).  The transaction then sets the job's
`max_in_flight_reached`, marks the build scheduled when the max in flight is not reached, and
commits.  Any other transaction may commit between two of these statements.

The model (`SchedulingSystem`) is the committed rows together with the `ScheduleBuild`
transaction each goroutine has open.  A step (`SchedulingStep`) is one of:

* a transaction that commits at once (`CommitStep`);
* the start of a `ScheduleBuild` with its first read;
* its second read;
* its updates together with its commit;
* a rollback.

The updates are applied at the commit, to the rows committed by then.  They write
`max_in_flight_reached` and `scheduled`, which no statement in between reads, and the row
locks they take only order them after other writes of the same rows.

1. Run with nothing in between, the steps of one call are `scheduleBuild`
   (`scheduleBuild_steps`).
2. A job's transactions keep its running builds within its max in flight
   (`JobBound.step`), so long as no two goroutines run `ScheduleBuild` for one job at once.  The
   runners' scheduling lock guarantees that (`Scheduler.SchedulingLock`).
3. The jobs of one serial group are not kept within it.  Two jobs of a group can each have a
   build scheduled and started (`serialGroup_race`): one job's transaction counts the running
   builds, the other job's build is scheduled and started, and the first transaction's second
   read then finds its own build next.
4. A job with a negative max in flight never has a build scheduled
   (`negative_maxInFlight_never_started`).
-/

namespace Concourse
namespace Db

open RowUpdate SchedulingDB

/-! ## The two reads of `isMaxInFlightReached` -/

/-- Where an open `ScheduleBuild` transaction is. -/
inductive ScheduleTxPhase
  /-- `getRunningBuildsBySerialGroup` found fewer running builds than the max in flight;
  `getNextPendingBuildBySerialGroup` is still to run. -/
  | counted
  /-- `isMaxInFlightReached` answered `reached`; the updates and the commit are still to run. -/
  | decided (reached : Bool)
  deriving DecidableEq, Repr

namespace SchedulingDB

variable (db : SchedulingDB)

/-- `isMaxInFlightReached` up to its first read, `getRunningBuildsBySerialGroup`, of the rows
`db`. -/
def runningPhase (j : SchedulerJob) : ScheduleTxPhase :=
  if j.maxInFlight == 0 then .decided false
  else if ((db.runningBuildsBySerialGroup (db.serialGroupsOf j.id)).length : Int) ≥ j.maxInFlight then
    .decided true
  else .counted

/-- The rest of `isMaxInFlightReached`, from its second read, `getNextPendingBuildBySerialGroup`,
of the rows `db`. -/
def nextPendingReached (j : SchedulerJob) (buildID : Nat) : Bool :=
  match db.nextPendingBuildBySerialGroup (db.serialGroupsOf j.id) with
  | none => true
  | some nextMostPendingBuild => nextMostPendingBuild.id != buildID

/-- The rows after the commit of `ScheduleBuild`'s updates, or the rows as they were when an
update failed and the transaction rolled back. -/
def commitSchedule (j : SchedulerJob) (build : SchedulingBuildRow) (reached : Bool) :
    SchedulingDB :=
  match db.scheduleBuildUpdates j build reached with
  | .ok (_, db') => db'
  | .error _ => db

/-- When both reads see the same rows, the two parts make `isMaxInFlightReached`. -/
theorem isMaxInFlightReached_eq (j : SchedulerJob) (buildID : Nat) :
    db.isMaxInFlightReached j buildID =
      match db.runningPhase j with
      | .decided reached => reached
      | .counted => db.nextPendingReached j buildID := by
  unfold isMaxInFlightReached runningPhase nextPendingReached
  by_cases hzero : (j.maxInFlight == 0) = true
  · simp only [hzero, ↓reduceIte]
  · by_cases hreached :
        ((db.runningBuildsBySerialGroup (db.serialGroupsOf j.id)).length : Int) ≥ j.maxInFlight
    · simp only [hzero, hreached, Bool.false_eq_true, ↓reduceIte]
    · -- one case per answer of the second read, so that the matches of both sides reduce
      rcases hnext : db.nextPendingBuildBySerialGroup (db.serialGroupsOf j.id) with _ | b <;>
      simp only [hzero, hreached, hnext, Bool.false_eq_true, ↓reduceIte]

variable {db} {j : SchedulerJob} {build : SchedulingBuildRow} {reached : Bool}

/-- A job with a max in flight whose groups run fewer builds than it is counted, and it runs at
most as many builds as its groups. -/
theorem runningOf_lt_of_runningPhase {m : Nat} {g : String}
    (hmax : j.maxInFlight = m) (hpos : 0 < m) (hg : (g, j.id) ∈ db.jobsSerialGroups)
    (hphase : db.runningPhase j ≠ .decided true) : db.runningOf (· == j.id) < m := by
  have hrunning : db.runningOf (· == j.id) ≤
      (db.runningBuildsBySerialGroup (db.serialGroupsOf j.id)).length :=
    runningOf_le_running (fun id hid => by rw [beq_iff_eq.mp hid]; exact hg)
      (mem_serialGroupsOf.mpr hg)
  unfold runningPhase at hphase
  have hzero : (j.maxInFlight == 0) = false := by simp [hmax]; omega
  rw [hzero, if_neg (by decide)] at hphase
  split at hphase
  · exact absurd rfl hphase
  · omega

/-- A negative max in flight is always reached. -/
theorem runningPhase_of_neg (hneg : j.maxInFlight < 0) : db.runningPhase j = .decided true := by
  have hzero : (j.maxInFlight == 0) = false := by simp; omega
  have hge : ((db.runningBuildsBySerialGroup (db.serialGroupsOf j.id)).length : Int) ≥
      j.maxInFlight := by omega
  simp only [runningPhase, hzero, Bool.false_eq_true, ↓reduceIte, hge]

theorem commitSchedule_cases (db : SchedulingDB) (j : SchedulerJob) (build : SchedulingBuildRow)
    (reached : Bool) :
    db.commitSchedule j build reached = db.scheduledRows j build reached ∨
      db.commitSchedule j build reached = db := by
  unfold commitSchedule
  split
  · next h => exact .inl (scheduleBuildUpdates_eq_ok h).2
  · exact .inr rfl

theorem commitSchedule_configKept : ConfigKept db (db.commitSchedule j build reached) := by
  rcases commitSchedule_cases db j build reached with h | h <;>
    rw [h]
  · exact scheduledRows_configKept
  · exact ConfigKept.refl db

theorem commitSchedule_persists : Persists db (db.commitSchedule j build reached) := by
  rcases commitSchedule_cases db j build reached with h | h <;>
    rw [h]
  · exact scheduledRows_persists
  · exact Persists.refl db

theorem WellFormed.commitSchedule (hw : db.WellFormed) :
    (db.commitSchedule j build reached).WellFormed := by
  rcases commitSchedule_cases db j build reached with h | h <;>
    rw [h]
  · exact hw.scheduledRows
  · exact hw

end SchedulingDB

/-! ## Transactions in flight -/

/-- An open `ScheduleBuild` transaction: the job and the build it was called with, and where it
is. -/
structure ScheduleTx where
  job : SchedulerJob
  build : SchedulingBuildRow
  phase : ScheduleTxPhase
  deriving DecidableEq, Repr

/-- How the scheduler calls `ScheduleBuild`: with a job it loaded from its row, and a build of
the job it read from the rows. -/
structure ScheduleCall (db : SchedulingDB) (j : SchedulerJob) (build : SchedulingBuildRow) :
    Prop where
  loaded : j.LoadedFrom db
  row : ∃ b ∈ db.builds, b.id = build.id
  jobID : ∀ b ∈ db.builds, b.id = build.id → b.jobID = j.id

/-- A call stays a call of the build's job while no row is lost or moved. -/
theorem ScheduleCall.of_persists {db db' : SchedulingDB} {j : SchedulerJob}
    {build : SchedulingBuildRow} (hcall : ScheduleCall db j build) (hc : ConfigKept db db')
    (hp : Persists db db') (hw' : db'.WellFormed) : ScheduleCall db' j build where
  loaded := hc.loadedFrom hcall.loaded
  row := by
    obtain ⟨b, hb, hid⟩ := hcall.row
    obtain ⟨b', hb', hid', -⟩ := hp b hb
    exact ⟨b', hb', hid'.trans hid⟩
  jobID x hx hid := by
    obtain ⟨b, hb, hbid⟩ := hcall.row
    rw [(hp.jobID_eq hw' hb x hx (hid.trans hbid.symm)).1]
    exact hcall.jobID b hb hbid

/-- The committed rows of the pipeline, and the `ScheduleBuild` transaction each goroutine has
open. -/
structure SchedulingSystem (G : Type) where
  db : SchedulingDB
  txs : G → Option ScheduleTx

namespace SchedulingSystem

variable {G : Type} [DecidableEq G]

/-- The saved pipeline, with no transaction open. -/
def init (configs : List (Nat × SerialJobConfig)) : SchedulingSystem G :=
  ⟨savedPipeline configs, fun _ => none⟩

/-- Goroutine `g`'s transaction is now `tx`. -/
def setTx (s : SchedulingSystem G) (g : G) (tx : Option ScheduleTx) : SchedulingSystem G :=
  { s with txs := Function.update s.txs g tx }

variable {s : SchedulingSystem G} {g h : G} {tx : Option ScheduleTx}

@[simp] theorem db_setTx : (s.setTx g tx).db = s.db := rfl

@[simp] theorem txs_setTx : (s.setTx g tx).txs h = if h = g then tx else s.txs h :=
  Function.update_apply _ _ _ _

@[simp] theorem txs_setTx_self : (s.setTx g tx).txs g = tx :=
  Function.update_self _ _ _

theorem setTx_setTx (tx' : Option ScheduleTx) : (s.setTx g tx).setTx g tx' = s.setTx g tx' := by
  simp [setTx, Function.update_idem]

theorem setTx_none (hidle : s.txs g = none) : s.setTx g none = s := by
  rw [setTx, ← hidle, Function.update_eq_self]

end SchedulingSystem

open SchedulingSystem

/-- One step of the pipeline's database. -/
inductive SchedulingStep {G : Type} [DecidableEq G] :
    SchedulingSystem G → SchedulingSystem G → Prop
  /-- A transaction that commits at once. -/
  | commit {s : SchedulingSystem G} {db' : SchedulingDB} (h : CommitStep s.db db') :
      SchedulingStep s { s with db := db' }
  /-- `ScheduleBuild` on goroutine `g`, past its early returns, opens its transaction, and
  `getRunningBuildsBySerialGroup` reads the committed rows. -/
  | begin {s : SchedulingSystem G} (g : G) {j : SchedulerJob} {build : SchedulingBuildRow}
      (hidle : s.txs g = none) (hcall : ScheduleCall s.db j build)
      (hunscheduled : build.scheduled = false) (hunpaused : (j.paused || j.pipelinePaused) = false) :
      SchedulingStep s (s.setTx g (some ⟨j, build, s.db.runningPhase j⟩))
  /-- `getNextPendingBuildBySerialGroup` reads the rows committed by then. -/
  | readNextPending {s : SchedulingSystem G} (g : G) {tx : ScheduleTx} (htx : s.txs g = some tx)
      (hcounted : tx.phase = .counted) :
      SchedulingStep s (s.setTx g
        (some { tx with phase := .decided (s.db.nextPendingReached tx.job tx.build.id) }))
  /-- The updates and `tx.Commit()`, on the rows committed by then. -/
  | commitSchedule {s : SchedulingSystem G} (g : G) {tx : ScheduleTx} (reached : Bool)
      (htx : s.txs g = some tx) (hdecided : tx.phase = .decided reached) :
      SchedulingStep s { s.setTx g none with db := s.db.commitSchedule tx.job tx.build reached }
  /-- The deferred `tx.Rollback()` after an error of the connection. -/
  | rollback {s : SchedulingSystem G} (g : G) {tx : ScheduleTx} (htx : s.txs g = some tx) :
      SchedulingStep s (s.setTx g none)

namespace SchedulingSystem

variable {G : Type} [DecidableEq G]

/-- The states the pipeline's database reaches from the saved config. -/
def Reachable (configs : List (Nat × SerialJobConfig)) (s : SchedulingSystem G) : Prop :=
  Relation.ReflTransGen SchedulingStep (init configs) s

/-- Every open transaction is a call of the scheduler on the committed rows, which are well
formed. -/
structure WellFormed (s : SchedulingSystem G) : Prop where
  db : s.db.WellFormed
  txs : ∀ g tx, s.txs g = some tx → ScheduleCall s.db tx.job tx.build

/-- No two goroutines have a `ScheduleBuild` transaction of one job open. -/
def TxsExclusive (s : SchedulingSystem G) : Prop :=
  ∀ g h tx tx', s.txs g = some tx → s.txs h = some tx' → tx.job.id = tx'.job.id → g = h

end SchedulingSystem

/-- The committed rows of a reachable state of the database, its goroutines numbered. -/
def SchedulingDB.Reachable (configs : List (Nat × SerialJobConfig)) (db : SchedulingDB) : Prop :=
  ∃ txs : Nat → Option ScheduleTx, SchedulingSystem.Reachable configs ⟨db, txs⟩

namespace SchedulingStep

variable {G : Type} [DecidableEq G] {s s' : SchedulingSystem G} {g : G} {tx : ScheduleTx}

/-- What a step does to goroutine `g`'s transaction: `begin` opens it on a call of the
scheduler, reading the rows, or it was open before with the same job and build. -/
theorem txs_cases (h : SchedulingStep s s') (hg : s'.txs g = some tx) :
    (s.txs g = none ∧ s'.db = s.db ∧ ScheduleCall s.db tx.job tx.build ∧
        tx.phase = s.db.runningPhase tx.job) ∨
      ∃ tx₀, s.txs g = some tx₀ ∧ tx₀.job = tx.job ∧ tx₀.build = tx.build := by
  cases h with
  | commit => exact .inr ⟨tx, hg, rfl, rfl⟩
  | begin g' hidle hcall =>
    rw [txs_setTx] at hg
    split at hg
    · next hgg =>
      cases hg
      exact .inl ⟨hgg ▸ hidle, rfl, hcall, rfl⟩
    · exact .inr ⟨tx, hg, rfl, rfl⟩
  | @readNextPending g' tx₀ htx =>
    rw [txs_setTx] at hg
    split at hg
    · next hgg =>
      cases hg
      exact .inr ⟨tx₀, hgg ▸ htx, rfl, rfl⟩
    · exact .inr ⟨tx, hg, rfl, rfl⟩
  | commitSchedule g' =>
    simp only [txs_setTx] at hg
    split at hg
    · cases hg
    · exact .inr ⟨tx, hg, rfl, rfl⟩
  | rollback g' =>
    rw [txs_setTx] at hg
    split at hg
    · cases hg
    · exact .inr ⟨tx, hg, rfl, rfl⟩

theorem configKept_persists (h : SchedulingStep s s') :
    ConfigKept s.db s'.db ∧ Persists s.db s'.db := by
  cases h with
  | commit h => exact ⟨h.kept.toConfigKept, h.persists⟩
  | commitSchedule => exact ⟨commitSchedule_configKept, commitSchedule_persists⟩
  | begin | readNextPending | rollback => exact ⟨ConfigKept.refl _, Persists.refl _⟩

theorem wellFormed (h : SchedulingStep s s') (hw : s.WellFormed) : s'.WellFormed := by
  obtain ⟨hc, hp⟩ := h.configKept_persists
  have hdb : s'.db.WellFormed := by
    cases h with
    | commit h => exact h.wellFormed hw.db
    | commitSchedule => exact hw.db.commitSchedule
    | begin | readNextPending | rollback => exact hw.db
  refine ⟨hdb, fun g tx hg => ?_⟩
  rcases h.txs_cases hg with ⟨-, hdb', hcall, -⟩ | ⟨tx₀, h₀, hjob, hbuild⟩
  · rw [hdb']
    exact hcall
  · rw [← hjob, ← hbuild]
    exact (hw.txs g tx₀ h₀).of_persists hc hp hdb

/-- What a run keeps, from any state. -/
theorem steps_configKept_persists (h : Relation.ReflTransGen SchedulingStep s s') :
    ConfigKept s.db s'.db ∧ Persists s.db s'.db := by
  induction h with
  | refl => exact ⟨ConfigKept.refl _, Persists.refl _⟩
  | tail _ hstep ih =>
    obtain ⟨hc, hp⟩ := hstep.configKept_persists
    exact ⟨ih.1.trans hc, ih.2.trans hp⟩

theorem steps_wellFormed (h : Relation.ReflTransGen SchedulingStep s s') (hw : s.WellFormed) :
    s'.WellFormed := by
  induction h with
  | refl => exact hw
  | tail _ hstep ih => exact hstep.wellFormed ih

end SchedulingStep

namespace SchedulingSystem

variable {G : Type} [DecidableEq G] {configs : List (Nat × SerialJobConfig)}
  {s : SchedulingSystem G}

omit [DecidableEq G] in
theorem wellFormed_init (hids : (configs.map (·.1)).Nodup) :
    (init configs : SchedulingSystem G).WellFormed :=
  ⟨wellFormed_savedPipeline hids, fun _ _ h => by cases h⟩

/-- The run lemma: every reachable state is well formed. -/
theorem Reachable.wellFormed (hids : (configs.map (·.1)).Nodup) (h : s.Reachable configs) :
    s.WellFormed :=
  SchedulingStep.steps_wellFormed h (wellFormed_init hids)

theorem Reachable.configKept (h : s.Reachable configs) : ConfigKept (savedPipeline configs) s.db :=
  (SchedulingStep.steps_configKept_persists h).1

/-! ## The steps of one goroutine -/

variable {g : G} {j : SchedulerJob} {s' : SchedulingSystem G}

/-- A step in which a transaction that opens is goroutine `g`'s, of the job `j`: what a goroutine
running the build starter of `j` takes, and the transactions that commit at once. -/
def StepOf (g : G) (j : SchedulerJob) (s s' : SchedulingSystem G) : Prop :=
  SchedulingStep s s' ∧ ∀ h tx, s.txs h = none → s'.txs h = some tx → h = g ∧ tx.job = j

theorem StepOf.steps (h : Relation.ReflTransGen (StepOf g j) s s') :
    Relation.ReflTransGen SchedulingStep s s' :=
  Relation.ReflTransGen.mono (fun _ _ hs => hs.1) _ _ h

theorem StepOf.commit {db' : SchedulingDB} (h : CommitStep s.db db') :
    StepOf g j s { s with db := db' } :=
  ⟨.commit h, fun _ _ hnone hsome => by cases hnone.symm.trans hsome⟩

/-- A goroutine whose transaction the step sets had none before only if it is `g`. -/
theorem opens_setTx {x : Option ScheduleTx} {h : G} {tx : ScheduleTx} (hnone : s.txs h = none)
    (hsome : (s.setTx g x).txs h = some tx) : h = g ∧ x = some tx := by
  rw [txs_setTx] at hsome
  split at hsome
  · exact ⟨‹_›, hsome⟩
  · rw [hnone] at hsome
    cases hsome

/-! ## A call run alone -/

variable {build : SchedulingBuildRow} {scheduled : Bool} {db' : SchedulingDB}

/-- **`ScheduleBuild` run alone.**  With nothing committed between its statements, the steps of a
call on goroutine `g` reach the rows `scheduleBuild` returns, and close the transaction. -/
theorem scheduleBuild_steps (hidle : s.txs g = none) (hcall : ScheduleCall s.db j build)
    (h : s.db.scheduleBuild j build = .ok (scheduled, db')) :
    Relation.ReflTransGen (StepOf g j) s { s with db := db' } := by
  rcases scheduleBuild_eq_ok h with ⟨-, -, rfl⟩ | ⟨-, -, -, rfl⟩ | ⟨hunscheduled, hunpaused, hup⟩
  · exact .refl
  · exact .refl
  -- the transaction opens, reads once or twice, and commits what the call returns
  let tx₁ : ScheduleTx := ⟨j, build, s.db.runningPhase j⟩
  have hbegin : StepOf g j s (s.setTx g (some tx₁)) := by
    refine ⟨SchedulingStep.begin g hidle hcall hunscheduled hunpaused, fun h tx hnone hsome => ?_⟩
    obtain ⟨rfl, htx⟩ := opens_setTx hnone hsome
    cases htx
    exact ⟨rfl, rfl⟩
  have hopen : (s.setTx g (some tx₁)).txs g = some tx₁ := by simp
  -- past `begin`, goroutine `g`'s transaction is open, so no step opens one
  have hnone : ∀ x h tx, (s.setTx g (some tx₁)).txs h = none →
      ((s.setTx g (some tx₁)).setTx g x).txs h = some tx → h = g ∧ tx.job = j := by
    intro x h tx hnone hsome
    obtain ⟨rfl, -⟩ := opens_setTx hnone hsome
    rw [hopen] at hnone
    cases hnone
  have hcommit : ∀ reached, s.db.isMaxInFlightReached j build.id = reached →
      s.db.commitSchedule j build reached = db' := by
    rintro reached rfl
    rw [commitSchedule, hup]
  cases hphase : s.db.runningPhase j with
  | decided reached =>
    have hstep : StepOf g j (s.setTx g (some tx₁)) _ :=
      ⟨SchedulingStep.commitSchedule (s := s.setTx g (some tx₁)) g reached hopen hphase,
        hnone none⟩
    rw [db_setTx, setTx_setTx, setTx_none hidle,
      hcommit reached (by rw [isMaxInFlightReached_eq, hphase])] at hstep
    exact .tail (.single hbegin) hstep
  | counted =>
    let tx₂ : ScheduleTx := { tx₁ with phase := .decided (s.db.nextPendingReached j build.id) }
    have hread : StepOf g j (s.setTx g (some tx₁)) ((s.setTx g (some tx₁)).setTx g (some tx₂)) :=
      ⟨SchedulingStep.readNextPending g hopen hphase, hnone (some tx₂)⟩
    have hstep : StepOf g j ((s.setTx g (some tx₁)).setTx g (some tx₂)) _ :=
      ⟨SchedulingStep.commitSchedule (s := (s.setTx g (some tx₁)).setTx g (some tx₂)) g
        (s.db.nextPendingReached j build.id) (show _ = some tx₂ by simp) rfl,
        fun h tx hnone' hsome => by
          obtain ⟨-, htx⟩ := opens_setTx hnone' hsome
          cases htx⟩
    have hend : { ((s.setTx g (some tx₁)).setTx g (some tx₂)).setTx g none with
        db := ((s.setTx g (some tx₁)).setTx g (some tx₂)).db.commitSchedule tx₂.job tx₂.build
          (s.db.nextPendingReached j build.id) } = { s with db := db' } := by
      rw [db_setTx, db_setTx, setTx_setTx, setTx_setTx, setTx_none hidle,
        hcommit _ (by rw [isMaxInFlightReached_eq, hphase])]
    rw [hend] at hstep
    exact .tail (.tail (.single hbegin) hread) hstep

/-! ## What a step does to the open transactions -/

omit [DecidableEq G] in
/-- A goroutine's transaction after the step that closed goroutine `g'`'s was open before. -/
theorem txs_of_setTx_none {s : SchedulingSystem G} [DecidableEq G] {g' h : G} {db : SchedulingDB}
    {tx : ScheduleTx} (hg : ({ s.setTx g' none with db := db } : SchedulingSystem G).txs h = some tx) :
    s.txs h = some tx ∧ h ≠ g' := by
  simp only [txs_setTx] at hg
  split at hg
  · cases hg
  · exact ⟨hg, ‹_›⟩

/-! ## The bound of one job -/

variable {s' : SchedulingSystem G} {jobID m : Nat}

/-- The bound of job `jobID`, and what keeps it while a transaction of the job is open: at most
`m` of its builds are scheduled and not completed, and fewer while one of its transactions may
still schedule a build. -/
structure JobBound (s : SchedulingSystem G) (jobID m : Nat) : Prop where
  le : s.db.runningOf (· == jobID) ≤ m
  lt : ∀ g tx, s.txs g = some tx → tx.job.id = jobID → tx.phase ≠ .decided true →
    s.db.runningOf (· == jobID) < m

omit [DecidableEq G] in
theorem jobBound_init (configs : List (Nat × SerialJobConfig)) :
    (init configs : SchedulingSystem G).JobBound jobID m :=
  ⟨by simp [runningOf, init, savedPipeline], fun _ _ h => by cases h⟩

omit [DecidableEq G] in
/-- A step that adds no running build of the job, and no transaction of it, keeps its bound. -/
theorem JobBound.of_le (hb : s.JobBound jobID m)
    (hle : s'.db.runningOf (· == jobID) ≤ s.db.runningOf (· == jobID))
    (htxs : ∀ g tx, s'.txs g = some tx → tx.job.id = jobID → tx.phase ≠ .decided true →
      ∃ tx₀, s.txs g = some tx₀ ∧ tx₀.job.id = jobID ∧ tx₀.phase ≠ .decided true) :
    s'.JobBound jobID m where
  le := hle.trans hb.le
  lt g tx hg hj hp := by
    obtain ⟨tx₀, h₀, hj₀, hp₀⟩ := htxs g tx hg hj hp
    exact hle.trans_lt (hb.lt g tx₀ h₀ hj₀ hp₀)

/-- **A step keeps the bound of a job.**  The job's row has the max in flight `m > 0` and the job
is in a serial group.  A transaction of the job reads the running builds of its groups, among
them the job's own; while no two goroutines have a transaction of one job open, the job's
running builds gain at most the one build of the transaction that counted fewer than `m`. -/
theorem JobBound.step (hb : s.JobBound jobID m) (hw : s.WellFormed) (hx : s.TxsExclusive)
    (hmax : ∀ row ∈ s.db.jobs, row.id = jobID → row.maxInFlight = m) (hpos : 0 < m)
    {grp : String} (hgroup : (grp, jobID) ∈ s.db.jobsSerialGroups) (h : SchedulingStep s s') :
    s'.JobBound jobID m := by
  cases h with
  | commit h => exact hb.of_le (h.kept.running _) fun g tx hg hj hp => ⟨tx, hg, hj, hp⟩
  | @begin g' j build hidle hcall =>
    -- a transaction of the job that begins has counted the builds its groups run
    refine ⟨hb.le, fun g tx hg hj hp => ?_⟩
    simp only [txs_setTx] at hg
    split at hg
    · cases hg
      obtain ⟨row, hrow, hid, hrowmax⟩ := hcall.loaded
      have hjmax : j.maxInFlight = m := hrowmax ▸ hmax row hrow (hid.trans hj)
      rw [← hj]
      exact runningOf_lt_of_runningPhase hjmax hpos (hj ▸ hgroup) hp
    · exact hb.lt g tx hg hj hp
  | @readNextPending g' tx₀ htx hcounted =>
    refine ⟨hb.le, fun g tx hg hj hp => ?_⟩
    simp only [txs_setTx] at hg
    split at hg
    · -- the transaction counted fewer running builds than `m`, which still holds
      cases hg
      exact hb.lt g' tx₀ htx hj (by rw [hcounted]; decide)
    · exact hb.lt g tx hg hj hp
  | @commitSchedule g' tx₀ reached htx hdecided =>
    by_cases hown : tx₀.job.id = jobID ∧ reached = false
    · -- the job's own transaction schedules one build at most, below the bound
      obtain ⟨hj₀, rfl⟩ := hown
      have hlt := hb.lt g' tx₀ htx hj₀ (by rw [hdecided]; decide)
      have hle : (s.db.commitSchedule tx₀.job tx₀.build false).runningOf (· == jobID) ≤
          s.db.runningOf (· == jobID) + 1 := by
        rcases commitSchedule_cases s.db tx₀.job tx₀.build false with hc | hc <;> rw [hc]
        · exact runningOf_scheduledRows_le hw.db _
        · omega
      refine ⟨by simp only; omega, fun g tx hg hj _ => ?_⟩
      -- no other goroutine has a transaction of the job open
      obtain ⟨hg, hne⟩ := txs_of_setTx_none hg
      exact absurd (hx g g' tx tx₀ hg htx (hj.trans hj₀.symm)) hne
    · -- the build scheduled, if any, is of another job
      have hle : (s.db.commitSchedule tx₀.job tx₀.build reached).runningOf (· == jobID) ≤
          s.db.runningOf (· == jobID) := by
        rcases commitSchedule_cases s.db tx₀.job tx₀.build reached with hc | hc
        · rw [hc]
          refine runningOf_scheduledRows_le_of _ fun hr b hb hid => ?_
          have hne : tx₀.job.id ≠ jobID := fun hj => hown ⟨hj, hr⟩
          simp [(hw.txs g' tx₀ htx).jobID b hb hid, hne]
        · rw [hc]
      exact hb.of_le hle fun g tx hg hj hp => ⟨tx, (txs_of_setTx_none hg).1, hj, hp⟩
  | rollback g' htx =>
    refine hb.of_le le_rfl fun g tx hg hj hp => ⟨tx, ?_, hj, hp⟩
    simp only [txs_setTx] at hg
    split at hg
    · cases hg
    · exact hg

/-! ## A job held back for good -/

/-- No build of the job `jobID` is scheduled, and each open transaction of the job found the
max in flight reached at its first read. -/
structure HeldBack (s : SchedulingSystem G) (jobID : Nat) : Prop where
  builds : ∀ b ∈ s.db.builds, b.jobID = jobID → b.scheduled = false
  txs : ∀ g tx, s.txs g = some tx → tx.job.id = jobID → tx.phase = .decided true

omit [DecidableEq G] in
theorem heldBack_init (configs : List (Nat × SerialJobConfig)) :
    (init configs : SchedulingSystem G).HeldBack jobID :=
  ⟨fun _ hb => absurd hb List.not_mem_nil, fun _ _ h => by cases h⟩

/-- **A job with a negative max in flight stays held back.**  Its transactions find the max in
flight reached at once, whatever runs, and schedule nothing; a transaction of another job
schedules a build of that job. -/
theorem HeldBack.step (hb : s.HeldBack jobID) (hw : s.WellFormed)
    (hneg : ∀ row ∈ s.db.jobs, row.id = jobID → row.maxInFlight < 0) (h : SchedulingStep s s') :
    s'.HeldBack jobID := by
  cases h with
  | commit h =>
    refine ⟨fun b' hb' hjob => ?_, hb.txs⟩
    cases hs : b'.scheduled
    · rfl
    · obtain ⟨b, hbm, -, hjb, hsb⟩ := h.kept.scheduled b' hb' hs
      rw [hb.builds b hbm (hjb.trans hjob)] at hsb
      cases hsb
  | @begin g' j build hidle hcall =>
    refine ⟨hb.builds, fun g tx hg hj => ?_⟩
    simp only [txs_setTx] at hg
    split at hg
    · cases hg
      obtain ⟨row, hrow, hid, hrowmax⟩ := hcall.loaded
      exact runningPhase_of_neg (hrowmax ▸ hneg row hrow (hid.trans hj))
    · exact hb.txs g tx hg hj
  | @readNextPending g' tx₀ htx hcounted =>
    refine ⟨hb.builds, fun g tx hg hj => ?_⟩
    simp only [txs_setTx] at hg
    split at hg
    · -- a counted transaction is not one of the job's
      cases hg
      rw [hb.txs g' tx₀ htx hj] at hcounted
      cases hcounted
    · exact hb.txs g tx hg hj
  | @commitSchedule g' tx₀ reached htx hdecided =>
    refine ⟨fun b' hb' hjob => ?_, fun g tx hg hj => hb.txs g tx (txs_of_setTx_none hg).1 hj⟩
    rcases commitSchedule_cases s.db tx₀.job tx₀.build reached with hc | hc <;> simp only [hc] at hb'
    · rw [scheduledRows_builds] at hb'
      obtain ⟨b, hbm, ⟨hcond, rfl⟩ | ⟨-, rfl⟩⟩ := exists_of_mem_updateWhere hb'
      · -- the build scheduled is of the transaction's job, which is not this one
        simp only [Bool.and_eq_true, Bool.not_eq_true', beq_iff_eq] at hcond
        have hjb : b.jobID = tx₀.job.id := (hw.txs g' tx₀ htx).jobID b hbm hcond.2
        rw [hb.txs g' tx₀ htx (hjb.symm.trans hjob), ScheduleTxPhase.decided.injEq] at hdecided
        rw [← hdecided] at hcond
        cases hcond.1
      · exact hb.builds _ hbm hjob
    · exact hb.builds b' hb' hjob
  | rollback g' htx =>
    refine ⟨hb.builds, fun g tx hg hj => hb.txs g tx ?_ hj⟩
    simp only [txs_setTx] at hg
    split at hg
    · cases hg
    · exact hg

/-- The run lemma: a job whose row has a negative max in flight stays held back. -/
theorem Reachable.heldBack (hids : (configs.map (·.1)).Nodup) (h : s.Reachable configs)
    {jobID : Nat}
    (hneg : ∀ row ∈ (savedPipeline configs).jobs, row.id = jobID → row.maxInFlight < 0) :
    s.HeldBack jobID := by
  induction h with
  | refl => exact heldBack_init configs
  | tail hprefix hstep ih =>
    refine ih.step (Reachable.wellFormed hids hprefix) ?_ hstep
    exact (forall_jobs_congr (P := fun id mif => id = jobID → mif < 0)
      (Reachable.configKept hprefix).jobLimits).mpr hneg

end SchedulingSystem

namespace SchedulingDB

variable {configs : List (Nat × SerialJobConfig)} {db : SchedulingDB}

/-- A job with a negative `max_in_flight` that is neither `serial` nor in serial groups never
has a build scheduled, nor started. -/
theorem negative_maxInFlight_never_started (hids : (configs.map (·.1)).Nodup)
    (h : db.Reachable configs) {c : Nat × SerialJobConfig} (hc : c ∈ configs)
    (hserial : c.2.serial = false) (hgroups : c.2.serialGroups = [])
    (hneg : c.2.rawMaxInFlight < 0) :
    ∀ b ∈ db.builds, b.jobID = c.1 → b.scheduled = false ∧ b.status ≠ .started := by
  obtain ⟨txs, hr⟩ := h
  have hmax : c.2.maxInFlight = c.2.rawMaxInFlight := by
    simp [SerialJobConfig.maxInFlight, hserial, hgroups, hneg.ne]
  -- the job's row has the config's negative max in flight
  have hrow : ∀ row ∈ (savedPipeline configs).jobs, row.id = c.1 → row.maxInFlight < 0 := by
    intro row hrow hid
    obtain ⟨c', hc', rfl⟩ := List.mem_map.mp hrow
    rw [List.inj_on_of_nodup_map hids hc' hc hid]
    show c.2.maxInFlight < 0
    omega
  have hheld := SchedulingSystem.Reachable.heldBack hids hr hrow
  have hw := (SchedulingSystem.Reachable.wellFormed hids hr).db
  intro b hb hjob
  have hs := hheld.builds b hb hjob
  refine ⟨hs, fun hstarted => ?_⟩
  rw [((hw.consistent b hb).started hstarted).1] at hs
  cases hs

end SchedulingDB

/-! ## Two jobs of one serial group -/

namespace SchedulingDB

variable {db : SchedulingDB}

/-- The row `job.CreateBuild` inserts for the job `jobID`, under the id `id`. -/
def createdRow (jobID id : Nat) : SchedulingBuildRow :=
  ⟨id, jobID, .pending, none, none, true, false, false, false⟩

section
variable {jobID id : Nat}
@[simp] theorem createdRow_id : (createdRow jobID id).id = id := rfl
@[simp] theorem createdRow_jobID : (createdRow jobID id).jobID = jobID := rfl
@[simp] theorem createdRow_status : (createdRow jobID id).status = .pending := rfl
@[simp] theorem createdRow_scheduled : (createdRow jobID id).scheduled = false := rfl
@[simp] theorem createdRow_completed : (createdRow jobID id).completed = false := rfl
@[simp] theorem createdRow_aborted : (createdRow jobID id).aborted = false := rfl

theorem builds_createBuild : (db.createBuild jobID id).builds = db.builds ++ [createdRow jobID id] :=
  rfl
end

theorem jobSchedulable_of_mem {b : SchedulingBuildRow} {row : SchedulingJobRow}
    (hrow : row ∈ db.jobs) (hid : row.id = b.jobID) (hpaused : row.paused = false)
    (hinputs : row.inputsDetermined = true) : db.jobSchedulable b = true :=
  List.any_eq_true.mpr ⟨row, hrow, by simp [hid, hpaused, hinputs]⟩

theorem mem_saveInputsDetermined_jobs {row : SchedulingJobRow} (hrow : row ∈ db.jobs)
    (jobID : Nat) (inputsDetermined : Bool) :
    (if row.id == jobID then { row with inputsDetermined } else row) ∈
      (db.saveInputsDetermined jobID inputsDetermined).jobs :=
  mem_updateWhere_of_mem hrow

/-- A job's row is the one row of its id. -/
theorem countP_jobs_id (hnodup : (db.jobs.map (·.id)).Nodup) {jobID : Nat}
    (hmem : jobID ∈ db.jobs.map (·.id)) : db.jobs.countP (·.id == jobID) = 1 := by
  have h := List.count_eq_one_of_mem hnodup hmem
  rwa [List.count, List.countP_map] at h

/-- The updates commit when the job and the build have their rows. -/
theorem commitSchedule_eq_scheduledRows {j : SchedulerJob} {build : SchedulingBuildRow}
    {reached : Bool} (hjob : db.jobs.countP (·.id == j.id) = 1)
    (hbuild : reached = false → db.builds.countP (·.id == build.id) = 1) :
    db.commitSchedule j build reached = db.scheduledRows j build reached := by
  rw [commitSchedule, scheduleBuildUpdates_eq_ok_of_countP hjob hbuild]

/-- A second read that finds the build the only pending build of the groups whose job may run
lets it through. -/
theorem nextPendingReached_of_filter {j : SchedulerJob} {b : SchedulingBuildRow}
    (h : db.builds.filter (fun x => db.inSerialGroups (db.serialGroupsOf j.id) x &&
      x.status == .pending && db.jobSchedulable x) = [b]) :
    db.nextPendingReached j b.id = false := by
  rw [nextPendingReached, nextPendingBuildBySerialGroup, h]
  simp [Keyset.sortAsc]

/-- The rows of the build are scheduled once the updates of `ScheduleBuild` committed. -/
theorem scheduled_of_mem_scheduledRows {j : SchedulerJob} {build x : SchedulingBuildRow}
    (hx : x ∈ (db.scheduledRows j build false).builds) (hid : x.id = build.id) :
    x.scheduled = true := by
  rw [scheduledRows_builds] at hx
  obtain ⟨r, -, ⟨-, rfl⟩ | ⟨hcr, rfl⟩⟩ := exists_of_mem_updateWhere hx
  · rfl
  · simp [hid] at hcr

end SchedulingDB

namespace SchedulingSystem

variable {G : Type} [DecidableEq G] {s : SchedulingSystem G} {g : G}

/-- A transaction that found its build next commits, and `Start` then starts the build. -/
theorem commitSchedule_start {j : SchedulerJob} {build : SchedulingBuildRow}
    (htx : s.txs g = some ⟨j, build, .decided false⟩)
    (hjob : s.db.jobs.countP (·.id == j.id) = 1)
    (hbuild : s.db.builds.countP (·.id == build.id) = 1) :
    Relation.ReflTransGen SchedulingStep s
      { s.setTx g none with db := ((s.db.scheduledRows j build false).start build.id).2 } := by
  have hcommit := SchedulingStep.commitSchedule g false htx rfl
  rw [commitSchedule_eq_scheduledRows hjob fun _ => hbuild] at hcommit
  exact .tail (.single hcommit)
    (.commit (.start fun _ hx hid => scheduled_of_mem_scheduledRows hx hid))

end SchedulingSystem

namespace SchedulingDB

variable {configs : List (Nat × SerialJobConfig)}

/-- The saved pipeline, with the inputs of two of its jobs determined. -/
theorem reachable_inputsDetermined {a b : Nat × SerialJobConfig} (ha : a ∈ configs)
    (hb : b ∈ configs) (hne : a.1 ≠ b.1) :
    ∃ D : SchedulingDB, Relation.ReflTransGen SchedulingStep (SchedulingSystem.init configs)
        (⟨D, fun _ => none⟩ : SchedulingSystem Nat) ∧
      D.builds = [] ∧ D.jobsSerialGroups = (savedPipeline configs).jobsSerialGroups ∧
      D.jobs.map (·.id) = configs.map (·.1) ∧
      (⟨a.1, false, true, a.2.maxInFlight, false⟩ : SchedulingJobRow) ∈ D.jobs ∧
      (⟨b.1, false, true, b.2.maxInFlight, false⟩ : SchedulingJobRow) ∈ D.jobs := by
  have hsaved : Relation.ReflTransGen SchedulingStep (SchedulingSystem.init configs)
      (⟨((savedPipeline configs).saveInputsDetermined a.1 true).saveInputsDetermined b.1 true,
        fun _ => none⟩ : SchedulingSystem Nat) :=
    .tail (.single (.commit (.saveInputsDetermined _ a.1 true)))
      (.commit (.saveInputsDetermined _ b.1 true))
  -- a job's row as the pipeline was saved
  have hrow : ∀ c ∈ configs, (⟨c.1, false, false, c.2.maxInFlight, false⟩ : SchedulingJobRow) ∈
      (savedPipeline configs).jobs := fun c hc =>
    List.mem_map_of_mem (f := fun c => (⟨c.1, false, false, c.2.maxInFlight, false⟩ : SchedulingJobRow)) hc
  refine ⟨_, hsaved, rfl, rfl, ?_, ?_, ?_⟩
  · rw [(SchedulingSystem.Reachable.configKept hsaved).jobIds]
    simp [savedPipeline, Function.comp_def]
  · simpa [hne] using
      mem_saveInputsDetermined_jobs (mem_saveInputsDetermined_jobs (hrow a ha) a.1 true) b.1 true
  · simpa [Ne.symm hne] using
      mem_saveInputsDetermined_jobs (mem_saveInputsDetermined_jobs (hrow b hb) a.1 true) b.1 true

/-- **Two jobs of one serial group can each have a build started.**  In any saved pipeline in
which two jobs list one serial group, so that each has max in flight one, some interleaving
starts a build of each:

1. goroutine `1` begins `ScheduleBuild` for a build of the second job and counts no running
   build;
2. goroutine `0` schedules a build of the first job, which `Start` starts;
3. goroutine `1`'s second read then finds its own build next, since the other is no longer
   pending, and it schedules that build too. -/
theorem serialGroup_race (hids : (configs.map (·.1)).Nodup) {a b : Nat × SerialJobConfig}
    (ha : a ∈ configs) (hb : b ∈ configs) (hne : a.1 ≠ b.1) {grp : String}
    (hga : grp ∈ a.2.serialGroups) (hgb : grp ∈ b.2.serialGroups) :
    a.2.maxInFlight = 1 ∧ b.2.maxInFlight = 1 ∧
      ∃ s : SchedulingSystem Nat, s.Reachable configs ∧
        2 ≤ s.db.startedOf fun id => configs.any fun c => c.1 == id && grp ∈ c.2.serialGroups := by
  have hma := SerialJobConfig.maxInFlight_of_ne_nil (List.ne_nil_of_mem hga)
  have hmb := SerialJobConfig.maxInFlight_of_ne_nil (List.ne_nil_of_mem hgb)
  refine ⟨hma, hmb, ?_⟩
  obtain ⟨D, hsaved, hbuilds₀, hjsg₀, hjobs₀, hrowA, hrowB⟩ := reachable_inputsDetermined ha hb hne
  rw [hma] at hrowA
  rw [hmb] at hrowB
  have hgA : (grp, a.1) ∈ D.jobsSerialGroups := hjsg₀ ▸ mem_savedPipeline_jobsSerialGroups.mpr
    ⟨a, ha, rfl, SerialJobConfig.mem_registeredSerialGroups.mpr (.inl hga)⟩
  have hgB : (grp, b.1) ∈ D.jobsSerialGroups := hjsg₀ ▸ mem_savedPipeline_jobsSerialGroups.mpr
    ⟨b, hb, rfl, SerialJobConfig.mem_registeredSerialGroups.mpr (.inl hgb)⟩
  -- a job's row stays the one row of its id
  have hcount : ∀ id ∈ configs.map (·.1), ∀ E : SchedulingDB, E.jobs.map (·.id) = D.jobs.map (·.id) →
      E.jobs.countP (·.id == id) = 1 := fun id hid E hE =>
    countP_jobs_id (hE ▸ hjobs₀ ▸ hids) (hE ▸ hjobs₀ ▸ hid)
  -- the rows, as the build of the first job and then that of the second are created
  have hb₁ : (D.createBuild a.1 1).builds = [createdRow a.1 1] := by
    rw [builds_createBuild, hbuilds₀, List.nil_append]
  have hb₂ : ((D.createBuild a.1 1).createBuild b.1 2).builds =
      [createdRow a.1 1, createdRow b.1 2] := by
    rw [builds_createBuild, hb₁, List.singleton_append]
  -- goroutine `0` begins for the first build, counts no running build, and finds it next
  have h₁ := hsaved.tail (.commit (@CommitStep.createBuild D a.1 1 (by simp [hbuilds₀])))
  have hphaseA : (D.createBuild a.1 1).runningPhase ⟨a.1, 1, false, false, false⟩ = .counted := by
    simp [runningPhase, runningBuildsBySerialGroup, isRunningIn, hb₁]
  have hcallA : ScheduleCall (D.createBuild a.1 1) ⟨a.1, 1, false, false, false⟩ (createdRow a.1 1) :=
    ⟨⟨_, hrowA, rfl, rfl⟩, ⟨createdRow a.1 1, by simp [hb₁], rfl⟩, by simp [hb₁]⟩
  have h₂ := h₁.tail (.begin 0 rfl hcallA rfl rfl)
  have hnextA : (D.createBuild a.1 1).nextPendingReached ⟨a.1, 1, false, false, false⟩ 1 = false := by
    refine nextPendingReached_of_filter (b := createdRow a.1 1) ?_
    have hin : (D.createBuild a.1 1).inSerialGroups ((D.createBuild a.1 1).serialGroupsOf a.1)
        (createdRow a.1 1) = true :=
      inSerialGroups_iff.mpr ⟨grp, mem_serialGroupsOf.mpr hgA, hgA⟩
    have hsched : (D.createBuild a.1 1).jobSchedulable (createdRow a.1 1) = true :=
      jobSchedulable_of_mem hrowA rfl rfl rfl
    simp [hb₁, hin, hsched]
  have h₃ := h₂.tail (.readNextPending 0 (show _ = some ⟨⟨a.1, 1, false, false, false⟩, createdRow a.1 1, .counted⟩ by
    simp [hphaseA]) rfl)
  -- goroutine `1` begins for the second build, and counts no running build either
  have h₄ := h₃.tail (.commit (@CommitStep.createBuild _ b.1 2 (by simp [hb₁])))
  have hphaseB : ((D.createBuild a.1 1).createBuild b.1 2).runningPhase
      ⟨b.1, 1, false, false, false⟩ = .counted := by
    simp [runningPhase, runningBuildsBySerialGroup, isRunningIn, hb₂]
  have hcallB : ScheduleCall ((D.createBuild a.1 1).createBuild b.1 2) ⟨b.1, 1, false, false, false⟩
      (createdRow b.1 2) :=
    ⟨⟨_, hrowB, rfl, rfl⟩, ⟨createdRow b.1 2, by simp [hb₂], rfl⟩, by simp [hb₂]⟩
  have h₅ := h₄.tail (.begin 1 (by simp) hcallB rfl rfl)
  -- goroutine `0` commits, and the build of the first job starts
  have h₇ := h₅.trans (commitSchedule_start (g := 0)
    (show _ = some (⟨⟨a.1, 1, false, false, false⟩, createdRow a.1 1, .decided false⟩ : ScheduleTx) by
      simp [hnextA])
    (hcount _ (List.mem_map_of_mem ha) _ rfl) (by simp [hb₂]))
  have hb₇ : ((((D.createBuild a.1 1).createBuild b.1 2).scheduledRows ⟨a.1, 1, false, false, false⟩
      (createdRow a.1 1) false).start 1).2.builds =
        [{ createdRow a.1 1 with scheduled := true, status := .started }, createdRow b.1 2] := by
    rw [start_builds, scheduledRows_builds, hb₂]
    simp [updateWhere]
  -- goroutine `1`'s second read finds its own build next: the other is no longer pending
  have hnextB : ((((D.createBuild a.1 1).createBuild b.1 2).scheduledRows ⟨a.1, 1, false, false, false⟩
      (createdRow a.1 1) false).start 1).2.nextPendingReached ⟨b.1, 1, false, false, false⟩ 2 = false := by
    refine nextPendingReached_of_filter (b := createdRow b.1 2) ?_
    have hin : ((((D.createBuild a.1 1).createBuild b.1 2).scheduledRows ⟨a.1, 1, false, false, false⟩
        (createdRow a.1 1) false).start 1).2.inSerialGroups
          (((((D.createBuild a.1 1).createBuild b.1 2).scheduledRows ⟨a.1, 1, false, false, false⟩
            (createdRow a.1 1) false).start 1).2.serialGroupsOf b.1) (createdRow b.1 2) = true :=
      inSerialGroups_iff.mpr ⟨grp, mem_serialGroupsOf.mpr hgB, hgB⟩
    have hsched : ((((D.createBuild a.1 1).createBuild b.1 2).scheduledRows ⟨a.1, 1, false, false, false⟩
        (createdRow a.1 1) false).start 1).2.jobSchedulable (createdRow b.1 2) = true := by
      show (((D.createBuild a.1 1).createBuild b.1 2).scheduledRows ⟨a.1, 1, false, false, false⟩
        (createdRow a.1 1) false).jobSchedulable (createdRow b.1 2) = true
      rw [jobSchedulable_scheduledRows]
      exact jobSchedulable_of_mem hrowB rfl rfl rfl
    rw [hb₇]
    simp [hin, hsched]
  have h₈ := h₇.tail (.readNextPending 1 (show _ = some ⟨⟨b.1, 1, false, false, false⟩, createdRow b.1 2, .counted⟩ by
    simp [hphaseB]) rfl)
  -- goroutine `1` commits too, and the build of the second job starts
  have h₁₀ := h₈.trans (commitSchedule_start (g := 1)
    (show _ = some (⟨⟨b.1, 1, false, false, false⟩, createdRow b.1 2, .decided false⟩ : ScheduleTx) by
      simp [hnextB])
    (hcount _ (List.mem_map_of_mem hb) _ (map_updateWhere_of_key _ fun _ _ => rfl)) (by simp [hb₇]))
  refine ⟨_, h₁₀, ?_⟩
  -- both builds are started, and both jobs list the group
  have hb₁₀ : ((((((D.createBuild a.1 1).createBuild b.1 2).scheduledRows ⟨a.1, 1, false, false, false⟩
      (createdRow a.1 1) false).start 1).2.scheduledRows ⟨b.1, 1, false, false, false⟩
        (createdRow b.1 2) false).start 2).2.builds =
          [{ createdRow a.1 1 with scheduled := true, status := .started },
            { createdRow b.1 2 with scheduled := true, status := .started }] := by
    rw [start_builds, scheduledRows_builds, hb₇]
    simp [updateWhere]
  have hSa : (configs.any fun c => c.1 == a.1 && grp ∈ c.2.serialGroups) = true :=
    List.any_eq_true.mpr ⟨a, ha, by simp [hga]⟩
  have hSb : (configs.any fun c => c.1 == b.1 && grp ∈ c.2.serialGroups) = true :=
    List.any_eq_true.mpr ⟨b, hb, by simp [hgb]⟩
  simp [startedOf, hb₁₀, hSa, hSb]

end SchedulingDB

/-! ## A run -/

/-- Two jobs in the serial group `deploy`, and a job with a negative `max_in_flight`. -/
def deployConfigs : List (Nat × SerialJobConfig) :=
  [(1, ⟨"unit", false, ["deploy"], 0⟩), (2, ⟨"e2e", false, ["deploy"], 0⟩),
    (3, ⟨"lint", false, [], -1⟩)]

/-- The rows once the inputs of `unit` are determined and a build of it is created. -/
def deployUnitRows : SchedulingDB :=
  ((savedPipeline deployConfigs).saveInputsDetermined 1 true).createBuild 1 10

/-- The rows once the build of `unit` is scheduled and started, and a build of `lint` created. -/
def deployLintRows : SchedulingDB :=
  (((deployUnitRows.scheduledRows ⟨1, 1, false, false, false⟩ (createdRow 1 10) false).start 10).2.saveInputsDetermined
    3 true).createBuild 3 11

/-- A run of the pipeline: `ScheduleBuild` schedules the build of `unit`, which starts, and holds
the build of `lint` back. -/
def deployRun : SchedulingSystem Nat :=
  ⟨deployLintRows.scheduledRows ⟨3, -1, false, false, false⟩ (createdRow 3 11) true, fun _ => none⟩

theorem reachable_deployRun : deployRun.Reachable deployConfigs := by
  have hunit : Relation.ReflTransGen SchedulingStep (SchedulingSystem.init deployConfigs)
      (⟨deployUnitRows, fun _ => none⟩ : SchedulingSystem Nat) :=
    .tail (.single (.commit (.saveInputsDetermined _ 1 true))) (.commit (.createBuild (by decide)))
  have hscheduled := SchedulingSystem.scheduleBuild_steps (s := ⟨deployUnitRows, fun _ => none⟩)
    (g := 0) rfl ⟨⟨⟨1, false, true, 1, false⟩, by decide, rfl, rfl⟩, by decide, by decide⟩
    (show deployUnitRows.scheduleBuild ⟨1, 1, false, false, false⟩ (createdRow 1 10) =
      .ok (true, deployUnitRows.scheduledRows ⟨1, 1, false, false, false⟩ (createdRow 1 10) false) from rfl)
  have hlint : Relation.ReflTransGen SchedulingStep (SchedulingSystem.init deployConfigs)
      (⟨deployLintRows, fun _ => none⟩ : SchedulingSystem Nat) :=
    .tail (.tail (.tail (hunit.trans (StepOf.steps hscheduled)) (.commit (.start (by decide))))
      (.commit (.saveInputsDetermined _ 3 true))) (.commit (.createBuild (by decide)))
  have hheld := SchedulingSystem.scheduleBuild_steps (s := ⟨deployLintRows, fun _ => none⟩)
    (g := 0) rfl ⟨⟨⟨3, false, true, -1, false⟩, by decide, rfl, rfl⟩, by decide, by decide⟩
    (show deployLintRows.scheduleBuild ⟨3, -1, false, false, false⟩ (createdRow 3 11) =
      .ok (false, deployLintRows.scheduledRows ⟨3, -1, false, false, false⟩ (createdRow 3 11) true) from rfl)
  exact hlint.trans (StepOf.steps hheld)

-- the run started the build of `unit`
example : deployRun.db.startedOf (· == 1) = 1 := by decide

theorem serialGroup_race_deploy :
    ∃ s : SchedulingSystem Nat, s.Reachable deployConfigs ∧
      2 ≤ s.db.startedOf fun id => deployConfigs.any fun c => c.1 == id && "deploy" ∈ c.2.serialGroups := by
  obtain ⟨-, -, hrace⟩ := SchedulingDB.serialGroup_race (a := (1, ⟨"unit", false, ["deploy"], 0⟩))
    (b := (2, ⟨"e2e", false, ["deploy"], 0⟩)) (by decide : (deployConfigs.map (·.1)).Nodup)
    (by decide) (by decide) (by decide)
    (List.mem_singleton_self "deploy") (List.mem_singleton_self "deploy")
  exact hrace

theorem negative_maxInFlight_never_started_lint :
    (deployRun.db.jobs.find? (·.id == 3)).map (·.maxInFlightReached) = some true ∧
      (deployRun.db.builds.find? (·.jobID == 3)).map (fun b => (b.scheduled, b.status == .started)) =
        some (false, false) := by
  have hnever := SchedulingDB.negative_maxInFlight_never_started (c := (3, ⟨"lint", false, [], -1⟩))
    (by decide) ⟨_, reachable_deployRun⟩ (by decide) rfl rfl (by decide)
  refine ⟨by decide, ?_⟩
  -- the run created a build of the lint job
  have hsome : (deployRun.db.builds.find? (·.jobID == 3)).isSome = true := by decide
  rcases hfind : deployRun.db.builds.find? (·.jobID == 3) with _ | b
  · rw [hfind] at hsome
    cases hsome
  · have hjob : b.jobID = 3 := by simpa using List.find?_some hfind
    obtain ⟨hscheduled, hstarted⟩ := hnever b (List.mem_of_find?_eq_some hfind) hjob
    rw [hfind, Option.map_some, hscheduled, beq_eq_false_iff_ne.mpr hstarted]

end Db
end Concourse
