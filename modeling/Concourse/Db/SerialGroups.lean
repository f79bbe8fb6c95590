import Concourse.Db.JobBuilds
import Concourse.Lib.Keyset
import Concourse.Lib.RowUpdate

/-!
# Serial groups and max in flight: the rows and the transactions on them

A job's builds wait for each other through serial groups.  `saveJobsAndSerialGroups` registers
a job in each of its `serial_groups`, or, when it lists none but is `serial` or has a positive
`max_in_flight`, in a group named after the job, and `saveJob` stores `JobConfig.MaxInFlight`:
one for a serial job or a job in serial groups, else its `max_in_flight`.

`job.ScheduleBuild` marks a pending build scheduled unless `isMaxInFlightReached`: the builds of
the jobs sharing one of the job's groups that are scheduled and not completed number its max in
flight already, or the build is not the first pending build of those jobs.  Nothing resets
`scheduled`; a build stops counting once `build.Finish` completes it, and only the build
starter calls `build.Start`, on a build `ScheduleBuild` scheduled.

This module has the rows scheduling reads and writes, the queries of `isMaxInFlightReached`,
`ScheduleBuild` as one call on rows that do not change under it (`scheduleBuild`), and every
other transaction on the rows (`CommitStep`: starting, finishing and aborting builds, creating
them, pausing jobs and the pipeline, saving whether a job's inputs are determined), each of
which commits at once.  What every such transaction keeps is proved here: no build is newly
scheduled or reopened, no row is lost or moves to another job, and the rows stay well formed
(`CommitStep.kept`, `CommitStep.persists`, `CommitStep.wellFormed`).  `Db.ScheduleBuild` runs
`ScheduleBuild` as the database does, its statements interleaved with other transactions.

A new `set-pipeline` changes `max_in_flight` and the serial groups under running builds; it is
not one of the transactions here.
-/

namespace Concourse
namespace Db

open RowUpdate

/-! ## The config -/

/-- The fields of `atc.JobConfig` that decide a job's serial groups and max in flight. -/
structure SerialJobConfig where
  name : String
  serial : Bool
  serialGroups : List String
  rawMaxInFlight : Int
  deriving DecidableEq, Repr

namespace SerialJobConfig

/-- `JobConfig.MaxInFlight`. -/
def maxInFlight (config : SerialJobConfig) : Int :=
  if config.serial || config.serialGroups.length > 0 then 1
  else if config.rawMaxInFlight != 0 then config.rawMaxInFlight
  else 0

/-- The groups `saveJobsAndSerialGroups` registers the job in. -/
def registeredSerialGroups (config : SerialJobConfig) : List String :=
  if config.serialGroups.length != 0 then config.serialGroups
  else if config.serial || config.rawMaxInFlight > 0 then [config.name]
  else []

variable {config : SerialJobConfig} {g : String}

theorem maxInFlight_of_ne_nil (h : config.serialGroups ≠ []) : config.maxInFlight = 1 := by
  have hlen : config.serialGroups.length > 0 := List.length_pos_iff.mpr h
  simp [maxInFlight, hlen]

theorem mem_registeredSerialGroups :
    g ∈ config.registeredSerialGroups ↔ g ∈ config.serialGroups ∨
      config.serialGroups = [] ∧ (config.serial = true ∨ 0 < config.rawMaxInFlight) ∧
        g = config.name := by
  unfold registeredSerialGroups
  cases hgroups : config.serialGroups with
  | nil =>
    by_cases hon : config.serial = true ∨ 0 < config.rawMaxInFlight
    · have hon' : (config.serial || decide (config.rawMaxInFlight > 0)) = true := by
        simpa using hon
      simp [hon', hon]
    · have hoff : (config.serial || decide (config.rawMaxInFlight > 0)) = false := by
        simpa using hon
      simp [hoff, hon]
  | cons g' gs => simp

/-- A job is registered in a serial group only with a positive max in flight. -/
theorem maxInFlight_pos_of_mem (h : g ∈ config.registeredSerialGroups) :
    0 < config.maxInFlight := by
  rcases mem_registeredSerialGroups.mp h with hmem | ⟨hnil, hon, -⟩
  · rw [maxInFlight_of_ne_nil (List.ne_nil_of_mem hmem)]
    decide
  · unfold maxInFlight
    rcases hon with hserial | hraw
    · simp [hserial]
    · simp [hnil, hraw.ne']
      cases config.serial <;> simp [hraw]

end SerialJobConfig

/-! ## The rows -/

/-- The columns of a row of `jobs` that scheduling reads and writes. -/
structure SchedulingJobRow where
  id : Nat
  paused : Bool
  inputsDetermined : Bool
  maxInFlight : Int
  maxInFlightReached : Bool
  deriving DecidableEq, Repr

/-- The columns of a row of `builds` that scheduling reads and writes. -/
structure SchedulingBuildRow where
  id : Nat
  jobID : Nat
  status : BuildStatus
  rerunOf : Option Nat
  rerunOfOld : Option Nat
  manuallyTriggered : Bool
  scheduled : Bool
  completed : Bool
  aborted : Bool
  deriving DecidableEq, Repr

/-- The order `COALESCE(rerun_of, id) ASC, id ASC` of `getNextPendingBuildBySerialGroup`. -/
def SchedulingBuildRow.pendingKey (b : SchedulingBuildRow) : Nat ×ₗ Nat :=
  toLex (b.rerunOf.getD b.id, b.id)

/-- A row of `builds` as the transactions leave it: a completed build has a final status, and a
started build is scheduled and not completed. -/
structure SchedulingBuildRow.Consistent (b : SchedulingBuildRow) : Prop where
  completed : b.completed = true → b.status.isCompleted = true
  started : b.status = .started → b.scheduled = true ∧ b.completed = false

/-- The row `b'` is the row `b` after a change that schedules nothing and reopens nothing. -/
structure SchedulingBuildRow.Follows (b' b : SchedulingBuildRow) : Prop where
  id : b'.id = b.id
  jobID : b'.jobID = b.jobID
  scheduled : b'.scheduled = b.scheduled
  reopens : b'.completed = false → b.completed = false

/-- The rows of one pipeline that scheduling reads and writes: the pipeline's `paused` and
`archived`, its jobs, its rows of `jobs_serial_groups` as `(serial_group, job_id)`, and the
builds of its jobs. -/
structure SchedulingDB where
  pipelinePaused : Bool
  pipelineArchived : Bool
  jobs : List SchedulingJobRow
  jobsSerialGroups : List (String × Nat)
  builds : List SchedulingBuildRow
  deriving DecidableEq, Repr

/-- The pipeline's rows once `saveJobsAndSerialGroups` has saved the jobs `configs` under their
ids, before any build: `saveJob` writes `max_in_flight`, `registerSerialGroup` the groups. -/
def savedPipeline (configs : List (Nat × SerialJobConfig)) : SchedulingDB where
  pipelinePaused := false
  pipelineArchived := false
  jobs := configs.map fun c => ⟨c.1, false, false, c.2.maxInFlight, false⟩
  jobsSerialGroups := configs.flatMap fun c => c.2.registeredSerialGroups.map fun g => (g, c.1)
  builds := []

/-- `db.SchedulerJob` as the scheduler reads it: the job's id and max in flight, and the flags of
the job and of its pipeline as they were when the job was loaded. -/
structure SchedulerJob where
  id : Nat
  maxInFlight : Int
  paused : Bool
  pipelinePaused : Bool
  pipelineArchived : Bool
  deriving DecidableEq, Repr

/-- The job was loaded from its row.  Its flags may have changed since; its id and max in
flight are the config's. -/
def SchedulerJob.LoadedFrom (j : SchedulerJob) (db : SchedulingDB) : Prop :=
  ∃ row ∈ db.jobs, row.id = j.id ∧ row.maxInFlight = j.maxInFlight

namespace SchedulingDB

variable (db : SchedulingDB)

/-! ## Queries -/

/-- `getSerialGroups`. -/
def serialGroupsOf (jobID : Nat) : List String :=
  (db.jobsSerialGroups.filter fun r => r.2 == jobID).map (·.1)

/-- The build's job is in one of the groups: the join of `buildsQuery` with
`jobs_serial_groups jsg` on `jsg.serial_group IN serialGroups`. -/
def inSerialGroups (serialGroups : List String) (b : SchedulingBuildRow) : Bool :=
  db.jobsSerialGroups.any fun r => r.2 == b.jobID && r.1 ∈ serialGroups

/-- The rows `getRunningBuildsBySerialGroup` selects: `b.completed = false AND b.scheduled = true`
in the groups. -/
def isRunningIn (serialGroups : List String) (b : SchedulingBuildRow) : Bool :=
  db.inSerialGroups serialGroups b && b.completed == false && b.scheduled

/-- `getRunningBuildsBySerialGroup`. -/
def runningBuildsBySerialGroup (serialGroups : List String) : List SchedulingBuildRow :=
  db.builds.filter (db.isRunningIn serialGroups)

/-- `j.paused = false AND j.inputs_determined = true` of the build's job. -/
def jobSchedulable (b : SchedulingBuildRow) : Bool :=
  db.jobs.any fun j => j.id == b.jobID && j.paused == false && j.inputsDetermined

/-- `getNextPendingBuildBySerialGroup`. -/
def nextPendingBuildBySerialGroup (serialGroups : List String) : Option SchedulingBuildRow :=
  (Keyset.sortAsc SchedulingBuildRow.pendingKey (db.builds.filter fun b =>
    db.inSerialGroups serialGroups b && b.status == .pending && db.jobSchedulable b)).head?

/-- `job.isMaxInFlightReached`. -/
def isMaxInFlightReached (j : SchedulerJob) (buildID : Nat) : Bool :=
  if j.maxInFlight == 0 then false
  else
    let serialGroups := db.serialGroupsOf j.id
    if ((db.runningBuildsBySerialGroup serialGroups).length : Int) ≥ j.maxInFlight then true
    else
      match db.nextPendingBuildBySerialGroup serialGroups with
      | none => true
      | some nextMostPendingBuild => nextMostPendingBuild.id != buildID

/-! ## Transactions -/

/-- `NonOneRowAffectedError.Error`. -/
def nonOneRowAffectedError (rowsAffected : Nat) : String :=
  "expected 1 row to be updated; got " ++ toString rowsAffected

/-- `UPDATE jobs SET f WHERE cond`: the rows it changes, and the rows after. -/
def updateJobs (cond : SchedulingJobRow → Bool) (f : SchedulingJobRow → SchedulingJobRow) :
    Nat × SchedulingDB :=
  (db.jobs.countP cond, { db with jobs := updateWhere cond f db.jobs })

/-- `UPDATE builds SET f WHERE cond`: the rows it changes, and the rows after. -/
def updateBuilds (cond : SchedulingBuildRow → Bool) (f : SchedulingBuildRow → SchedulingBuildRow) :
    Nat × SchedulingDB :=
  (db.builds.countP cond, { db with builds := updateWhere cond f db.builds })

/-- The rest of the `ScheduleBuild` transaction once `isMaxInFlightReached` has answered
`reached`: `UPDATE jobs SET max_in_flight_reached`, then, when not reached, `UPDATE builds SET
scheduled = true`, each checked to change one row; an error rolls the transaction back. -/
def scheduleBuildUpdates (j : SchedulerJob) (build : SchedulingBuildRow) (reached : Bool) :
    Except String (Bool × SchedulingDB) :=
  let updated := db.updateJobs (·.id == j.id) fun row => { row with maxInFlightReached := reached }
  if updated.1 != 1 then .error (nonOneRowAffectedError updated.1)
  else if !reached then
    let marked := updated.2.updateBuilds (·.id == build.id) fun b => { b with scheduled := true }
    if marked.1 != 1 then .error (nonOneRowAffectedError marked.1)
    else .ok (true, marked.2)
  else .ok (false, updated.2)

/-- `job.ScheduleBuild` with nothing committed while it runs, so that both reads of
`isMaxInFlightReached` see the rows `db`. -/
def scheduleBuild (j : SchedulerJob) (build : SchedulingBuildRow) :
    Except String (Bool × SchedulingDB) :=
  if build.scheduled then .ok (true, db)
  else if j.paused || j.pipelinePaused then .ok (false, db)
  else db.scheduleBuildUpdates j build (db.isMaxInFlightReached j build.id)

/-- `build.Start`: `UPDATE builds SET status = 'started' WHERE id = buildID AND status =
'pending' AND aborted = false RETURNING start_time`, and whether a row came back. -/
def start (buildID : Nat) : Bool × SchedulingDB :=
  let updated := db.updateBuilds
    (fun b => b.id == buildID && b.status == .pending && b.aborted == false)
    fun b => { b with status := .started }
  (updated.1 != 0, updated.2)

/-- The row `build.Finish` writes: `UPDATE builds SET status = status, completed = true WHERE
id = buildID RETURNING end_time`, an error when no row comes back.  The job's bookkeeping in
the same transaction is `JobBuilds.finish`. -/
def finish (buildID : Nat) (status : BuildStatus) : Except String SchedulingDB :=
  let updated := db.updateBuilds (·.id == buildID) fun b => { b with status, completed := true }
  if updated.1 == 0 then .error "sql: no rows in result set" else .ok updated.2

/-- `build.MarkAsAborted`. -/
def markAsAborted (buildID : Nat) : SchedulingDB :=
  (db.updateBuilds (·.id == buildID) fun b => { b with aborted := true }).2

/-- `job.Pause` and `job.Unpause`. -/
def setJobPaused (jobID : Nat) (paused : Bool) : SchedulingDB :=
  (db.updateJobs (·.id == jobID) fun j => { j with paused }).2

/-- The `inputs_determined` that `job.SaveNextInputMapping` writes. -/
def saveInputsDetermined (jobID : Nat) (inputsDetermined : Bool) : SchedulingDB :=
  (db.updateJobs (·.id == jobID) fun j => { j with inputsDetermined }).2

/-- `pipeline.Pause` and `pipeline.Unpause`. -/
def setPipelinePaused (paused : Bool) : SchedulingDB :=
  { db with pipelinePaused := paused }

/-- `pipeline.Archive`, which pauses the pipeline too. -/
def archive : SchedulingDB :=
  { db with pipelinePaused := true, pipelineArchived := true }

/-- A row inserted into `builds`. -/
def insertBuild (row : SchedulingBuildRow) : SchedulingDB :=
  { db with builds := db.builds ++ [row] }

/-- `job.CreateBuild`: a pending, manually triggered build, with the id `id` the sequence
gives. -/
def createBuild (jobID id : Nat) : SchedulingDB :=
  db.insertBuild ⟨id, jobID, .pending, none, none, true, false, false, false⟩

/-- `job.RerunBuild`: a pending rerun of the build, or of the build it reruns. -/
def rerunBuild (jobID id : Nat) (buildToRerun : SchedulingBuildRow) : SchedulingDB :=
  let buildToRerunID :=
    if buildToRerun.rerunOf.getD 0 != 0 then buildToRerun.rerunOf.getD 0 else buildToRerun.id
  db.insertBuild ⟨id, jobID, .pending, some buildToRerunID, none, false, false, false, false⟩

/-- `job.EnsurePendingBuildExists`: a pending build, unless the job has one. -/
def ensurePendingBuildExists (jobID id : Nat) : SchedulingDB :=
  if db.builds.any fun b => b.jobID == jobID && b.status == .pending then db
  else db.insertBuild ⟨id, jobID, .pending, none, none, false, false, false, false⟩

/-! ## What the queries see -/

variable {db} {db' : SchedulingDB}

theorem mem_serialGroupsOf {jobID : Nat} {g : String} :
    g ∈ db.serialGroupsOf jobID ↔ (g, jobID) ∈ db.jobsSerialGroups := by
  simp [serialGroupsOf]

theorem inSerialGroups_iff {serialGroups : List String} {b : SchedulingBuildRow} :
    db.inSerialGroups serialGroups b = true ↔
      ∃ g ∈ serialGroups, (g, b.jobID) ∈ db.jobsSerialGroups := by
  simp only [inSerialGroups, List.any_eq_true, Bool.and_eq_true, beq_iff_eq, decide_eq_true_eq]
  constructor
  · rintro ⟨⟨g, jobID⟩, hmem, rfl, hg⟩
    exact ⟨g, hg, hmem⟩
  · rintro ⟨g, hg, hmem⟩
    exact ⟨(g, b.jobID), hmem, rfl, hg⟩

/-- The builds of the jobs `S` that are scheduled and not completed. -/
def runningOf (db : SchedulingDB) (S : Nat → Bool) : Nat :=
  db.builds.countP fun b => S b.jobID && b.completed == false && b.scheduled

/-- The running builds of jobs that share one of a job's groups are among the running builds
`getRunningBuildsBySerialGroup` returns for the job's groups. -/
theorem runningOf_le_running {S : Nat → Bool} {g : String} {serialGroups : List String}
    (hS : ∀ id, S id = true → (g, id) ∈ db.jobsSerialGroups) (hg : g ∈ serialGroups) :
    db.runningOf S ≤ (db.runningBuildsBySerialGroup serialGroups).length := by
  rw [runningOf, runningBuildsBySerialGroup, ← List.countP_eq_length_filter]
  refine List.countP_mono_left fun b _ hb => ?_
  simp only [isRunningIn, Bool.and_eq_true] at hb ⊢
  obtain ⟨⟨hin, hcompleted⟩, hscheduled⟩ := hb
  exact ⟨⟨inSerialGroups_iff.mpr ⟨g, hg, hS b.jobID hin⟩, hcompleted⟩, hscheduled⟩

/-! ## The config's columns -/

/-- The columns of `jobs` the config sets: each job's id and max in flight. -/
def jobLimits (db : SchedulingDB) : List (Nat × Int) :=
  db.jobs.map fun j => (j.id, j.maxInFlight)

/-- The columns the config sets are the same. -/
structure ConfigKept (db db' : SchedulingDB) : Prop where
  jobLimits : db'.jobLimits = db.jobLimits
  jobsSerialGroups : db'.jobsSerialGroups = db.jobsSerialGroups

theorem ConfigKept.refl (db : SchedulingDB) : ConfigKept db db := ⟨rfl, rfl⟩

theorem ConfigKept.trans {db'' : SchedulingDB} (h₁ : ConfigKept db db') (h₂ : ConfigKept db' db'') :
    ConfigKept db db'' :=
  ⟨h₂.jobLimits.trans h₁.jobLimits, h₂.jobsSerialGroups.trans h₁.jobsSerialGroups⟩

/-- A statement about every job's id and max in flight reads the config's columns only. -/
theorem forall_jobs_congr (h : db'.jobLimits = db.jobLimits) {P : Nat → Int → Prop} :
    (∀ j ∈ db'.jobs, P j.id j.maxInFlight) ↔ ∀ j ∈ db.jobs, P j.id j.maxInFlight := by
  have hlimits : ∀ d : SchedulingDB,
      (∀ j ∈ d.jobs, P j.id j.maxInFlight) ↔ ∀ p ∈ d.jobLimits, P p.1 p.2 := fun d => by
    simp [jobLimits]
  rw [hlimits, hlimits, h]

theorem ConfigKept.loadedFrom (h : ConfigKept db db') {j : SchedulerJob} (hj : j.LoadedFrom db) :
    j.LoadedFrom db' := by
  obtain ⟨row, hrow, hid, hmax⟩ := hj
  have hmem : (j.id, j.maxInFlight) ∈ db'.jobLimits := by
    rw [h.jobLimits, ← hid, ← hmax]
    exact List.mem_map_of_mem hrow
  obtain ⟨row', hrow', hrow'eq⟩ := List.mem_map.mp hmem
  simp only [Prod.mk.injEq] at hrow'eq
  exact ⟨row', hrow', hrow'eq.1, hrow'eq.2⟩

/-- The ids of the jobs' rows are the config's. -/
theorem ConfigKept.jobIds (h : ConfigKept db db') : db'.jobs.map (·.id) = db.jobs.map (·.id) := by
  have := congrArg (List.map Prod.fst) h.jobLimits
  simpa [SchedulingDB.jobLimits, List.map_map, Function.comp_def] using this

/-! ## Well-formed rows -/

/-- What every reachable state satisfies: a job in a serial group has a positive max in flight,
no two builds share an id, and every build row is consistent. -/
structure WellFormed (db : SchedulingDB) : Prop where
  maxInFlight_pos : ∀ j ∈ db.jobs, ∀ g, (g, j.id) ∈ db.jobsSerialGroups → 0 < j.maxInFlight
  buildIds_nodup : (db.builds.map (·.id)).Nodup
  consistent : ∀ b ∈ db.builds, b.Consistent

theorem WellFormed.of_configKept (hw : db.WellFormed) (hc : ConfigKept db db')
    (hids : db'.builds.map (·.id) = db.builds.map (·.id))
    (hrows : ∀ b ∈ db'.builds, b.Consistent) : db'.WellFormed where
  maxInFlight_pos := by
    rw [hc.jobsSerialGroups]
    exact (forall_jobs_congr
      (P := fun id mif => ∀ g, (g, id) ∈ db.jobsSerialGroups → 0 < mif) hc.jobLimits).mpr
      hw.maxInFlight_pos
  buildIds_nodup := hids ▸ hw.buildIds_nodup
  consistent := hrows

/-- An update of `builds` that keeps ids and consistency keeps the state well formed. -/
theorem WellFormed.of_updateWhere (hw : db.WellFormed) (hc : ConfigKept db db')
    {cond : SchedulingBuildRow → Bool} {f : SchedulingBuildRow → SchedulingBuildRow}
    (hbuilds : db'.builds = updateWhere cond f db.builds) (hid : ∀ b, cond b = true → (f b).id = b.id)
    (hrow : ∀ b ∈ db.builds, cond b = true → b.Consistent → (f b).Consistent) : db'.WellFormed :=
  hw.of_configKept hc (hbuilds ▸ map_updateWhere_of_key _ hid)
    (hbuilds ▸ forall_mem_updateWhere _ hw.consistent hrow)

theorem WellFormed.insertBuild (hw : db.WellFormed) {row : SchedulingBuildRow}
    (hid : ∀ b ∈ db.builds, b.id < row.id) (hrow : row.Consistent) :
    (db.insertBuild row).WellFormed where
  maxInFlight_pos := hw.maxInFlight_pos
  buildIds_nodup := by
    show ((db.builds ++ [row]).map (·.id)).Nodup
    rw [List.map_append, List.map_singleton]
    refine List.nodup_append.mpr ⟨hw.buildIds_nodup, List.nodup_singleton _, ?_⟩
    intro x hx y hy
    obtain ⟨b, hb, rfl⟩ := List.mem_map.mp hx
    rw [List.mem_singleton.mp hy]
    exact (hid b hb).ne
  consistent b hb := by
    rcases List.mem_append.mp hb with hb | hb
    · exact hw.consistent b hb
    · rw [List.mem_singleton.mp hb]
      exact hrow

/-- A pending row as `createBuild`, `rerunBuild` and `ensurePendingBuildExists` insert it. -/
theorem consistent_pending {b : SchedulingBuildRow} (hstatus : b.status = .pending)
    (hcompleted : b.completed = false) : b.Consistent where
  completed h := absurd h (by simp [hcompleted])
  started h := absurd (hstatus.symm.trans h) (by decide)

/-! ## Transactions that schedule nothing -/

/-- What every transaction but `ScheduleBuild` keeps: the config's columns, no set of jobs gains
a running build, and no build is newly scheduled. -/
structure Kept (db db' : SchedulingDB) : Prop extends ConfigKept db db' where
  running : ∀ S, db'.runningOf S ≤ db.runningOf S
  scheduled : ∀ b' ∈ db'.builds, b'.scheduled = true →
    ∃ b ∈ db.builds, b.id = b'.id ∧ b.jobID = b'.jobID ∧ b.scheduled = true

theorem Kept.of_builds_eq (hc : ConfigKept db db') (hb : db'.builds = db.builds) : Kept db db' where
  toConfigKept := hc
  running S := by rw [runningOf, runningOf, hb]
  scheduled b' hb' hs := ⟨b', hb ▸ hb', rfl, rfl, hs⟩

theorem updateJobs_kept {cond : SchedulingJobRow → Bool} {f : SchedulingJobRow → SchedulingJobRow}
    (h : ∀ j, cond j = true → (f j).id = j.id ∧ (f j).maxInFlight = j.maxInFlight) :
    Kept db (db.updateJobs cond f).2 :=
  Kept.of_builds_eq ⟨map_updateWhere_of_key _ fun j hj => by rw [(h j hj).1, (h j hj).2], rfl⟩ rfl

theorem updateBuilds_kept {cond : SchedulingBuildRow → Bool}
    {f : SchedulingBuildRow → SchedulingBuildRow} (h : ∀ b, cond b = true → (f b).Follows b) :
    Kept db (db.updateBuilds cond f).2 where
  jobLimits := rfl
  jobsSerialGroups := rfl
  running S := by
    refine countP_updateWhere_le_of _ fun b _ hc hrun => ?_
    have hf := h b hc
    simp only [Bool.and_eq_true, beq_iff_eq] at hrun ⊢
    rw [hf.jobID, hf.scheduled] at hrun
    exact ⟨⟨hrun.1.1, hf.reopens hrun.1.2⟩, hrun.2⟩
  scheduled b' hb' hs := by
    obtain ⟨b, hb, ⟨hc, hchanged⟩ | ⟨-, hkept⟩⟩ := exists_of_mem_updateWhere hb'
    · have hf := h b hc
      rw [hchanged] at hs ⊢
      exact ⟨b, hb, hf.id.symm, hf.jobID.symm, hf.scheduled ▸ hs⟩
    · rw [hkept] at hs ⊢
      exact ⟨b, hb, rfl, rfl, hs⟩

theorem insertBuild_kept {row : SchedulingBuildRow} (hrow : row.scheduled = false) :
    Kept db (db.insertBuild row) where
  jobLimits := rfl
  jobsSerialGroups := rfl
  running S := by
    simp [runningOf, insertBuild, List.countP_append, hrow]
  scheduled b' hb' hs := by
    rcases List.mem_append.mp hb' with hb' | hb'
    · exact ⟨b', hb', rfl, rfl, hs⟩
    · rw [List.mem_singleton.mp hb', hrow] at hs
      cases hs

/-- `Start` moves the build from pending to started unless it was aborted. -/
theorem start_builds (buildID : Nat) :
    (db.start buildID).2.builds =
      updateWhere (fun b => b.id == buildID && b.status == .pending && b.aborted == false)
        (fun b => { b with status := .started }) db.builds :=
  rfl

theorem start_kept (buildID : Nat) : Kept db (db.start buildID).2 :=
  updateBuilds_kept fun _ _ => ⟨rfl, rfl, rfl, id⟩

theorem finish_kept {buildID : Nat} {status : BuildStatus} (h : db.finish buildID status = .ok db') :
    Kept db db' := by
  unfold finish at h
  dsimp only at h
  split at h
  · cases h
  · cases h
    exact updateBuilds_kept fun _ _ => ⟨rfl, rfl, rfl, fun h => by cases h⟩

theorem markAsAborted_kept (buildID : Nat) : Kept db (db.markAsAborted buildID) :=
  updateBuilds_kept fun _ _ => ⟨rfl, rfl, rfl, id⟩

theorem setJobPaused_kept (jobID : Nat) (paused : Bool) : Kept db (db.setJobPaused jobID paused) :=
  updateJobs_kept fun _ _ => ⟨rfl, rfl⟩

theorem saveInputsDetermined_kept (jobID : Nat) (inputsDetermined : Bool) :
    Kept db (db.saveInputsDetermined jobID inputsDetermined) :=
  updateJobs_kept fun _ _ => ⟨rfl, rfl⟩

theorem ensurePendingBuildExists_kept (jobID id : Nat) :
    Kept db (db.ensurePendingBuildExists jobID id) := by
  unfold ensurePendingBuildExists
  split
  · exact Kept.of_builds_eq (ConfigKept.refl db) rfl
  · exact insertBuild_kept rfl

/-- Every build of `db` is still in `db'`, of the same job, and still scheduled if it was. -/
def Persists (db db' : SchedulingDB) : Prop :=
  ∀ b ∈ db.builds, ∃ b' ∈ db'.builds,
    b'.id = b.id ∧ b'.jobID = b.jobID ∧ (b.scheduled = true → b'.scheduled = true)

theorem Persists.refl (db : SchedulingDB) : Persists db db := fun b hb => ⟨b, hb, rfl, rfl, id⟩

theorem Persists.trans {db'' : SchedulingDB} (h₁ : Persists db db') (h₂ : Persists db' db'') :
    Persists db db'' := fun b hb => by
  obtain ⟨b', hb', hid, hjob, hs⟩ := h₁ b hb
  obtain ⟨b'', hb'', hid', hjob', hs'⟩ := h₂ b' hb'
  exact ⟨b'', hb'', hid'.trans hid, hjob'.trans hjob, hs' ∘ hs⟩

theorem Persists.of_builds_eq (hbuilds : db'.builds = db.builds) : Persists db db' :=
  fun b hb => ⟨b, hbuilds ▸ hb, rfl, rfl, id⟩

theorem Persists.of_updateWhere {cond : SchedulingBuildRow → Bool}
    {f : SchedulingBuildRow → SchedulingBuildRow} (hbuilds : db'.builds = updateWhere cond f db.builds)
    (hf : ∀ b, cond b = true →
      (f b).id = b.id ∧ (f b).jobID = b.jobID ∧ (b.scheduled = true → (f b).scheduled = true)) :
    Persists db db' := fun b hb => by
  rw [hbuilds]
  refine ⟨_, mem_updateWhere_of_mem hb, ?_⟩
  by_cases hc : cond b = true
  · rw [if_pos hc]
    exact hf b hc
  · rw [if_neg hc]
    exact ⟨rfl, rfl, id⟩

theorem Persists.insertBuild (row : SchedulingBuildRow) : Persists db (db.insertBuild row) :=
  fun b hb => ⟨b, List.mem_append_left _ hb, rfl, rfl, id⟩

/-- In a state with distinct build ids, the rows of a build that persisted are its row. -/
theorem Persists.jobID_eq (hp : Persists db db') (hw : db'.WellFormed) {b : SchedulingBuildRow}
    (hb : b ∈ db.builds) : ∀ x ∈ db'.builds, x.id = b.id → x.jobID = b.jobID ∧
      (b.scheduled = true → x.scheduled = true) := by
  intro x hx hid
  obtain ⟨b', hb', hid', hjob, hs⟩ := hp b hb
  have hx' : x = b' := List.inj_on_of_nodup_map hw.buildIds_nodup hx hb' (hid.trans hid'.symm)
  rw [hx']
  exact ⟨hjob, hs⟩

/-! ## The updates of `ScheduleBuild` -/

/-- The rows the updates of `ScheduleBuild` leave when they commit. -/
def scheduledRows (db : SchedulingDB) (j : SchedulerJob) (build : SchedulingBuildRow)
    (reached : Bool) : SchedulingDB :=
  { db with
    jobs := updateWhere (·.id == j.id) (fun row => { row with maxInFlightReached := reached }) db.jobs
    builds := if reached then db.builds
      else updateWhere (·.id == build.id) (fun b => { b with scheduled := true }) db.builds }

variable {j : SchedulerJob} {build : SchedulingBuildRow} {reached scheduled : Bool}

/-- The updates commit what they say, and answer whether they scheduled the build. -/
theorem scheduleBuildUpdates_eq_ok (h : db.scheduleBuildUpdates j build reached = .ok (scheduled, db')) :
    scheduled = !reached ∧ db' = db.scheduledRows j build reached := by
  unfold scheduleBuildUpdates at h
  dsimp only at h
  split at h
  · cases h
  cases reached with
  | false =>
    simp only [Bool.not_false, ↓reduceIte] at h
    split at h
    · cases h
    · cases h
      exact ⟨rfl, rfl⟩
  | true =>
    simp only [Bool.not_true, Bool.false_eq_true, ↓reduceIte] at h
    cases h
    exact ⟨rfl, rfl⟩

/-- The updates commit when the job has its row, and, if they schedule the build, the build
has its row. -/
theorem scheduleBuildUpdates_eq_ok_of_countP (hjob : db.jobs.countP (·.id == j.id) = 1)
    (hbuild : reached = false → db.builds.countP (·.id == build.id) = 1) :
    db.scheduleBuildUpdates j build reached = .ok (!reached, db.scheduledRows j build reached) := by
  unfold scheduleBuildUpdates
  cases reached with
  | false => simp [updateJobs, updateBuilds, hjob, hbuild rfl, scheduledRows]
  | true => simp [updateJobs, hjob, scheduledRows]

theorem scheduledRows_configKept : ConfigKept db (db.scheduledRows j build reached) :=
  ⟨map_updateWhere_of_key _ fun _ _ => rfl, rfl⟩

/-- Only the build's rows change, to scheduled. -/
theorem scheduledRows_builds :
    (db.scheduledRows j build reached).builds =
      updateWhere (fun b => !reached && b.id == build.id) (fun b => { b with scheduled := true })
        db.builds := by
  cases reached with
  | false => rfl
  | true => simp [scheduledRows, updateWhere]

theorem scheduledRows_persists : Persists db (db.scheduledRows j build reached) :=
  Persists.of_updateWhere scheduledRows_builds fun _ _ => ⟨rfl, rfl, fun _ => rfl⟩

theorem WellFormed.scheduledRows (hw : db.WellFormed) : (db.scheduledRows j build reached).WellFormed :=
  hw.of_updateWhere scheduledRows_configKept scheduledRows_builds (fun _ _ => rfl) fun _ _ _ hb =>
    ⟨hb.completed, fun hs => ⟨rfl, (hb.started hs).2⟩⟩

/-- The jobs' `paused` and `inputs_determined` stay as they were. -/
theorem jobSchedulable_scheduledRows (b : SchedulingBuildRow) :
    (db.scheduledRows j build reached).jobSchedulable b = db.jobSchedulable b := by
  simp only [jobSchedulable, scheduledRows, updateWhere, List.any_map, Function.comp_def]
  congr 1
  funext row
  split <;> rfl

/-- Scheduling the build of a job running fewer than `m` builds leaves it at most `m`. -/
theorem runningOf_scheduledRows_le (hw : db.WellFormed) (S : Nat → Bool) :
    (db.scheduledRows j build reached).runningOf S ≤ db.runningOf S + 1 := by
  rw [runningOf, scheduledRows_builds]
  have hone : db.builds.countP (fun b => !reached && b.id == build.id) ≤ 1 :=
    (List.countP_mono_left fun b _ hb => by simp_all).trans
      (countP_key_le_one _ hw.buildIds_nodup build.id)
  exact (countP_updateWhere_le _).trans (Nat.add_le_add_left hone _)

/-- The rows of jobs other than the build's keep their running builds. -/
theorem runningOf_scheduledRows_le_of (S : Nat → Bool)
    (hS : reached = false → ∀ b ∈ db.builds, b.id = build.id → S b.jobID = false) :
    (db.scheduledRows j build reached).runningOf S ≤ db.runningOf S := by
  rw [runningOf, scheduledRows_builds]
  refine countP_updateWhere_le_of _ fun b hb hc hrun => ?_
  simp only [Bool.and_eq_true, Bool.not_eq_true', beq_iff_eq] at hc
  simp only [Bool.and_eq_true] at hrun
  rw [hS hc.1 b hb hc.2] at hrun
  exact absurd hrun.1.1 (by decide)

/-- `ScheduleBuild` run alone: its answer, and the rows after it. -/
theorem scheduleBuild_eq_ok (h : db.scheduleBuild j build = .ok (scheduled, db')) :
    (build.scheduled = true ∧ scheduled = true ∧ db' = db) ∨
      (build.scheduled = false ∧ (j.paused || j.pipelinePaused) = true ∧ scheduled = false ∧
        db' = db) ∨
      (build.scheduled = false ∧ (j.paused || j.pipelinePaused) = false ∧
        db.scheduleBuildUpdates j build (db.isMaxInFlightReached j build.id) = .ok (scheduled, db')) := by
  unfold scheduleBuild at h
  split at h
  · cases h
    exact .inl ⟨‹_›, rfl, rfl⟩
  split at h
  · cases h
    exact .inr (.inl ⟨Bool.eq_false_iff.mpr ‹_›, ‹_›, rfl, rfl⟩)
  · exact .inr (.inr ⟨Bool.eq_false_iff.mpr ‹_›, Bool.eq_false_iff.mpr ‹_›, h⟩)

/-- `ScheduleBuild` says a build is scheduled when it was already, or when it marked it so. -/
theorem scheduleBuild_eq_ok_true (h : db.scheduleBuild j build = .ok (true, db')) :
    build.scheduled = true ∧ db' = db ∨
      db'.builds = updateWhere (·.id == build.id) (fun b => { b with scheduled := true })
        db.builds := by
  rcases scheduleBuild_eq_ok h with ⟨hs, -, rfl⟩ | ⟨-, -, hf, -⟩ | ⟨-, -, hup⟩
  · exact .inl ⟨hs, rfl⟩
  · cases hf
  · obtain ⟨hreached, rfl⟩ := scheduleBuildUpdates_eq_ok hup
    right
    cases hr : db.isMaxInFlightReached j build.id
    · rfl
    · rw [hr] at hreached
      cases hreached

/-! ## The pipeline from its config -/

theorem mem_savedPipeline_jobsSerialGroups {configs : List (Nat × SerialJobConfig)} {g : String}
    {id : Nat} : (g, id) ∈ (savedPipeline configs).jobsSerialGroups ↔
      ∃ c ∈ configs, c.1 = id ∧ g ∈ c.2.registeredSerialGroups := by
  simp only [savedPipeline, List.mem_flatMap, List.mem_map, Prod.mk.injEq]
  constructor
  · rintro ⟨c, hc, g', hg', rfl, rfl⟩
    exact ⟨c, hc, rfl, hg'⟩
  · rintro ⟨c, hc, rfl, hg⟩
    exact ⟨c, hc, g, hg, rfl, rfl⟩

theorem wellFormed_savedPipeline {configs : List (Nat × SerialJobConfig)}
    (hids : (configs.map (·.1)).Nodup) : (savedPipeline configs).WellFormed where
  maxInFlight_pos j hj g hg := by
    obtain ⟨c, hc, rfl⟩ := List.mem_map.mp hj
    obtain ⟨c', hc', hid, hg'⟩ := mem_savedPipeline_jobsSerialGroups.mp hg
    -- the group's row names the job's id, which only this config has
    rw [List.inj_on_of_nodup_map hids hc' hc hid] at hg'
    exact SerialJobConfig.maxInFlight_pos_of_mem hg'
  buildIds_nodup := List.nodup_nil
  consistent _ hb := absurd hb List.not_mem_nil

/-- The builds of the jobs `S` that are started. -/
def startedOf (db : SchedulingDB) (S : Nat → Bool) : Nat :=
  db.builds.countP fun b => S b.jobID && b.status == .started

/-- A started build is scheduled and not completed. -/
theorem WellFormed.startedOf_le (hw : db.WellFormed) (S : Nat → Bool) :
    db.startedOf S ≤ db.runningOf S :=
  List.countP_mono_left fun b hb hs => by
    simp only [Bool.and_eq_true, beq_iff_eq] at hs ⊢
    obtain ⟨hscheduled, hcompleted⟩ := (hw.consistent b hb).started hs.2
    exact ⟨⟨hs.1, hcompleted⟩, hscheduled⟩

end SchedulingDB

open SchedulingDB

/-- A transaction on the pipeline's scheduling rows other than `ScheduleBuild`, by the scheduler
or by anything else that writes them, under one saved config.  Each commits at once. -/
inductive CommitStep : SchedulingDB → SchedulingDB → Prop
  /-- `build.Start`, which only the build starter calls, on a build `ScheduleBuild` scheduled. -/
  | start {db : SchedulingDB} {buildID : Nat}
      (hscheduled : ∀ b ∈ db.builds, b.id = buildID → b.scheduled = true) :
      CommitStep db (db.start buildID).2
  /-- `build.Finish` with a final status. -/
  | finish {db db' : SchedulingDB} {buildID : Nat} {status : BuildStatus}
      (hfinal : status.isCompleted = true) (h : db.finish buildID status = .ok db') :
      CommitStep db db'
  | markAsAborted (db : SchedulingDB) (buildID : Nat) : CommitStep db (db.markAsAborted buildID)
  | createBuild {db : SchedulingDB} {jobID id : Nat} (hid : ∀ b ∈ db.builds, b.id < id) :
      CommitStep db (db.createBuild jobID id)
  | rerunBuild {db : SchedulingDB} {jobID id : Nat} {buildToRerun : SchedulingBuildRow}
      (hb : buildToRerun ∈ db.builds) (hid : ∀ b ∈ db.builds, b.id < id) :
      CommitStep db (db.rerunBuild jobID id buildToRerun)
  | ensurePendingBuildExists {db : SchedulingDB} {jobID id : Nat}
      (hid : ∀ b ∈ db.builds, b.id < id) :
      CommitStep db (db.ensurePendingBuildExists jobID id)
  | setJobPaused (db : SchedulingDB) (jobID : Nat) (paused : Bool) :
      CommitStep db (db.setJobPaused jobID paused)
  | saveInputsDetermined (db : SchedulingDB) (jobID : Nat) (inputsDetermined : Bool) :
      CommitStep db (db.saveInputsDetermined jobID inputsDetermined)
  | setPipelinePaused (db : SchedulingDB) (paused : Bool) :
      CommitStep db (db.setPipelinePaused paused)
  | archive (db : SchedulingDB) : CommitStep db db.archive

namespace CommitStep

variable {db db' : SchedulingDB}

/-- No transaction but `ScheduleBuild` schedules a build or changes the config's columns. -/
theorem kept (h : CommitStep db db') : Kept db db' := by
  cases h with
  | start => exact start_kept _
  | finish _ h => exact finish_kept h
  | markAsAborted => exact markAsAborted_kept _
  | createBuild => exact insertBuild_kept rfl
  | rerunBuild => exact insertBuild_kept rfl
  | ensurePendingBuildExists => exact ensurePendingBuildExists_kept _ _
  | setJobPaused => exact setJobPaused_kept _ _
  | saveInputsDetermined => exact saveInputsDetermined_kept _ _
  | setPipelinePaused => exact Kept.of_builds_eq ⟨rfl, rfl⟩ rfl
  | archive => exact Kept.of_builds_eq ⟨rfl, rfl⟩ rfl

theorem wellFormed (h : CommitStep db db') (hw : db.WellFormed) : db'.WellFormed := by
  cases h with
  | start hscheduled =>
    refine hw.of_updateWhere ⟨rfl, rfl⟩ rfl (fun _ _ => rfl) fun b hb hc hcons => ?_
    simp only [Bool.and_eq_true, beq_iff_eq] at hc
    obtain ⟨⟨hid, hpending⟩, -⟩ := hc
    -- a pending build is not completed, and this one is scheduled
    have hcompleted : b.completed = false := by
      cases hcb : b.completed
      · rfl
      · have hfinal := hcons.completed hcb
        rw [hpending] at hfinal
        cases hfinal
    exact ⟨fun h => absurd h (by simp [hcompleted]), fun _ => ⟨hscheduled b hb hid, hcompleted⟩⟩
  | @finish _ _ status hfinal h =>
    unfold SchedulingDB.finish at h
    dsimp only at h
    split at h
    · cases h
    · cases h
      refine hw.of_updateWhere ⟨rfl, rfl⟩ rfl (fun _ _ => rfl) fun _ _ _ _ =>
        ⟨fun _ => hfinal, fun hs => ?_⟩
      -- a final status is not `started`
      have hstarted : status = .started := hs
      rw [hstarted] at hfinal
      cases hfinal
  | markAsAborted =>
    exact hw.of_updateWhere ⟨rfl, rfl⟩ rfl (fun _ _ => rfl) fun _ _ _ hb =>
      ⟨hb.completed, hb.started⟩
  | createBuild hid => exact hw.insertBuild hid (consistent_pending rfl rfl)
  | rerunBuild _ hid => exact hw.insertBuild hid (consistent_pending rfl rfl)
  | ensurePendingBuildExists hid =>
    unfold SchedulingDB.ensurePendingBuildExists
    split
    · exact hw
    · exact hw.insertBuild hid (consistent_pending rfl rfl)
  | setJobPaused => exact hw.of_configKept (setJobPaused_kept _ _).toConfigKept rfl hw.consistent
  | saveInputsDetermined =>
    exact hw.of_configKept (saveInputsDetermined_kept _ _).toConfigKept rfl hw.consistent
  | setPipelinePaused => exact hw.of_configKept ⟨rfl, rfl⟩ rfl hw.consistent
  | archive => exact hw.of_configKept ⟨rfl, rfl⟩ rfl hw.consistent

/-- No transaction deletes a build, moves it to another job or unschedules it. -/
theorem persists (h : CommitStep db db') : Persists db db' := by
  cases h with
  | start => exact Persists.of_updateWhere rfl fun _ _ => ⟨rfl, rfl, id⟩
  | finish _ h =>
    unfold SchedulingDB.finish at h
    dsimp only at h
    split at h
    · cases h
    · cases h
      exact Persists.of_updateWhere rfl fun _ _ => ⟨rfl, rfl, id⟩
  | markAsAborted => exact Persists.of_updateWhere rfl fun _ _ => ⟨rfl, rfl, id⟩
  | createBuild => exact Persists.insertBuild _
  | rerunBuild => exact Persists.insertBuild _
  | ensurePendingBuildExists =>
    unfold SchedulingDB.ensurePendingBuildExists
    split
    · exact Persists.refl _
    · exact Persists.insertBuild _
  | setJobPaused => exact Persists.of_builds_eq rfl
  | saveInputsDetermined => exact Persists.of_builds_eq rfl
  | setPipelinePaused => exact Persists.of_builds_eq rfl
  | archive => exact Persists.of_builds_eq rfl

end CommitStep

end Db
end Concourse
