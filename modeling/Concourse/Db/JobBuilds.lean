import Concourse.Db.UnusedBuilds

/-!
# The latest, next and transition builds of a job

`build.Finish` writes the build's final status and, for a build of a job, keeps three
columns of the job's row in the same transaction.  `updateTransitionBuildForJob` runs first,
against the job's previous `latest_completed_build_id`.  Then `latestCompletedNonRerunBuild`
finds the newest completed build that reruns nothing, `updateLatestCompletedBuildForJob`
takes the newest completed rerun of it, or that build itself, and `updateNextBuildForJob`
takes the oldest build still to run.  `job.CreateBuild` and `job.RerunBuild` add a pending
build and recompute `next_build_id` only.

Over every run in which builds are created with increasing ids, reruns rerun a build of
the job, and each build finishes once with a final status, the latest and the transition
build of the job are completed builds of it (`wellFormed_of_reachable`).  Without reruns
the transition build also has the status of the latest completed build
(`transitionAgrees_of_reachable`).  With reruns it need not.  The transition update takes
a rerun's change of status only when it reruns the latest completed build itself, so a
second rerun of one build that changes the status back is no transition, and yet becomes
the latest completed build (`finish_rerun_transitionBuild_stale`).
-/

namespace Concourse
namespace Db

/-- `status NOT IN ('pending', 'started')`. -/
def BuildStatus.isCompleted : BuildStatus → Bool
  | .pending | .started => false
  | .succeeded | .failed | .errored | .aborted => true

/-- The columns of a row of `jobs` that creating and finishing builds keep. -/
structure JobRow where
  latestCompletedBuildId : Option Nat
  nextBuildId : Option Nat
  transitionBuildId : Option Nat
  deriving DecidableEq, Repr

/-- `latestCompletedBuildQuery` with the conditions added to it: `max(id)` of the completed
builds that pass them, `NULL` when there is none. -/
def latestCompletedBuildQuery (builds : List BuildRow) (cond : BuildRow → Bool) : Option Nat :=
  ((builds.filter fun b => b.status.isCompleted && cond b).map (·.id)).max?

/-- The condition of `latestCompletedNonRerunBuild`: a build of the job that reruns none. -/
def BuildRow.isNonRerunOf (jobID : Nat) (b : BuildRow) : Bool :=
  b.jobID == jobID && b.rerunOf.isNone && b.rerunOfOld.isNone

/-- `latestCompletedNonRerunBuild(jobID)`.  Scanning the `NULL` of an empty `max(id)` into an
`int` fails, and the error is dropped, so no such build gives `0`. -/
def latestCompletedNonRerunBuild (builds : List BuildRow) (jobID : Nat) : Nat :=
  (latestCompletedBuildQuery builds (BuildRow.isNonRerunOf jobID)).getD 0

/-- `updateNextBuildForJob(jobID, latestNonRerunId)`: the oldest pending or started build
that reruns none, or reruns the latest completed build that reruns none. -/
def updateNextBuildForJob (builds : List BuildRow) (jobID latestNonRerunId : Nat)
    (job : JobRow) : JobRow :=
  { job with
    nextBuildId := ((builds.filter fun b =>
      b.jobID == jobID && !b.status.isCompleted &&
        ((b.rerunOf.isNone && b.rerunOfOld.isNone) ||
          (b.rerunOf == some latestNonRerunId || b.rerunOfOld == some latestNonRerunId))).map
        (·.id)).min? }

/-- The error of a `latest_completed_build_id` that references no build. -/
def latestCompletedBuildForeignKeyError : String :=
  "insert or update on table \"jobs\" violates foreign key constraint " ++
    "\"jobs_latest_completed_build_id_fkey\""

/-- The condition `rerunOfCheck` of `updateLatestCompletedBuildForJob`: ids above `MaxInt32`
are not looked for in `rerun_of_old`. -/
def rerunOfCheck (latestNonRerunId : Nat) (b : BuildRow) : Bool :=
  if latestNonRerunId > maxInt32 then b.rerunOf == some latestNonRerunId
  else b.rerunOf == some latestNonRerunId || b.rerunOfOld == some latestNonRerunId

/-- `updateLatestCompletedBuildForJob(jobID, latestNonRerunId)`: the newest completed rerun of
the build, or the build itself.  The column references `builds (id)`. -/
def updateLatestCompletedBuildForJob (builds : List BuildRow) (jobID latestNonRerunId : Nat)
    (job : JobRow) : Except String JobRow :=
  let id := (latestCompletedBuildQuery builds fun b =>
    b.jobID == jobID && rerunOfCheck latestNonRerunId b).getD latestNonRerunId
  if builds.any (·.id == id) then .ok { job with latestCompletedBuildId := some id }
  else .error latestCompletedBuildForeignKeyError

/-- `isNotRerunBuild`: `RerunOf()` is `0` for a build that reruns none. -/
def isNotRerunBuild (rerunID : Nat) : Bool :=
  rerunID == 0

/-- `updateTransitionBuildForJob(jobID, buildID, buildStatus, rerunID)`, against the build
`latest_completed_build_id` references.  Without one, `latestID` and `latestStatus` keep
their zero values `0` and `""`, here `none`. -/
def updateTransitionBuildForJob (builds : List BuildRow) (job : JobRow) (buildID : Nat)
    (buildStatus : BuildStatus) (rerunID : Nat) : JobRow :=
  let latest := job.latestCompletedBuildId.bind fun id =>
    (builds.find? (·.id == id)).map fun b => (b.id, b.status)
  let latestID := (latest.map Prod.fst).getD 0
  let latestStatus := latest.map Prod.snd
  -- a later build has completed already: this one has no influence on the job's state
  if buildID < latestID then job
  else if latest.isNone ||
      (latestStatus != some buildStatus && (isNotRerunBuild rerunID || rerunID == latestID)) then
    { job with transitionBuildId := some buildID }
  else job

/-- The builds of the job `jobID`, and the job's row.  The builds of other jobs are not read
by the job's bookkeeping. -/
structure JobBuilds where
  jobID : Nat
  builds : List BuildRow
  job : JobRow
  deriving DecidableEq, Repr

namespace JobBuilds

/-- A job with no builds. -/
def new (jobID : Nat) : JobBuilds :=
  ⟨jobID, [], ⟨none, none, none⟩⟩

/-- The builds after `UPDATE builds SET status = status WHERE id = buildID`. -/
def setStatus (builds : List BuildRow) (buildID : Nat) (status : BuildStatus) : List BuildRow :=
  builds.map fun b => if b.id = buildID then { b with status } else b

/-- `build.Finish(status)`: the build's status, then the job's bookkeeping, in one
transaction.  An error rolls it back. -/
def finish (t : JobBuilds) (buildID : Nat) (status : BuildStatus) : Except String JobBuilds :=
  match t.builds.find? (·.id == buildID) with
  | none => .error "sql: no rows in result set"
  | some b =>
    let builds := setStatus t.builds buildID status
    if b.jobID != 0 then do
      let job := updateTransitionBuildForJob builds t.job buildID status (b.rerunOfAny.getD 0)
      let latestNonRerunID := latestCompletedNonRerunBuild builds b.jobID
      let job ← updateLatestCompletedBuildForJob builds b.jobID latestNonRerunID job
      pure ⟨t.jobID, builds, updateNextBuildForJob builds b.jobID latestNonRerunID job⟩
    else .ok { t with builds }

/-- A pending build inserted by `createBuild`, then `next_build_id` recomputed in the same
transaction. -/
def addBuild (t : JobBuilds) (row : BuildRow) : JobBuilds :=
  let builds := t.builds ++ [row]
  { t with
    builds
    job := updateNextBuildForJob builds t.jobID (latestCompletedNonRerunBuild builds t.jobID)
      t.job }

/-- `job.CreateBuild`: a pending build of the job, with the id `id` the sequence gives. -/
def createBuild (t : JobBuilds) (id : Nat) : JobBuilds :=
  t.addBuild ⟨id, t.jobID, .pending, none, none⟩

/-- `job.RerunBuild(buildToRerun)`: a pending rerun of the build, or of the build it
reruns. -/
def rerunBuild (t : JobBuilds) (id : Nat) (buildToRerun : BuildRow) : JobBuilds :=
  let buildToRerunID :=
    if buildToRerun.rerunOfAny.getD 0 != 0 then buildToRerun.rerunOfAny.getD 0
    else buildToRerun.id
  t.addBuild ⟨id, t.jobID, .pending, some buildToRerunID, none⟩

@[simp] theorem addBuild_jobID (t : JobBuilds) (row : BuildRow) :
    (t.addBuild row).jobID = t.jobID := rfl

@[simp] theorem addBuild_builds (t : JobBuilds) (row : BuildRow) :
    (t.addBuild row).builds = t.builds ++ [row] := rfl

@[simp] theorem addBuild_latestCompletedBuildId (t : JobBuilds) (row : BuildRow) :
    (t.addBuild row).job.latestCompletedBuildId = t.job.latestCompletedBuildId := rfl

@[simp] theorem addBuild_transitionBuildId (t : JobBuilds) (row : BuildRow) :
    (t.addBuild row).job.transitionBuildId = t.job.transitionBuildId := rfl

/-- What happens to the builds of a job: builds are created with increasing ids, a rerun
reruns a build of the job, and a build not yet completed finishes with a final status. -/
inductive Step : JobBuilds → JobBuilds → Prop
  | createBuild {t : JobBuilds} {id : Nat} (hpos : 0 < id) (hid : ∀ b ∈ t.builds, b.id < id) :
      Step t (t.createBuild id)
  | rerunBuild {t : JobBuilds} {id : Nat} {b : BuildRow} (hb : b ∈ t.builds) (hpos : 0 < id)
      (hid : ∀ b ∈ t.builds, b.id < id) : Step t (t.rerunBuild id b)
  | finish {t t' : JobBuilds} {b : BuildRow} {status : BuildStatus} (hb : b ∈ t.builds)
      (hrunning : b.status.isCompleted = false) (hfinal : status.isCompleted = true)
      (h : t.finish b.id status = .ok t') : Step t t'

/-- The states of a job's builds that its runs reach. -/
inductive Reachable : JobBuilds → Prop
  | new (jobID : Nat) : Reachable (new jobID)
  | step {t t' : JobBuilds} : Reachable t → Step t t' → Reachable t'

end JobBuilds

/-! ## Statuses and the latest completed build -/

/-- The status of the build `id`, in the row `find?` meets first. -/
def statusOf (builds : List BuildRow) (id : Nat) : Option BuildStatus :=
  (builds.find? (·.id == id)).map (·.status)

/-- A list of numbers has its largest element by what it holds, not by its order. -/
theorem max?_eq_of_mem_iff {l₁ l₂ : List Nat} (h : ∀ x, x ∈ l₁ ↔ x ∈ l₂) :
    l₁.max? = l₂.max? := by
  cases h₂ : l₂.max? with
  | none =>
    rw [List.max?_eq_none_iff] at h₂ ⊢
    subst h₂
    exact List.eq_nil_iff_forall_not_mem.mpr fun x hx => by simpa using (h x).mp hx
  | some m =>
    rw [List.max?_eq_some_iff] at h₂ ⊢
    exact ⟨(h m).mpr h₂.1, fun b hb => h₂.2 b ((h b).mp hb)⟩

theorem mem_latestCompletedBuildQuery_ids {builds : List BuildRow} {cond : BuildRow → Bool}
    {x : Nat} :
    x ∈ (builds.filter fun b => b.status.isCompleted && cond b).map (·.id) ↔
      ∃ b ∈ builds, b.status.isCompleted ∧ cond b ∧ b.id = x := by
  simp [and_assoc]

theorem latestCompletedBuildQuery_eq_none {builds : List BuildRow} {cond : BuildRow → Bool}
    (h : ∀ b ∈ builds, b.status.isCompleted → cond b → False) :
    latestCompletedBuildQuery builds cond = none := by
  rw [latestCompletedBuildQuery, List.max?_eq_none_iff, List.eq_nil_iff_forall_not_mem]
  intro x hx
  obtain ⟨b, hb, hcompleted, hcond, -⟩ := mem_latestCompletedBuildQuery_ids.mp hx
  exact h b hb hcompleted hcond

theorem exists_of_latestCompletedBuildQuery_eq_some {builds : List BuildRow}
    {cond : BuildRow → Bool} {m : Nat} (h : latestCompletedBuildQuery builds cond = some m) :
    ∃ b ∈ builds, b.status.isCompleted ∧ cond b ∧ b.id = m :=
  mem_latestCompletedBuildQuery_ids.mp (List.max?_eq_some_iff.mp h).1

theorem latestCompletedBuildQuery_append_of_not_completed {builds : List BuildRow}
    {row : BuildRow} (hrow : row.status.isCompleted = false) (cond : BuildRow → Bool) :
    latestCompletedBuildQuery (builds ++ [row]) cond = latestCompletedBuildQuery builds cond := by
  simp [latestCompletedBuildQuery, List.filter_append, hrow]

namespace JobBuilds

@[simp] theorem setStatus_map_id (builds : List BuildRow) (buildID : Nat) (status : BuildStatus) :
    (setStatus builds buildID status).map (·.id) = builds.map (·.id) := by
  simp only [setStatus, List.map_map]
  congr 1
  funext b
  simp only [Function.comp_apply]
  split <;> rfl

/-- A row after the update is a row before it, with a status. -/
theorem exists_of_mem_setStatus {builds : List BuildRow} {buildID : Nat} {status : BuildStatus}
    {r : BuildRow} (h : r ∈ setStatus builds buildID status) :
    ∃ r₀ ∈ builds, ∃ s : BuildStatus, r = { r₀ with status := s } := by
  obtain ⟨r₀, hr₀, rfl⟩ := List.mem_map.mp h
  refine ⟨r₀, hr₀, ?_⟩
  split
  · exact ⟨status, rfl⟩
  · exact ⟨r₀.status, rfl⟩

/-- A completed build stays completed when a build finishes. -/
theorem exists_completed_setStatus {builds : List BuildRow} {buildID id : Nat}
    {status : BuildStatus} (hfinal : status.isCompleted = true)
    (h : ∃ b ∈ builds, b.id = id ∧ b.status.isCompleted) :
    ∃ b ∈ setStatus builds buildID status, b.id = id ∧ b.status.isCompleted := by
  obtain ⟨b, hb, hid, hcompleted⟩ := h
  refine ⟨if b.id = buildID then { b with status } else b, List.mem_map_of_mem hb, ?_⟩
  split
  · exact ⟨hid, hfinal⟩
  · exact ⟨hid, hcompleted⟩

theorem statusOf_setStatus (builds : List BuildRow) (buildID id : Nat) (status : BuildStatus) :
    statusOf (setStatus builds buildID status) id =
      if id = buildID then (statusOf builds id).map fun _ => status else statusOf builds id := by
  -- the update keeps every id, so `find?` meets the same row
  have hp : ((fun x : BuildRow => x.id == id) ∘
      fun b : BuildRow => if b.id = buildID then { b with status } else b) =
      fun x : BuildRow => x.id == id := by
    funext b
    simp only [Function.comp_apply]
    split <;> rfl
  simp only [statusOf, setStatus, List.find?_map, hp, Option.map_map]
  cases h : builds.find? (·.id == id) with
  | none => simp
  | some r =>
    have hr : r.id = id := by simpa using List.find?_some h
    by_cases hi : id = buildID <;> simp [hi, hr]

theorem statusOf_of_mem {builds : List BuildRow} (hnodup : (builds.map (·.id)).Nodup)
    {b : BuildRow} (hb : b ∈ builds) : statusOf builds b.id = some b.status := by
  induction builds with
  | nil => simp at hb
  | cons r rs ih =>
    rw [List.map_cons, List.nodup_cons] at hnodup
    rcases List.mem_cons.mp hb with rfl | hmem
    · simp [statusOf]
    · -- `b` is further on, and the first row has another id
      have hne : r.id ≠ b.id := fun h => hnodup.1 (h ▸ List.mem_map_of_mem hmem)
      have hbeq : (r.id == b.id) = false := beq_false_of_ne hne
      simp only [statusOf, List.find?_cons, hbeq] at ih ⊢
      exact ih hnodup.2 hmem

/-- The build a finish leaves alone keeps its status. -/
theorem statusOf_setStatus_of_ne {builds : List BuildRow} {buildID id : Nat}
    {status : BuildStatus} (h : id ≠ buildID) :
    statusOf (setStatus builds buildID status) id = statusOf builds id := by
  rw [statusOf_setStatus, if_neg h]

/-- A completed build is not the build that finishes. -/
theorem ne_of_completed {builds : List BuildRow} (hnodup : (builds.map (·.id)).Nodup)
    {b : BuildRow} (hb : b ∈ builds) (hrunning : b.status.isCompleted = false) {id : Nat}
    (h : ∃ r ∈ builds, r.id = id ∧ r.status.isCompleted) : id ≠ b.id := by
  obtain ⟨r, hr, rfl, hcompleted⟩ := h
  intro hid
  have hrb : r = b := List.inj_on_of_nodup_map hnodup hr hb hid
  rw [hrb, hrunning] at hcompleted
  exact Bool.false_ne_true hcompleted

/-- When a build that had not completed finishes, the completed builds that pass a condition
on the other columns gain it. -/
theorem mem_completed_setStatus {builds : List BuildRow} (hnodup : (builds.map (·.id)).Nodup)
    {b : BuildRow} (hb : b ∈ builds) (hrunning : b.status.isCompleted = false)
    {status : BuildStatus} (hfinal : status.isCompleted = true) {cond : BuildRow → Bool}
    (hcond : ∀ r (s : BuildStatus), cond { r with status := s } = cond r) (x : Nat) :
    (∃ r ∈ setStatus builds b.id status, r.status.isCompleted ∧ cond r ∧ r.id = x) ↔
      (∃ r ∈ builds, r.status.isCompleted ∧ cond r ∧ r.id = x) ∨ (cond b ∧ b.id = x) := by
  constructor
  · rintro ⟨r, hr, hcompleted, hc, rfl⟩
    obtain ⟨r₀, hr₀, rfl⟩ := List.mem_map.mp hr
    by_cases hid : r₀.id = b.id
    · -- the row updated is `b` itself
      have hrb : r₀ = b := List.inj_on_of_nodup_map hnodup hr₀ hb hid
      subst hrb
      rw [if_pos rfl, hcond] at hc
      exact Or.inr ⟨hc, by simp⟩
    · simp only [hid, if_false] at hcompleted hc ⊢
      exact Or.inl ⟨r₀, hr₀, hcompleted, hc, rfl⟩
  · rintro (⟨r, hr, hcompleted, hc, rfl⟩ | ⟨hc, rfl⟩)
    · have hne := ne_of_completed hnodup hb hrunning ⟨r, hr, rfl, hcompleted⟩
      refine ⟨r, List.mem_map.mpr ⟨r, hr, ?_⟩, hcompleted, hc, rfl⟩
      simp [hne]
    · refine ⟨{ b with status }, List.mem_map.mpr ⟨b, hb, by simp⟩, hfinal, ?_, rfl⟩
      rw [hcond]
      exact hc

/-- Finishing a build that had not completed makes it the newest completed build that
passes a condition on the other columns, unless a newer one does. -/
theorem latestCompletedBuildQuery_setStatus {builds : List BuildRow}
    (hnodup : (builds.map (·.id)).Nodup) {b : BuildRow} (hb : b ∈ builds)
    (hrunning : b.status.isCompleted = false) {status : BuildStatus}
    (hfinal : status.isCompleted = true) {cond : BuildRow → Bool}
    (hcond : ∀ r (s : BuildStatus), cond { r with status := s } = cond r) :
    latestCompletedBuildQuery (setStatus builds b.id status) cond =
      if cond b then some ((latestCompletedBuildQuery builds cond).elim b.id (max b.id))
      else latestCompletedBuildQuery builds cond := by
  have hmem := mem_completed_setStatus hnodup hb hrunning hfinal hcond
  by_cases hc : cond b
  · rw [if_pos hc, latestCompletedBuildQuery, latestCompletedBuildQuery, ← List.max?_cons]
    apply max?_eq_of_mem_iff
    intro x
    rw [mem_latestCompletedBuildQuery_ids, hmem, List.mem_cons, mem_latestCompletedBuildQuery_ids]
    simp only [hc, true_and]
    exact or_comm.trans (or_congr_left eq_comm)
  · rw [if_neg hc, latestCompletedBuildQuery, latestCompletedBuildQuery]
    apply max?_eq_of_mem_iff
    intro x
    rw [mem_latestCompletedBuildQuery_ids, hmem, mem_latestCompletedBuildQuery_ids]
    simp [hc]

/-! ## One finish -/

/-- The join of `updateTransitionBuildForJob` reads the status of the build it meets. -/
theorem find?_map_id_status (builds : List BuildRow) (id : Nat) :
    (builds.find? (·.id == id)).map (fun b => (b.id, b.status)) =
      (statusOf builds id).map (id, ·) := by
  cases h : builds.find? (·.id == id) with
  | none => simp [statusOf, h]
  | some b =>
    have hb : b.id = id := by simpa using List.find?_some h
    simp [statusOf, h, hb]

@[simp] theorem updateTransitionBuildForJob_latestCompletedBuildId (builds : List BuildRow)
    (job : JobRow) (buildID : Nat) (buildStatus : BuildStatus) (rerunID : Nat) :
    (updateTransitionBuildForJob builds job buildID buildStatus rerunID).latestCompletedBuildId =
      job.latestCompletedBuildId := by
  simp only [updateTransitionBuildForJob]
  split
  · rfl
  · split <;> rfl

theorem updateTransitionBuildForJob_transitionBuildId (builds : List BuildRow) (job : JobRow)
    (buildID : Nat) (buildStatus : BuildStatus) (rerunID : Nat) :
    (updateTransitionBuildForJob builds job buildID buildStatus rerunID).transitionBuildId =
        job.transitionBuildId ∨
      (updateTransitionBuildForJob builds job buildID buildStatus rerunID).transitionBuildId =
        some buildID := by
  simp only [updateTransitionBuildForJob]
  split
  · exact .inl rfl
  · split
    · exact .inr rfl
    · exact .inl rfl

/-- The first completed build of the job is a transition. -/
theorem updateTransitionBuildForJob_of_none {builds : List BuildRow} {job : JobRow}
    (h : job.latestCompletedBuildId = none) (buildID : Nat) (buildStatus : BuildStatus)
    (rerunID : Nat) :
    updateTransitionBuildForJob builds job buildID buildStatus rerunID =
      { job with transitionBuildId := some buildID } := by
  simp [updateTransitionBuildForJob, h]

theorem updateTransitionBuildForJob_of_some {builds : List BuildRow} {job : JobRow} {l : Nat}
    {latestStatus : BuildStatus} (hl : job.latestCompletedBuildId = some l)
    (hs : statusOf builds l = some latestStatus) (buildID : Nat) (buildStatus : BuildStatus)
    (rerunID : Nat) :
    updateTransitionBuildForJob builds job buildID buildStatus rerunID =
      if buildID < l then job
      else if latestStatus ≠ buildStatus ∧ (rerunID = 0 ∨ rerunID = l) then
        { job with transitionBuildId := some buildID }
      else job := by
  simp [updateTransitionBuildForJob, hl, find?_map_id_status, hs, isNotRerunBuild]

@[simp] theorem updateNextBuildForJob_latestCompletedBuildId (builds : List BuildRow)
    (jobID latestNonRerunId : Nat) (job : JobRow) :
    (updateNextBuildForJob builds jobID latestNonRerunId job).latestCompletedBuildId =
      job.latestCompletedBuildId := rfl

@[simp] theorem updateNextBuildForJob_transitionBuildId (builds : List BuildRow)
    (jobID latestNonRerunId : Nat) (job : JobRow) :
    (updateNextBuildForJob builds jobID latestNonRerunId job).transitionBuildId =
      job.transitionBuildId := rfl

/-- The latest completed build written is a build, the newest completed rerun of the build
given or that build. -/
theorem updateLatestCompletedBuildForJob_eq_ok {builds : List BuildRow}
    {jobID latestNonRerunId : Nat} {job job' : JobRow}
    (h : updateLatestCompletedBuildForJob builds jobID latestNonRerunId job = .ok job') :
    ∃ b ∈ builds, b.id = (latestCompletedBuildQuery builds fun b =>
        b.jobID == jobID && rerunOfCheck latestNonRerunId b).getD latestNonRerunId ∧
      job' = { job with latestCompletedBuildId := some b.id } := by
  simp only [updateLatestCompletedBuildForJob] at h
  split at h
  · rename_i hany
    obtain ⟨b, hb, hid⟩ := List.any_eq_true.mp hany
    have hid : b.id = _ := beq_iff_eq.mp hid
    cases h
    exact ⟨b, hb, hid, by rw [hid]⟩
  · cases h

/-- What a finish that succeeds does: the build's status, and for a build of a job the
three updates, the latest completed build's succeeding. -/
theorem finish_eq_ok {t t' : JobBuilds} {buildID : Nat} {status : BuildStatus}
    (h : t.finish buildID status = .ok t') :
    ∃ b, t.builds.find? (·.id == buildID) = some b ∧ t'.jobID = t.jobID ∧
      t'.builds = setStatus t.builds buildID status ∧
      (b.jobID = 0 ∧ t'.job = t.job ∨
        b.jobID ≠ 0 ∧ ∃ job,
          updateLatestCompletedBuildForJob (setStatus t.builds buildID status) b.jobID
              (latestCompletedNonRerunBuild (setStatus t.builds buildID status) b.jobID)
              (updateTransitionBuildForJob (setStatus t.builds buildID status) t.job buildID
                status (b.rerunOfAny.getD 0)) = .ok job ∧
            t'.job = updateNextBuildForJob (setStatus t.builds buildID status) b.jobID
              (latestCompletedNonRerunBuild (setStatus t.builds buildID status) b.jobID) job) := by
  unfold finish at h
  split at h
  · cases h
  · rename_i b hfind
    refine ⟨b, hfind, ?_⟩
    split at h
    · -- a build of a job: the bookkeeping ran, and the latest completed build was written
      rename_i hjob
      simp only [bind, Except.bind] at h
      split at h
      · cases h
      · rename_i job hlatest
        cases h
        exact ⟨rfl, rfl, .inr ⟨by simpa using hjob, job, hlatest, rfl⟩⟩
    · rename_i hjob
      cases h
      exact ⟨rfl, rfl, .inl ⟨by simpa using hjob, rfl⟩⟩

/-- The latest completed build written is a completed build, when no build has id `0`:
without a completed build that reruns none, `latestCompletedNonRerunBuild` answers `0`, and
the foreign key refuses it. -/
theorem completed_of_updateLatestCompletedBuildForJob {builds : List BuildRow} {jobID : Nat}
    {job job' : JobRow} (hpos : ∀ b ∈ builds, 0 < b.id)
    (h : updateLatestCompletedBuildForJob builds jobID (latestCompletedNonRerunBuild builds jobID)
      job = .ok job') :
    ∃ b ∈ builds, job'.latestCompletedBuildId = some b.id ∧ b.status.isCompleted := by
  obtain ⟨r, hr, hrid, rfl⟩ := updateLatestCompletedBuildForJob_eq_ok h
  simp only [Option.some.injEq]
  -- the id written is the newest completed rerun, or else the newest build that reruns none
  cases hrerun : latestCompletedBuildQuery builds
      (fun b => b.jobID == jobID && rerunOfCheck (latestCompletedNonRerunBuild builds jobID) b) with
  | some m =>
    obtain ⟨b, hb, hcompleted, -, hbm⟩ := exists_of_latestCompletedBuildQuery_eq_some hrerun
    rw [hrerun, Option.getD_some] at hrid
    exact ⟨b, hb, hrid.trans hbm.symm, hcompleted⟩
  | none =>
    rw [hrerun, Option.getD_none, latestCompletedNonRerunBuild] at hrid
    cases hnon : latestCompletedBuildQuery builds (BuildRow.isNonRerunOf jobID) with
    | some m =>
      obtain ⟨b, hb, hcompleted, -, hbm⟩ := exists_of_latestCompletedBuildQuery_eq_some hnon
      rw [hnon, Option.getD_some] at hrid
      exact ⟨b, hb, hrid.trans hbm.symm, hcompleted⟩
    | none =>
      rw [hnon, Option.getD_none] at hrid
      exact absurd hrid (Nat.pos_iff_ne_zero.mp (hpos r hr))

/-! ## What every run keeps -/

/-- What holds of the builds of a job in every state its runs reach: distinct positive ids,
all of the job and none recorded as a legacy rerun, and the latest completed and the
transition build are completed builds of it. -/
structure WellFormed (t : JobBuilds) : Prop where
  nodup : (t.builds.map (·.id)).Nodup
  pos : ∀ b ∈ t.builds, 0 < b.id
  jobID : ∀ b ∈ t.builds, b.jobID = t.jobID
  rerunOfOld : ∀ b ∈ t.builds, b.rerunOfOld = none
  latest : ∀ id ∈ t.job.latestCompletedBuildId,
    ∃ b ∈ t.builds, b.id = id ∧ b.status.isCompleted
  transition : ∀ id ∈ t.job.transitionBuildId,
    ∃ b ∈ t.builds, b.id = id ∧ b.status.isCompleted

theorem wellFormed_new (jobID : Nat) : (new jobID).WellFormed where
  nodup := List.nodup_nil
  pos := by simp [new]
  jobID := by simp [new]
  rerunOfOld := by simp [new]
  latest := by simp [new]
  transition := by simp [new]

/-- A build added with a larger id keeps the state well formed. -/
theorem WellFormed.addBuild {t : JobBuilds} (hw : t.WellFormed) {row : BuildRow}
    (hpos : 0 < row.id) (hid : ∀ b ∈ t.builds, b.id < row.id) (hjob : row.jobID = t.jobID)
    (hold : row.rerunOfOld = none) : (t.addBuild row).WellFormed where
  nodup := by
    rw [addBuild_builds, List.map_append, List.nodup_append]
    refine ⟨hw.nodup, by simp, ?_⟩
    intro a ha c hc
    obtain ⟨r, hr, rfl⟩ := List.mem_map.mp ha
    rw [List.map_singleton, List.mem_singleton] at hc
    rw [hc]
    exact Nat.ne_of_lt (hid r hr)
  pos := by
    simp only [addBuild_builds, List.mem_append, List.mem_singleton]
    rintro b (hb | rfl)
    exacts [hw.pos b hb, hpos]
  jobID := by
    simp only [addBuild_builds, addBuild_jobID, List.mem_append, List.mem_singleton]
    rintro b (hb | rfl)
    exacts [hw.jobID b hb, hjob]
  rerunOfOld := by
    simp only [addBuild_builds, List.mem_append, List.mem_singleton]
    rintro b (hb | rfl)
    exacts [hw.rerunOfOld b hb, hold]
  latest := by
    intro id hid'
    obtain ⟨b, hb, hbid⟩ := hw.latest id hid'
    exact ⟨b, List.mem_append_left _ hb, hbid⟩
  transition := by
    intro id hid'
    obtain ⟨b, hb, hbid⟩ := hw.transition id hid'
    exact ⟨b, List.mem_append_left _ hb, hbid⟩

/-- A finish with a final status keeps the state well formed. -/
theorem WellFormed.finish {t t' : JobBuilds} (hw : t.WellFormed) {buildID : Nat}
    {status : BuildStatus} (hfinal : status.isCompleted = true)
    (h : t.finish buildID status = .ok t') : t'.WellFormed := by
  obtain ⟨b, hfind, hjobID, hbuilds, hcase⟩ := finish_eq_ok h
  have hb : b ∈ t.builds := List.mem_of_find?_eq_some hfind
  have hbid : b.id = buildID := by simpa using List.find?_some hfind
  -- every row keeps its columns but the status
  have hrow : ∀ r ∈ t'.builds, ∃ r₀ ∈ t.builds, ∃ s : BuildStatus, r = { r₀ with status := s } := by
    intro r hr
    rw [hbuilds] at hr
    exact exists_of_mem_setStatus hr
  have hpos : ∀ r ∈ t'.builds, 0 < r.id := by
    intro r hr
    obtain ⟨r₀, hr₀, s, rfl⟩ := hrow r hr
    exact hw.pos r₀ hr₀
  -- a completed build stays completed, and the finished build is completed
  have hkeep : ∀ id, (∃ r ∈ t.builds, r.id = id ∧ r.status.isCompleted) →
      ∃ r ∈ t'.builds, r.id = id ∧ r.status.isCompleted := by
    intro id hid
    rw [hbuilds]
    exact exists_completed_setStatus hfinal hid
  have hdone : ∃ r ∈ t'.builds, r.id = buildID ∧ r.status.isCompleted := by
    refine ⟨{ b with status }, ?_, hbid, hfinal⟩
    rw [hbuilds]
    exact List.mem_map.mpr ⟨b, hb, by simp [hbid]⟩
  refine ⟨?_, hpos, ?_, ?_, ?_, ?_⟩
  · rw [hbuilds, setStatus_map_id]
    exact hw.nodup
  · intro r hr
    obtain ⟨r₀, hr₀, s, rfl⟩ := hrow r hr
    rw [hjobID]
    exact hw.jobID r₀ hr₀
  · intro r hr
    obtain ⟨r₀, hr₀, s, rfl⟩ := hrow r hr
    exact hw.rerunOfOld r₀ hr₀
  · rcases hcase with ⟨-, hjob⟩ | ⟨-, job, hlatest, hjob⟩
    · intro id hid
      rw [hjob] at hid
      exact hkeep id (hw.latest id hid)
    · -- the latest completed build written
      rw [← hbuilds] at hlatest
      obtain ⟨r, hr, hrid, hcompleted⟩ := completed_of_updateLatestCompletedBuildForJob hpos hlatest
      intro id hid
      rw [hjob, updateNextBuildForJob_latestCompletedBuildId, hrid, Option.mem_def,
        Option.some.injEq] at hid
      exact ⟨r, hr, hid, hcompleted⟩
  · -- the transition build is the one before or the build finished
    have htransition : t'.job.transitionBuildId = t.job.transitionBuildId ∨
        t'.job.transitionBuildId = some buildID := by
      rcases hcase with ⟨-, hjob⟩ | ⟨-, job, hlatest, hjob⟩
      · exact .inl (by rw [hjob])
      · obtain ⟨r, -, -, rfl⟩ := updateLatestCompletedBuildForJob_eq_ok hlatest
        rw [hjob, updateNextBuildForJob_transitionBuildId]
        exact updateTransitionBuildForJob_transitionBuildId _ _ _ _ _
    intro id hid
    rcases htransition with htr | htr
    · rw [htr] at hid
      exact hkeep id (hw.transition id hid)
    · rw [htr, Option.mem_def, Option.some.injEq] at hid
      exact hid ▸ hdone

theorem Step.wellFormed {t t' : JobBuilds} (hs : Step t t') (hw : t.WellFormed) :
    t'.WellFormed := by
  cases hs with
  | createBuild hpos hid => exact hw.addBuild hpos hid rfl rfl
  | rerunBuild _ hpos hid => exact hw.addBuild hpos hid rfl rfl
  | finish _ _ hfinal h => exact hw.finish hfinal h

/-- In every state a run reaches, the job's latest completed and transition builds are
completed builds of the job. -/
theorem wellFormed_of_reachable {t : JobBuilds} (h : t.Reachable) : t.WellFormed := by
  induction h with
  | new jobID => exact wellFormed_new jobID
  | step _ hs ih => exact hs.wellFormed ih

/-! ## The transition build without reruns -/

/-- No build of the job reruns another. -/
def NoReruns (t : JobBuilds) : Prop :=
  ∀ b ∈ t.builds, b.rerunOf = none

/-- The latest completed build is the newest completed build that reruns none. -/
def LatestIsNewest (t : JobBuilds) : Prop :=
  t.job.latestCompletedBuildId = latestCompletedBuildQuery t.builds (BuildRow.isNonRerunOf t.jobID)

/-- The transition build, when set, has the status of the latest completed build. -/
def TransitionAgrees (t : JobBuilds) : Prop :=
  ∀ id ∈ t.job.transitionBuildId, ∃ latestID ∈ t.job.latestCompletedBuildId,
    statusOf t.builds id = statusOf t.builds latestID

theorem Step.jobID_eq {t t' : JobBuilds} (hs : Step t t') : t'.jobID = t.jobID := by
  cases hs with
  | createBuild => rfl
  | rerunBuild => rfl
  | finish _ _ _ h => exact (finish_eq_ok h).choose_spec.2.1

/-- A run that reruns no build has rerun none before. -/
theorem Step.noReruns {t t' : JobBuilds} (hs : Step t t') (h : t'.NoReruns) : t.NoReruns := by
  cases hs with
  | createBuild => exact fun b hb => h b (List.mem_append_left _ hb)
  | rerunBuild => exact fun b hb => h b (List.mem_append_left _ hb)
  | finish _ _ _ hfinish =>
    obtain ⟨-, -, -, hbuilds, -⟩ := finish_eq_ok hfinish
    rw [NoReruns, hbuilds] at h
    intro r hr
    -- the row of `r` after the update has the same `rerun_of`
    have := h _ (List.mem_map_of_mem hr)
    split at this <;> exact this

theorem statusOf_append_of_ne {builds : List BuildRow} {row : BuildRow} {id : Nat}
    (h : row.id ≠ id) : statusOf (builds ++ [row]) id = statusOf builds id := by
  have hrow : List.find? (·.id == id) [row] = none := by simp [h]
  simp only [statusOf, List.find?_append, hrow, Option.or_none]

/-- A pending build with a larger id changes no status the invariants read. -/
theorem TransitionAgrees.addBuild {t : JobBuilds} (hw : t.WellFormed) (ha : t.TransitionAgrees)
    {row : BuildRow} (hid : ∀ b ∈ t.builds, b.id < row.id) : (t.addBuild row).TransitionAgrees := by
  -- both ids are ids of builds, so below the new one
  have hne : ∀ id, (∃ b ∈ t.builds, b.id = id ∧ b.status.isCompleted) → row.id ≠ id := by
    rintro id ⟨b, hb, rfl, -⟩
    exact Nat.ne_of_gt (hid b hb)
  intro id hidt
  obtain ⟨latestID, hlatest, hstatus⟩ := ha id hidt
  refine ⟨latestID, hlatest, ?_⟩
  rw [addBuild_builds, statusOf_append_of_ne (hne id (hw.transition id hidt)),
    statusOf_append_of_ne (hne latestID (hw.latest latestID hlatest))]
  exact hstatus

theorem LatestIsNewest.addBuild {t : JobBuilds} (hl : t.LatestIsNewest) {row : BuildRow}
    (hrow : row.status.isCompleted = false) : (t.addBuild row).LatestIsNewest := by
  rw [LatestIsNewest, addBuild_builds, addBuild_jobID, addBuild_latestCompletedBuildId,
    latestCompletedBuildQuery_append_of_not_completed hrow]
  exact hl

/-- Without reruns a finish writes as the latest completed build the newest of the one before
and the build finished, and runs the transition update against the one before. -/
theorem finish_eq_ok_of_noReruns {t t' : JobBuilds} (hw : t.WellFormed) (hjob : t.jobID ≠ 0)
    (hno : t.NoReruns) {b : BuildRow} (hb : b ∈ t.builds)
    (hrunning : b.status.isCompleted = false) {status : BuildStatus}
    (hfinal : status.isCompleted = true) (h : t.finish b.id status = .ok t') :
    t'.jobID = t.jobID ∧ t'.builds = setStatus t.builds b.id status ∧
      t'.job.latestCompletedBuildId = some ((latestCompletedBuildQuery t.builds
        (BuildRow.isNonRerunOf t.jobID)).elim b.id (max b.id)) ∧
      t'.job.transitionBuildId = (updateTransitionBuildForJob (setStatus t.builds b.id status)
        t.job b.id status 0).transitionBuildId := by
  obtain ⟨b₀, hfind, hjobID, hbuilds, hcase⟩ := finish_eq_ok h
  -- the row `find?` meets is `b`
  have hb₀ : b₀ = b :=
    List.inj_on_of_nodup_map hw.nodup (List.mem_of_find?_eq_some hfind) hb
      (by simpa using List.find?_some hfind)
  subst hb₀
  have hbjob : b₀.jobID = t.jobID := hw.jobID b₀ hb
  rcases hcase with ⟨h0, -⟩ | ⟨-, job, hlatest, hjob'⟩
  · exact absurd (hbjob ▸ h0) hjob
  have hrerunID : b₀.rerunOfAny.getD 0 = 0 := by
    simp [BuildRow.rerunOfAny, hno b₀ hb, hw.rerunOfOld b₀ hb]
  -- the newest completed build that reruns none gains the build finished
  have hnon : latestCompletedNonRerunBuild (setStatus t.builds b₀.id status) b₀.jobID =
      (latestCompletedBuildQuery t.builds (BuildRow.isNonRerunOf t.jobID)).elim b₀.id
        (max b₀.id) := by
    have hcond : BuildRow.isNonRerunOf t.jobID b₀ = true := by
      simp [BuildRow.isNonRerunOf, hbjob, hno b₀ hb, hw.rerunOfOld b₀ hb]
    rw [latestCompletedNonRerunBuild, hbjob,
      latestCompletedBuildQuery_setStatus hw.nodup hb hrunning hfinal (fun _ _ => rfl),
      if_pos hcond, Option.getD_some]
  -- and there is no rerun of it
  have hrerun : ∀ L, latestCompletedBuildQuery (setStatus t.builds b₀.id status)
      (fun r => r.jobID == b₀.jobID && rerunOfCheck L r) = none := by
    intro L
    apply latestCompletedBuildQuery_eq_none
    intro r hr _ hcheck
    obtain ⟨r₀, hr₀, s, rfl⟩ := exists_of_mem_setStatus hr
    simp [rerunOfCheck, hno r₀ hr₀, hw.rerunOfOld r₀ hr₀] at hcheck
  obtain ⟨r, -, hrid, rfl⟩ := updateLatestCompletedBuildForJob_eq_ok hlatest
  rw [hrerun, Option.getD_none, hnon] at hrid
  refine ⟨hjobID, hbuilds, ?_, ?_⟩
  · rw [hjob', updateNextBuildForJob_latestCompletedBuildId, hrid]
  · rw [hjob', updateNextBuildForJob_transitionBuildId, hrerunID]

/-- Without reruns a finish keeps the latest completed build the newest and the transition
build's status that of the latest completed build. -/
theorem TransitionAgrees.finish {t t' : JobBuilds} (hw : t.WellFormed) (hjob : t.jobID ≠ 0)
    (hno : t.NoReruns) (hl : t.LatestIsNewest) (ha : t.TransitionAgrees) {b : BuildRow}
    (hb : b ∈ t.builds) (hrunning : b.status.isCompleted = false) {status : BuildStatus}
    (hfinal : status.isCompleted = true) (h : t.finish b.id status = .ok t') :
    t'.LatestIsNewest ∧ t'.TransitionAgrees := by
  obtain ⟨hjobID, hbuilds, hlatest, htransition⟩ :=
    finish_eq_ok_of_noReruns hw hjob hno hb hrunning hfinal h
  -- the statuses of completed builds stay as they were
  have hkeep : ∀ id, (∃ r ∈ t.builds, r.id = id ∧ r.status.isCompleted) →
      statusOf t'.builds id = statusOf t.builds id := fun id hid => by
    rw [hbuilds]
    exact statusOf_setStatus_of_ne (ne_of_completed hw.nodup hb hrunning hid)
  have hnewest : t'.LatestIsNewest := by
    rw [LatestIsNewest, hjobID, hbuilds,
      latestCompletedBuildQuery_setStatus hw.nodup hb hrunning hfinal (fun _ _ => rfl),
      if_pos (by simp [BuildRow.isNonRerunOf, hw.jobID b hb, hno b hb, hw.rerunOfOld b hb]),
      hlatest]
  refine ⟨hnewest, ?_⟩
  rw [LatestIsNewest] at hl
  intro id hid
  rw [htransition] at hid
  cases hprev : t.job.latestCompletedBuildId with
  | none =>
    -- the first completed build is the transition, and the latest
    rw [updateTransitionBuildForJob_of_none hprev, Option.mem_def, Option.some.injEq] at hid
    rw [← hl, hprev] at hlatest
    exact ⟨b.id, hlatest, by rw [hid]⟩
  | some l =>
    have hlmem : l ∈ t.job.latestCompletedBuildId := by rw [hprev]; rfl
    obtain ⟨rl, hrl, rfl, hcompleted⟩ := hw.latest l hlmem
    have hne : rl.id ≠ b.id := ne_of_completed hw.nodup hb hrunning ⟨rl, hrl, rfl, hcompleted⟩
    have hls : statusOf (setStatus t.builds b.id status) rl.id = some rl.status := by
      rw [statusOf_setStatus_of_ne hne, statusOf_of_mem hw.nodup hrl]
    rw [updateTransitionBuildForJob_of_some hprev hls] at hid
    rw [← hl, hprev] at hlatest
    by_cases hlt : b.id < rl.id
    · -- an older build finished: the job's state stays, and so does its latest build
      rw [if_pos hlt] at hid
      obtain ⟨latestID, hlid, hstatus⟩ := ha id hid
      rw [hprev, Option.mem_def, Option.some.injEq] at hlid
      subst hlid
      refine ⟨rl.id, by simp [hlatest, max_eq_right hlt.le], ?_⟩
      rw [hkeep id (hw.transition id hid), hkeep rl.id ⟨rl, hrl, rfl, hcompleted⟩, hstatus]
    · -- a newer build finished and is the latest now
      have hgt : rl.id < b.id := by omega
      rw [if_neg hlt] at hid
      refine ⟨b.id, by simp [hlatest, max_eq_left hgt.le], ?_⟩
      by_cases hchange : rl.status ≠ status ∧ (0 = 0 ∨ 0 = rl.id)
      · rw [if_pos hchange, Option.mem_def, Option.some.injEq] at hid
        rw [hid]
      · -- no change of status: the transition build has the new latest build's status
        rw [if_neg hchange] at hid
        have hsame : rl.status = status := by
          by_contra hdiff
          exact hchange ⟨hdiff, .inl rfl⟩
        obtain ⟨latestID, hlid, hstatus⟩ := ha id hid
        rw [hprev, Option.mem_def, Option.some.injEq] at hlid
        subst hlid
        rw [hkeep id (hw.transition id hid), hstatus, statusOf_of_mem hw.nodup hrl, hbuilds,
          statusOf_setStatus, if_pos rfl, statusOf_of_mem hw.nodup hb, hsame]
        rfl

theorem Step.transitionAgrees {t t' : JobBuilds} (hs : Step t t') (hw : t.WellFormed)
    (hjob : t.jobID ≠ 0) (hno : t'.NoReruns) (hl : t.LatestIsNewest)
    (ha : t.TransitionAgrees) : t'.LatestIsNewest ∧ t'.TransitionAgrees := by
  cases hs with
  | createBuild _ hid => exact ⟨hl.addBuild rfl, ha.addBuild hw hid⟩
  | rerunBuild _ _ hid => exact ⟨hl.addBuild rfl, ha.addBuild hw hid⟩
  | finish hb hrunning hfinal h =>
    exact TransitionAgrees.finish hw hjob ((Step.finish hb hrunning hfinal h).noReruns hno) hl ha
      hb hrunning hfinal h

theorem latestIsNewest_transitionAgrees_of_reachable {t : JobBuilds} (h : t.Reachable)
    (hjob : t.jobID ≠ 0) (hno : t.NoReruns) : t.LatestIsNewest ∧ t.TransitionAgrees := by
  induction h with
  | new jobID => exact ⟨rfl, by simp [TransitionAgrees, new]⟩
  | step hr hs ih =>
    -- the invariant before the step, from a run that reran nothing either
    obtain ⟨hl, ha⟩ := ih (hs.jobID_eq ▸ hjob) (hs.noReruns hno)
    exact hs.transitionAgrees (wellFormed_of_reachable hr) (hs.jobID_eq ▸ hjob) hno hl ha

/-- In every state a run that reruns no build reaches, the transition build, when set, has
the status of the latest completed build. -/
theorem transitionAgrees_of_reachable {t : JobBuilds} (h : t.Reachable) (hjob : t.jobID ≠ 0)
    (hno : t.NoReruns) : t.TransitionAgrees :=
  (latestIsNewest_transitionAgrees_of_reachable h hjob hno).2

/-! ## A second rerun of one build -/

/-- The failing run.  Build `1` succeeds.  Its rerun `2` fails, which is a transition.  Its
rerun `3` succeeds.  The transition update compares `3` with the latest completed build,
`2`, which is not the build `3` reruns, so there is no transition, and yet `3` becomes the
latest completed build.  The transition build `2` failed while the latest completed build
`3` succeeded. -/
theorem finish_rerun_transitionBuild_stale :
    let t : JobBuilds := ⟨1, [⟨1, 1, .succeeded, none, none⟩, ⟨2, 1, .failed, some 1, none⟩,
      ⟨3, 1, .succeeded, some 1, none⟩], ⟨some 3, none, some 2⟩⟩
    t.Reachable ∧ t.job.transitionBuildId = some 2 ∧ t.job.latestCompletedBuildId = some 3 ∧
      statusOf t.builds 2 = some .failed ∧ statusOf t.builds 3 = some .succeeded := by
  intro t
  refine ⟨?_, rfl, rfl, rfl, rfl⟩
  -- build `1` is created and succeeds
  have r₁ : Reachable ((new 1).createBuild 1) :=
    .step (.new 1) (.createBuild (by decide) (by simp [new]))
  have r₂ : Reachable ⟨1, [⟨1, 1, .succeeded, none, none⟩], ⟨some 1, none, some 1⟩⟩ :=
    .step r₁ (@Step.finish _ _ ⟨1, 1, .pending, none, none⟩ .succeeded (by decide) rfl rfl rfl)
  -- its rerun `2` fails
  have r₃ := r₂.step (@Step.rerunBuild _ 2 ⟨1, 1, .succeeded, none, none⟩ (by decide) (by decide)
    (by decide))
  have r₄ : Reachable ⟨1, [⟨1, 1, .succeeded, none, none⟩, ⟨2, 1, .failed, some 1, none⟩],
      ⟨some 2, none, some 2⟩⟩ :=
    .step r₃ (@Step.finish _ _ ⟨2, 1, .pending, some 1, none⟩ .failed (by decide) rfl rfl rfl)
  -- its rerun `3` succeeds
  have r₅ := r₄.step (@Step.rerunBuild _ 3 ⟨1, 1, .succeeded, none, none⟩ (by decide) (by decide)
    (by decide))
  exact .step r₅ (@Step.finish _ _ ⟨3, 1, .pending, some 1, none⟩ .succeeded (by decide) rfl rfl
    rfl)

end JobBuilds

end Db
end Concourse
