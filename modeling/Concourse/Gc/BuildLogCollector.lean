import Concourse.Atc.StepValidator
import Concourse.Db.PaginatedBuilds

/-!
# Reaping build logs

`gc.buildLogCollector` deletes the events of old builds of each job.  `BuildLogsToRetain` turns
the collector's defaults and maxima and the job's `build_log_retention` into a retention: how
many builds to keep, how many of them at least should be succeeded ones, and for how many days.
`reapLogsOfJob` then walks the job's unreaped builds newest first: running and undrained builds
are skipped, succeeded builds fill the minimum quota, then builds are kept as candidates while
there is room or while they have not expired, and the rest are deleted.  When something is to
be deleted and more builds were kept than the retention allows, the oldest candidates are
deleted too.

We show that the trimming stays within the candidates when the minimum quota fits in the
number of builds (`trimLoop_eq_some`, `selectAndTrim_isSome_of_le`), which the calculator
guarantees whenever a maximum is configured (`buildLogsToRetain_minimum_le`), and that no
running, undrained or minimum-quota build is ever deleted (`reapWithRetention_spares`).  Without
a maximum, a job's `min_success_builds` is passed through beside the default number of builds,
and the trimming reads before the first candidate (`reapLogsOfJob_minimumSucceeded_outOfRange`).
And the trimming only runs when something else is deleted, so an expired older build decides
whether newer builds beyond the count are reaped (`reapWithRetention_older_expired`).

The paging of `ChronoBuilds` is not modelled: the builds are given as the list `reapLogsOfJob`
assembles, newest first.  Times are seconds in UTC, where `AddDate(0, 0, days)` adds
`days * 86400`; a zero end time is `none`.  A panic on an index out of range is `none`.
-/

namespace Concourse
namespace Gc

open Atc Atc.Config Db

/-- `buildLogRetentionCalculator`. -/
structure BuildLogRetentionCalculator where
  defaultBuildLogsToRetain : UInt64
  maxBuildLogsToRetain : UInt64
  defaultDaysToRetainBuildLogs : UInt64
  maxDaysToRetainBuildLogs : UInt64
  deriving DecidableEq, Repr

/-- Go's `int(x)` of a `uint64`, on a 64-bit platform. -/
def goInt (x : UInt64) : Int :=
  x.toInt64.toInt

/-- `BuildLogsToRetain`. -/
def BuildLogRetentionCalculator.buildLogsToRetain (blrc : BuildLogRetentionCalculator)
    (jobConfig : JobConfig) : BuildLogRetention :=
  -- what the job wants
  let (daysToRetainBuildLogs, buildLogsToRetain, minSuccessBuildLogsToRetain) :=
    match jobConfig.buildLogRetention with
    | some r => (r.days, r.builds, r.minimumSucceededBuilds)
    | none => (0, jobConfig.buildLogsToRetain, 0)
  -- if not specified, the defaults
  let buildLogsToRetain :=
    if buildLogsToRetain == 0 then goInt blrc.defaultBuildLogsToRetain else buildLogsToRetain
  let daysToRetainBuildLogs :=
    if daysToRetainBuildLogs == 0 then goInt blrc.defaultDaysToRetainBuildLogs
    else daysToRetainBuildLogs
  if blrc.maxBuildLogsToRetain == 0 && blrc.maxDaysToRetainBuildLogs == 0 then
    { builds := buildLogsToRetain, minimumSucceededBuilds := minSuccessBuildLogsToRetain,
      days := daysToRetainBuildLogs }
  else
    let maxBuilds := goInt blrc.maxBuildLogsToRetain
    let maxDays := goInt blrc.maxDaysToRetainBuildLogs
    let builds :=
      if maxBuilds > 0 then
        if buildLogsToRetain > 0 && buildLogsToRetain < maxBuilds then buildLogsToRetain
        else maxBuilds
      else buildLogsToRetain
    let days :=
      if maxDays > 0 then
        if daysToRetainBuildLogs > 0 && daysToRetainBuildLogs < maxDays then daysToRetainBuildLogs
        else maxDays
      else daysToRetainBuildLogs
    let minimumSucceededBuilds :=
      if minSuccessBuildLogsToRetain ≥ 0 && minSuccessBuildLogsToRetain ≤ builds then
        minSuccessBuildLogsToRetain
      else 0
    { builds := builds, minimumSucceededBuilds := minimumSucceededBuilds, days := days }

/-- A build as `reapLogsOfJob` reads it. -/
structure BuildForAPI where
  id : Int
  status : BuildStatus
  /-- `EndTime()`, `none` for the zero time. -/
  endTime : Option Int
  isRunning : Bool
  isDrained : Bool
  /-- Whether `ReapTime()` is set. -/
  reaped : Bool
  deriving DecidableEq, Repr

/-- The variables of the second round of `reapLogsOfJob`. -/
structure Selection where
  buildIDsToDelete : List Int
  candidateBuildIDsToKeep : List Int
  retainedBuilds : Int
  retainedSucceededBuilds : Int
  firstLoggedBuildID : Int
  deriving DecidableEq, Repr

/-- The variables before the second round. -/
def Selection.init : Selection :=
  ⟨[], [], 0, 0, 0⟩

/-- `buildHasExpired`: the build ended more than `days` days before `now`. -/
def BuildForAPI.hasExpired (build : BuildForAPI) (days now : Int) : Bool :=
  match build.endTime with
  | some endTime => decide (endTime + days * 86400 < now)
  | none => false

/-- One build of the second round. -/
def selectBuild (logRetention : BuildLogRetention) (drainerConfigured : Bool) (now : Int)
    (s : Selection) (build : BuildForAPI) : Selection :=
  let keep : Selection :=
    { s with retainedBuilds := s.retainedBuilds + 1,
             candidateBuildIDsToKeep := s.candidateBuildIDsToKeep ++ [build.id],
             firstLoggedBuildID := build.id }
  -- running builds and, with a drainer, undrained ones are not reaped
  if build.isRunning then { s with firstLoggedBuildID := build.id }
  else if drainerConfigured && !build.isDrained then { s with firstLoggedBuildID := build.id }
  else
    let maxBuildsRetained := decide (s.retainedBuilds ≥ logRetention.builds)
    if logRetention.builds != 0 && logRetention.minimumSucceededBuilds != 0 &&
        build.status == .succeeded &&
        decide (s.retainedSucceededBuilds < logRetention.minimumSucceededBuilds) then
      { s with retainedBuilds := s.retainedBuilds + 1,
               retainedSucceededBuilds := s.retainedSucceededBuilds + 1,
               firstLoggedBuildID := build.id }
    else if logRetention.builds != 0 && !maxBuildsRetained then keep
    else if logRetention.days != 0 && !build.hasExpired logRetention.days now then keep
    else { s with buildIDsToDelete := s.buildIDsToDelete ++ [build.id] }

/-- `candidateBuildIDsToKeep[i]`, with Go's bounds check; `none` is the panic. -/
def goIndex (xs : List Int) (i : Int) : Option Int :=
  if 0 ≤ i then xs[i.toNat]? else none

/-- The trimming loop, `for i := 1; i <= delta; i++`, appending
`candidateBuildIDsToKeep[n-i]`. -/
def trimLoop (candidateBuildIDsToKeep : List Int) (delta : Int) (buildIDsToDelete : List Int) :
    Option (List Int) :=
  let n : Int := candidateBuildIDsToKeep.length
  (List.range' 1 delta.toNat).foldlM
    (fun ids (i : Nat) => (goIndex candidateBuildIDsToKeep (n - i)).map fun id => ids ++ [id])
    buildIDsToDelete

/-- The second round and the trimming: the builds to delete, with the first logged build id;
`none` for the panic. -/
def selectAndTrim (logRetention : BuildLogRetention) (drainerConfigured : Bool) (now : Int)
    (buildsToConsiderDeleting : List BuildForAPI) : Option (List Int × Int) :=
  let s := buildsToConsiderDeleting.foldl (selectBuild logRetention drainerConfigured now)
    Selection.init
  if s.buildIDsToDelete.isEmpty then some ([], s.firstLoggedBuildID)
  else
    -- more builds kept than allowed: the oldest candidates go too
    let buildIDsToDelete :=
      if logRetention.builds != 0 && decide (s.retainedBuilds > logRetention.builds) then
        trimLoop s.candidateBuildIDsToKeep (s.retainedBuilds - logRetention.builds)
          s.buildIDsToDelete
      else some s.buildIDsToDelete
    buildIDsToDelete.map fun ids => (ids, s.firstLoggedBuildID)

/-- What `reapLogsOfJob` asks of the database: the builds whose events
`DeleteBuildEventsByBuildIDs` deletes (`[]` when it is not called) and the id
`UpdateFirstLoggedBuildID` records. -/
structure Reaping where
  deleted : List Int
  firstLoggedBuildID : Option Int
  deriving DecidableEq, Repr

/-- `reapLogsOfJob` after `BuildLogsToRetain`, for a given retention. -/
def reapWithRetention (logRetention : BuildLogRetention) (drainerConfigured : Bool) (now : Int)
    (jobFirstLoggedBuildID : Int) (builds : List BuildForAPI) : Option Reaping :=
  if logRetention.builds == 0 && logRetention.days == 0 then some ⟨[], none⟩
  else
    -- reaped builds are ignored
    let buildsToConsiderDeleting := builds.filter (fun build => !build.reaped)
    if buildsToConsiderDeleting.isEmpty then some ⟨[], none⟩
    else
      (selectAndTrim logRetention drainerConfigured now buildsToConsiderDeleting).map
        fun (ids, firstLoggedBuildID) =>
          if ids.isEmpty then ⟨[], none⟩
          else
            ⟨ids, if firstLoggedBuildID > jobFirstLoggedBuildID then some firstLoggedBuildID
              else none⟩

/-- `buildLogCollector`, with what `reapLogsOfJob` reads of it. -/
structure BuildLogCollector where
  drainerConfigured : Bool
  buildLogRetentionCalculator : BuildLogRetentionCalculator
  deriving DecidableEq, Repr

/-- `reapLogsOfJob`. -/
def BuildLogCollector.reapLogsOfJob (br : BuildLogCollector) (now : Int) (jobConfig : JobConfig)
    (jobFirstLoggedBuildID : Int) (builds : List BuildForAPI) : Option Reaping :=
  reapWithRetention (br.buildLogRetentionCalculator.buildLogsToRetain jobConfig)
    br.drainerConfigured now jobFirstLoggedBuildID builds

/-! ## One build of the second round -/

section Select

variable {logRetention : BuildLogRetention} {drainerConfigured : Bool} {now : Int}
  {s : Selection} {build : BuildForAPI}

/-- A build the second round must not delete: running, undrained with a drainer, or a succeeded
one while the minimum quota is not filled. -/
def Protected (logRetention : BuildLogRetention) (drainerConfigured : Bool) (s : Selection)
    (build : BuildForAPI) : Prop :=
  build.isRunning = true ∨ (drainerConfigured = true ∧ build.isDrained = false) ∨
    (logRetention.builds ≠ 0 ∧ logRetention.minimumSucceededBuilds ≠ 0 ∧
      build.status = .succeeded ∧ s.retainedSucceededBuilds < logRetention.minimumSucceededBuilds)

/-- What one build does to the variables: it is skipped, fills the quota, is kept as a
candidate, or is deleted; only a protected build is skipped or fills the quota. -/
theorem selectBuild_cases :
    (selectBuild logRetention drainerConfigured now s build =
        { s with firstLoggedBuildID := build.id } ∧
      (build.isRunning = true ∨ (drainerConfigured = true ∧ build.isDrained = false))) ∨
    (selectBuild logRetention drainerConfigured now s build =
        { s with retainedBuilds := s.retainedBuilds + 1,
                 retainedSucceededBuilds := s.retainedSucceededBuilds + 1,
                 firstLoggedBuildID := build.id } ∧
      Protected logRetention drainerConfigured s build ∧ build.status = .succeeded ∧
      s.retainedSucceededBuilds < logRetention.minimumSucceededBuilds) ∨
    (selectBuild logRetention drainerConfigured now s build =
        { s with retainedBuilds := s.retainedBuilds + 1,
                 candidateBuildIDsToKeep := s.candidateBuildIDsToKeep ++ [build.id],
                 firstLoggedBuildID := build.id } ∧
      ¬Protected logRetention drainerConfigured s build) ∨
    (selectBuild logRetention drainerConfigured now s build =
        { s with buildIDsToDelete := s.buildIDsToDelete ++ [build.id] } ∧
      ¬Protected logRetention drainerConfigured s build) := by
  unfold selectBuild
  by_cases hrun : build.isRunning = true
  · simp [hrun]
  by_cases hdrain : drainerConfigured = true ∧ build.isDrained = false
  · simp [hrun, hdrain]
  have hdrain' : (drainerConfigured && !build.isDrained) = false := by
    cases drainerConfigured <;> cases h : build.isDrained <;> simp_all
  by_cases hquota : logRetention.builds ≠ 0 ∧ logRetention.minimumSucceededBuilds ≠ 0 ∧
      build.status = .succeeded ∧ s.retainedSucceededBuilds < logRetention.minimumSucceededBuilds
  · -- the quota
    obtain ⟨hb, hm, hst, hlt⟩ := hquota
    right; left
    refine ⟨by simp [hrun, hdrain', hb, hm, hst, hlt], Or.inr (Or.inr ⟨hb, hm, hst, hlt⟩), hst, hlt⟩
  · -- kept as a candidate or deleted, by the count and then by the days
    have hquota' : (logRetention.builds != 0 && logRetention.minimumSucceededBuilds != 0 &&
        build.status == .succeeded &&
        decide (s.retainedSucceededBuilds < logRetention.minimumSucceededBuilds)) = false := by
      simpa [and_assoc] using hquota
    have hnot : ¬Protected logRetention drainerConfigured s build := by
      rintro (h | h | h) <;> contradiction
    simp only [hrun, hdrain', hquota', Bool.false_eq_true, if_false]
    right; right
    split
    · exact Or.inl ⟨rfl, hnot⟩
    · split
      · exact Or.inl ⟨rfl, hnot⟩
      · exact Or.inr ⟨rfl, hnot⟩

/-- A build that fills the quota does only that. -/
theorem selectBuild_of_quota (hrun : build.isRunning = false)
    (hdrain : build.isDrained = true) (hb : logRetention.builds ≠ 0)
    (hm : logRetention.minimumSucceededBuilds ≠ 0) (hst : build.status = .succeeded)
    (hlt : s.retainedSucceededBuilds < logRetention.minimumSucceededBuilds) :
    selectBuild logRetention drainerConfigured now s build =
      { s with retainedBuilds := s.retainedBuilds + 1,
               retainedSucceededBuilds := s.retainedSucceededBuilds + 1,
               firstLoggedBuildID := build.id } := by
  simp [selectBuild, hrun, hdrain, hb, hm, hst, hlt]

/-- A build that is not a succeeded one under a minimum quota skips the quota's branch. -/
theorem quota_eq_false
    (hquota : logRetention.minimumSucceededBuilds = 0 ∨ build.status ≠ .succeeded) :
    (logRetention.builds != 0 && logRetention.minimumSucceededBuilds != 0 &&
      build.status == .succeeded &&
      decide (s.retainedSucceededBuilds < logRetention.minimumSucceededBuilds)) = false := by
  rcases hquota with h | h <;> simp [h]

/-- A build outside the quota is kept while there is room in the count or while it has not
expired. -/
theorem selectBuild_of_kept (hrun : build.isRunning = false) (hdrain : build.isDrained = true)
    (hquota : logRetention.minimumSucceededBuilds = 0 ∨ build.status ≠ .succeeded)
    (hkept : (logRetention.builds ≠ 0 ∧ s.retainedBuilds < logRetention.builds) ∨
      (logRetention.days ≠ 0 ∧ build.hasExpired logRetention.days now = false)) :
    selectBuild logRetention drainerConfigured now s build =
      { s with retainedBuilds := s.retainedBuilds + 1,
               candidateBuildIDsToKeep := s.candidateBuildIDsToKeep ++ [build.id],
               firstLoggedBuildID := build.id } := by
  simp only [selectBuild, hrun, hdrain, quota_eq_false hquota, Bool.not_true, Bool.and_false,
    Bool.false_eq_true, if_false]
  rcases hkept with ⟨hb, hroom⟩ | ⟨hd, hexp⟩
  · rw [if_pos (by simp [hb]; omega)]
  · split
    · rfl
    · rw [if_pos (by simp [hd, hexp])]

/-- A build outside the quota, with the count full and its days over, is deleted. -/
theorem selectBuild_of_full (hrun : build.isRunning = false) (hdrain : build.isDrained = true)
    (hquota : logRetention.minimumSucceededBuilds = 0 ∨ build.status ≠ .succeeded)
    (hfull : logRetention.builds ≤ s.retainedBuilds)
    (hexpired : logRetention.days = 0 ∨ build.hasExpired logRetention.days now = true) :
    selectBuild logRetention drainerConfigured now s build =
      { s with buildIDsToDelete := s.buildIDsToDelete ++ [build.id] } := by
  simp only [selectBuild, hrun, hdrain, quota_eq_false hquota, Bool.not_true, Bool.and_false,
    Bool.false_eq_true, if_false]
  rw [if_neg (by simp; omega), if_neg (by rcases hexpired with h | h <;> simp [h])]

/-- The counters of the second round: every kept build is a candidate or fills the quota, and
the quota is never overfilled. -/
structure Tally (logRetention : BuildLogRetention) (s : Selection) : Prop where
  retained_eq : s.retainedBuilds = s.retainedSucceededBuilds + s.candidateBuildIDsToKeep.length
  succeeded_nonneg : 0 ≤ s.retainedSucceededBuilds
  succeeded_le : s.retainedSucceededBuilds ≤ max logRetention.minimumSucceededBuilds 0

theorem Tally.init : Tally logRetention Selection.init :=
  ⟨by simp [Selection.init], Int.le_refl 0, by simp [Selection.init]⟩

theorem Tally.step (h : Tally logRetention s) :
    Tally logRetention (selectBuild logRetention drainerConfigured now s build) := by
  have := h.retained_eq
  have := h.succeeded_nonneg
  rcases @selectBuild_cases logRetention drainerConfigured now s build with
    ⟨heq, -⟩ | ⟨heq, -, -, hlt⟩ | ⟨heq, -⟩ | ⟨heq, -⟩ <;> rw [heq]
  · exact ⟨h.retained_eq, h.succeeded_nonneg, h.succeeded_le⟩
  · exact ⟨by simp only; omega, by simp only; omega, by simp only; omega⟩
  · exact ⟨by simp only [List.length_append, List.length_singleton]; omega,
      h.succeeded_nonneg, h.succeeded_le⟩
  · exact ⟨h.retained_eq, h.succeeded_nonneg, h.succeeded_le⟩

/-- `Tally` holds over the whole second round. -/
theorem Tally.foldl (l : List BuildForAPI) (h : Tally logRetention s) :
    Tally logRetention (l.foldl (selectBuild logRetention drainerConfigured now) s) := by
  induction l generalizing s with
  | nil => exact h
  | cons build l ih => exact ih h.step

/-- One build adds at most its own id to the lists of the second round. -/
theorem mem_selectBuild {id : Int}
    (h : id ∈ (selectBuild logRetention drainerConfigured now s build).buildIDsToDelete ∨
      id ∈ (selectBuild logRetention drainerConfigured now s build).candidateBuildIDsToKeep) :
    id ∈ s.buildIDsToDelete ∨ id ∈ s.candidateBuildIDsToKeep ∨ id = build.id := by
  rcases @selectBuild_cases logRetention drainerConfigured now s build with
    ⟨heq, -⟩ | ⟨heq, -⟩ | ⟨heq, -⟩ | ⟨heq, -⟩ <;> rw [heq] at h <;> simp at h <;> tauto

/-- Ids enter the lists of the second round only from the builds it walks. -/
theorem mem_foldl_selectBuild (l : List BuildForAPI) {id : Int}
    (h : id ∈ (l.foldl (selectBuild logRetention drainerConfigured now) s).buildIDsToDelete ∨
      id ∈ (l.foldl (selectBuild logRetention drainerConfigured now) s).candidateBuildIDsToKeep) :
    id ∈ s.buildIDsToDelete ∨ id ∈ s.candidateBuildIDsToKeep ∨ id ∈ l.map BuildForAPI.id := by
  induction l generalizing s with
  | nil => simpa using h
  | cons build l ih =>
    rcases ih h with h' | h'
    · rcases mem_selectBuild (Or.inl h') with h'' | h'' | h'' <;> simp [h'']
    · rcases h' with h' | h'
      · rcases mem_selectBuild (Or.inr h') with h'' | h'' | h'' <;> simp [h'']
      · exact Or.inr (Or.inr (List.mem_cons_of_mem _ h'))

/-- From the start of the round, the lists hold only ids of the builds walked. -/
theorem mem_foldl_selectBuild_init (l : List BuildForAPI) {id : Int}
    (h : id ∈ (l.foldl (selectBuild logRetention drainerConfigured now)
          Selection.init).buildIDsToDelete ∨
      id ∈ (l.foldl (selectBuild logRetention drainerConfigured now)
          Selection.init).candidateBuildIDsToKeep) :
    id ∈ l.map BuildForAPI.id := by
  simpa [Selection.init] using mem_foldl_selectBuild l h

/-- One build adds to the quota only if it succeeded. -/
theorem retainedSucceeded_selectBuild_le :
    (selectBuild logRetention drainerConfigured now s build).retainedSucceededBuilds ≤
      s.retainedSucceededBuilds + ([build].filter fun build => build.status == .succeeded).length := by
  rcases @selectBuild_cases logRetention drainerConfigured now s build with
    ⟨heq, -⟩ | ⟨heq, -, hst, -⟩ | ⟨heq, -⟩ | ⟨heq, -⟩ <;> rw [heq]
  · dsimp only; omega
  · simp [hst]
  · dsimp only; omega
  · dsimp only; omega

/-- The quota grows only with succeeded builds. -/
theorem retainedSucceeded_foldl_le (l : List BuildForAPI) :
    (l.foldl (selectBuild logRetention drainerConfigured now) s).retainedSucceededBuilds ≤
      s.retainedSucceededBuilds + (l.filter fun build => build.status == .succeeded).length := by
  induction l generalizing s with
  | nil => simp
  | cons build l ih =>
    have hstep := @retainedSucceeded_selectBuild_le logRetention drainerConfigured now s build
    have hrest := @ih (selectBuild logRetention drainerConfigured now s build)
    rw [List.foldl_cons, ← List.singleton_append, List.filter_append, List.length_append]
    omega

/-- A build that is running, undrained under a drainer, or succeeded with fewer newer succeeded
builds than the quota is still protected when the round reaches it: the quota has grown only with
the succeeded builds walked, which are among the newer ones. -/
theorem protected_of_spared (hbuilds : logRetention.builds ≠ 0) {walked newer : List BuildForAPI}
    (hwalked : walked.Sublist newer)
    (hspared : build.isRunning = true ∨ (drainerConfigured = true ∧ build.isDrained = false) ∨
      (build.status = .succeeded ∧
        ((newer.filter fun b => b.status == .succeeded).length : Int) <
          logRetention.minimumSucceededBuilds)) :
    Protected logRetention drainerConfigured
      (walked.foldl (selectBuild logRetention drainerConfigured now) Selection.init) build := by
  rcases hspared with hrun | hdrain | ⟨hst, hfew⟩
  · exact Or.inl hrun
  · exact Or.inr (Or.inl hdrain)
  · refine Or.inr (Or.inr ⟨hbuilds, by omega, hst, ?_⟩)
    -- the round starts with an empty quota
    have hle : (walked.foldl (selectBuild logRetention drainerConfigured now)
        Selection.init).retainedSucceededBuilds ≤
          0 + ((walked.filter fun b => b.status == .succeeded).length : Int) :=
      retainedSucceeded_foldl_le walked
    have hsub := (hwalked.filter fun b => b.status == .succeeded).length_le
    omega

/-- Builds that all fill the quota leave the candidates and the deletions alone. -/
theorem foldl_selectBuild_quota (hb : logRetention.builds ≠ 0)
    (hm : logRetention.minimumSucceededBuilds ≠ 0) :
    ∀ (l : List BuildForAPI) (s : Selection),
      (∀ build ∈ l, build.status = .succeeded ∧ build.isRunning = false ∧ build.isDrained = true) →
      s.retainedSucceededBuilds + l.length ≤ logRetention.minimumSucceededBuilds →
      let s' := l.foldl (selectBuild logRetention drainerConfigured now) s
      s'.buildIDsToDelete = s.buildIDsToDelete ∧
        s'.candidateBuildIDsToKeep = s.candidateBuildIDsToKeep ∧
        s'.retainedBuilds = s.retainedBuilds + l.length ∧
        s'.retainedSucceededBuilds = s.retainedSucceededBuilds + l.length
  | [], s, _, _ => by simp
  | build :: l, s, hl, hlen => by
    obtain ⟨hst, hrun, hdrain⟩ := hl build List.mem_cons_self
    have hstep : selectBuild logRetention drainerConfigured now s build = _ :=
      selectBuild_of_quota hrun hdrain hb hm hst (by simp at hlen; omega)
    have ih := foldl_selectBuild_quota hb hm l (selectBuild logRetention drainerConfigured now s build)
      (fun b hb' => hl b (List.mem_cons_of_mem _ hb')) (by rw [hstep]; simp at hlen ⊢; omega)
    simp only [List.foldl_cons, hstep, List.length_cons] at ih ⊢
    obtain ⟨h₁, h₂, h₃, h₄⟩ := ih
    exact ⟨h₁, h₂, by rw [h₃]; push_cast; omega, by rw [h₄]; push_cast; omega⟩

end Select

/-! ## The trimming loop -/

section Trim

variable {candidateBuildIDsToKeep buildIDsToDelete : List Int}

/-- The trimming loop appends the last `delta` candidates, newest last-but-one first; it reads
before the first candidate, and panics, exactly when `delta` passes their number.  Induction on
`delta`, one more turn of the loop each step. -/
theorem trimLoop_natCast (k : Nat) :
    trimLoop candidateBuildIDsToKeep k buildIDsToDelete =
      if k ≤ candidateBuildIDsToKeep.length then
        some (buildIDsToDelete ++
          (candidateBuildIDsToKeep.drop (candidateBuildIDsToKeep.length - k)).reverse)
      else none := by
  induction k with
  | zero => simp [trimLoop]
  | succ k ih =>
    have hunfold : trimLoop candidateBuildIDsToKeep (k + 1 : Nat) buildIDsToDelete =
        (trimLoop candidateBuildIDsToKeep k buildIDsToDelete).bind fun ids =>
          (goIndex candidateBuildIDsToKeep (candidateBuildIDsToKeep.length - (k + 1 : Nat))).map
            fun id => ids ++ [id] := by
      simp [trimLoop, List.range'_concat, List.foldlM_append, Nat.add_comm]
    rw [hunfold, ih]
    by_cases hk : k + 1 ≤ candidateBuildIDsToKeep.length
    · -- one more candidate, the one just before those already taken
      have hidx : candidateBuildIDsToKeep.length - (k + 1) < candidateBuildIDsToKeep.length := by
        omega
      rw [if_pos (by omega), if_pos hk]
      simp only [goIndex, Option.bind_some]
      have hnat : ((candidateBuildIDsToKeep.length : Int) - ((k + 1 : Nat) : Int)).toNat =
          candidateBuildIDsToKeep.length - (k + 1) := by omega
      rw [if_pos (by omega), hnat, List.getElem?_eq_getElem hidx, Option.map_some,
        List.drop_eq_getElem_cons hidx]
      simp [Nat.sub_add_eq, Nat.sub_add_cancel (by omega : 1 ≤ candidateBuildIDsToKeep.length - k)]
    · rw [if_neg hk]
      by_cases hk' : k ≤ candidateBuildIDsToKeep.length
      · -- the index `n - (k + 1)` is `-1`
        rw [if_pos hk']
        simp only [goIndex, Option.bind_some]
        rw [if_neg (by omega)]
        rfl
      · rw [if_neg hk']
        rfl

theorem trimLoop_eq_some {delta : Int} (h0 : 0 ≤ delta)
    (h : delta ≤ candidateBuildIDsToKeep.length) :
    trimLoop candidateBuildIDsToKeep delta buildIDsToDelete =
      some (buildIDsToDelete ++
        (candidateBuildIDsToKeep.drop (candidateBuildIDsToKeep.length - delta.toNat)).reverse) := by
  obtain ⟨k, rfl⟩ := Int.eq_ofNat_of_zero_le h0
  rw [trimLoop_natCast, if_pos (by omega), Int.toNat_natCast]

theorem trimLoop_eq_none {delta : Int} (h : candidateBuildIDsToKeep.length < delta) :
    trimLoop candidateBuildIDsToKeep delta buildIDsToDelete = none := by
  obtain ⟨k, rfl⟩ := Int.eq_ofNat_of_zero_le (by omega : 0 ≤ delta)
  rw [trimLoop_natCast, if_neg (by omega)]

/-- The trimming only adds candidates. -/
theorem mem_of_trimLoop {delta : Int} {out : List Int}
    (h : trimLoop candidateBuildIDsToKeep delta buildIDsToDelete = some out) {id : Int}
    (hid : id ∈ out) : id ∈ buildIDsToDelete ∨ id ∈ candidateBuildIDsToKeep := by
  have hnat : trimLoop candidateBuildIDsToKeep delta buildIDsToDelete =
      trimLoop candidateBuildIDsToKeep (delta.toNat : Nat) buildIDsToDelete := by
    simp only [trimLoop, Int.toNat_natCast]
  rw [hnat, trimLoop_natCast] at h
  split at h
  · cases h
    rcases List.mem_append.mp hid with hid | hid
    · exact Or.inl hid
    · exact Or.inr (List.mem_of_mem_drop (List.mem_reverse.mp hid))
  · cases h

end Trim

/-! ## The trimming stays within the candidates when the quota fits -/

/-- With a quota no larger than the number of builds, the trimming never reads before the first
candidate: the builds kept beyond the count are at most the candidates, since the quota builds
fit in the count (`Tally`). -/
theorem selectAndTrim_isSome_of_le {logRetention : BuildLogRetention} {drainerConfigured : Bool}
    {now : Int} (l : List BuildForAPI) (hbuilds : 0 ≤ logRetention.builds)
    (hmin : logRetention.minimumSucceededBuilds ≤ logRetention.builds) :
    (selectAndTrim logRetention drainerConfigured now l).isSome := by
  have htally : Tally logRetention
      (l.foldl (selectBuild logRetention drainerConfigured now) Selection.init) :=
    Tally.init.foldl l
  dsimp only [selectAndTrim]
  generalize l.foldl (selectBuild logRetention drainerConfigured now) Selection.init = s at htally ⊢
  have := htally.retained_eq
  have := htally.succeeded_le
  split
  · rfl
  · split
    · rename_i hover
      simp only [bne_iff_ne, ne_eq, Bool.and_eq_true, decide_eq_true_eq] at hover
      rw [trimLoop_eq_some (by omega) (by omega)]
      rfl
    · rfl

/-- What the validation of a job's log retention guarantees of its fields. -/
theorem retention_nonneg_of_errors_nil {identifier : String} {job : JobConfig}
    (h : buildLogRetentionErrors identifier job = []) :
    0 ≤ job.buildLogsToRetain ∧
      ∀ r, job.buildLogRetention = some r →
        0 ≤ r.builds ∧ 0 ≤ r.minimumSucceededBuilds ∧ 0 ≤ r.days := by
  unfold buildLogRetentionErrors at h
  simp only [List.append_eq_nil_iff] at h
  obtain ⟨hlogs, hretention⟩ := h
  constructor
  · -- the deprecated field is either unused beside `build_log_retention` or not negative
    split at hlogs
    · simp at hlogs
    · split at hlogs
      · simp at hlogs
      · rename_i hboth hneg
        cases hr : job.buildLogRetention <;> simp_all
  · intro r hr
    rw [hr] at hretention
    simp only [List.append_eq_nil_iff, ite_eq_right_iff, reduceCtorEq, imp_false] at hretention
    omega

/-- Whenever a maximum is configured, the calculator keeps the minimum quota within the number
of builds, for a job the validation accepts and a default that is not negative. -/
theorem buildLogsToRetain_minimum_le (blrc : BuildLogRetentionCalculator) {identifier : String}
    {job : JobConfig} (hjob : buildLogRetentionErrors identifier job = [])
    (hdefault : 0 ≤ goInt blrc.defaultBuildLogsToRetain)
    (hmax : blrc.maxBuildLogsToRetain ≠ 0 ∨ blrc.maxDaysToRetainBuildLogs ≠ 0) :
    0 ≤ (blrc.buildLogsToRetain job).builds ∧
      (blrc.buildLogsToRetain job).minimumSucceededBuilds ≤ (blrc.buildLogsToRetain job).builds := by
  obtain ⟨hlogs, hretention⟩ := retention_nonneg_of_errors_nil hjob
  -- the number of builds the job asks for, before the maximum, is not negative
  have hwanted : 0 ≤ (match job.buildLogRetention with
      | some r => (r.days, r.builds, r.minimumSucceededBuilds)
      | none => (0, job.buildLogsToRetain, 0)).2.1 := by
    cases hr : job.buildLogRetention with
    | some r => exact (hretention r hr).1
    | none => exact hlogs
  have hmax' : (blrc.maxBuildLogsToRetain == 0 && blrc.maxDaysToRetainBuildLogs == 0) = false := by
    rcases hmax with h | h <;> simp [h]
  unfold BuildLogRetentionCalculator.buildLogsToRetain
  generalize (match job.buildLogRetention with
      | some r => (r.days, r.builds, r.minimumSucceededBuilds)
      | none => (0, job.buildLogsToRetain, 0)) = wanted at hwanted ⊢
  obtain ⟨days, builds, minimum⟩ := wanted
  simp only [hmax', Bool.false_eq_true, if_false] at hwanted ⊢
  constructor
  · -- the job's builds or the default, capped by a positive maximum
    split_ifs <;> simp_all <;> omega
  · -- the job's quota when it fits in those builds, and none otherwise
    split_ifs <;> simp_all <;> omega

theorem reapWithRetention_isSome_of_le {logRetention : BuildLogRetention}
    {drainerConfigured : Bool} {now jobFirstLoggedBuildID : Int} (builds : List BuildForAPI)
    (hbuilds : 0 ≤ logRetention.builds)
    (hmin : logRetention.minimumSucceededBuilds ≤ logRetention.builds) :
    (reapWithRetention logRetention drainerConfigured now jobFirstLoggedBuildID builds).isSome := by
  dsimp only [reapWithRetention]
  split
  · rfl
  · split
    · rfl
    · rw [Option.isSome_map]
      exact selectAndTrim_isSome_of_le _ hbuilds hmin

/-- With a maximum configured, reaping a job the validation accepts never reads out of range. -/
theorem reapLogsOfJob_isSome_of_max (br : BuildLogCollector) (now : Int) {identifier : String}
    {jobConfig : JobConfig} (jobFirstLoggedBuildID : Int) (builds : List BuildForAPI)
    (hjob : buildLogRetentionErrors identifier jobConfig = [])
    (hdefault : 0 ≤ goInt br.buildLogRetentionCalculator.defaultBuildLogsToRetain)
    (hmax : br.buildLogRetentionCalculator.maxBuildLogsToRetain ≠ 0 ∨
      br.buildLogRetentionCalculator.maxDaysToRetainBuildLogs ≠ 0) :
    (br.reapLogsOfJob now jobConfig jobFirstLoggedBuildID builds).isSome := by
  obtain ⟨hbuilds, hmin⟩ := buildLogsToRetain_minimum_le _ hjob hdefault hmax
  exact reapWithRetention_isSome_of_le builds hbuilds hmin

/-! ## What is never deleted -/

/-- The builds `selectAndTrim` deletes are those the second round deleted or kept as
candidates. -/
theorem mem_selectAndTrim {logRetention : BuildLogRetention} {drainerConfigured : Bool}
    {now : Int} {l : List BuildForAPI} {ids : List Int} {firstLoggedBuildID id : Int}
    (h : selectAndTrim logRetention drainerConfigured now l = some (ids, firstLoggedBuildID))
    (hid : id ∈ ids) :
    id ∈ (l.foldl (selectBuild logRetention drainerConfigured now) Selection.init).buildIDsToDelete ∨
      id ∈ (l.foldl (selectBuild logRetention drainerConfigured now)
        Selection.init).candidateBuildIDsToKeep := by
  dsimp only [selectAndTrim] at h
  generalize l.foldl (selectBuild logRetention drainerConfigured now) Selection.init = s at h ⊢
  split at h
  · simp only [Option.some.injEq, Prod.mk.injEq] at h
    rw [← h.1] at hid
    cases hid
  · split at h
    · obtain ⟨out, hout, hrfl⟩ := Option.map_eq_some_iff.mp h
      cases hrfl
      exact mem_of_trimLoop hout hid
    · simp only [Option.map_some, Option.some.injEq, Prod.mk.injEq] at h
      rw [← h.1] at hid
      exact Or.inl hid

/-- A deleted id is on the lists of the second round, over the builds not reaped before. -/
theorem mem_foldl_of_mem_deleted {logRetention : BuildLogRetention} {drainerConfigured : Bool}
    {now jobFirstLoggedBuildID : Int} {builds : List BuildForAPI} {reaping : Reaping}
    (h : reapWithRetention logRetention drainerConfigured now jobFirstLoggedBuildID builds =
      some reaping) {id : Int} (hid : id ∈ reaping.deleted) :
    id ∈ ((builds.filter fun b => !b.reaped).foldl (selectBuild logRetention drainerConfigured now)
        Selection.init).buildIDsToDelete ∨
      id ∈ ((builds.filter fun b => !b.reaped).foldl (selectBuild logRetention drainerConfigured now)
        Selection.init).candidateBuildIDsToKeep := by
  dsimp only [reapWithRetention] at h
  split at h
  · cases h; simp at hid
  split at h
  · cases h; simp at hid
  obtain ⟨⟨ids, firstLoggedBuildID⟩, hsel, hrfl⟩ := Option.map_eq_some_iff.mp h
  have hids : id ∈ ids := by
    rw [← hrfl] at hid
    split at hid
    · simp at hid
    · exact hid
  exact mem_selectAndTrim hsel hids

/-- A protected build adds nothing to the lists of the second round. -/
theorem selectBuild_lists_of_protected {logRetention : BuildLogRetention}
    {drainerConfigured : Bool} {now : Int} {s : Selection} {build : BuildForAPI}
    (h : Protected logRetention drainerConfigured s build) :
    (selectBuild logRetention drainerConfigured now s build).buildIDsToDelete =
        s.buildIDsToDelete ∧
      (selectBuild logRetention drainerConfigured now s build).candidateBuildIDsToKeep =
        s.candidateBuildIDsToKeep := by
  rcases @selectBuild_cases logRetention drainerConfigured now s build with
    ⟨heq, -⟩ | ⟨heq, -⟩ | ⟨-, hnot⟩ | ⟨-, hnot⟩
  · rw [heq]; exact ⟨rfl, rfl⟩
  · rw [heq]; exact ⟨rfl, rfl⟩
  · exact absurd h hnot
  · exact absurd h hnot

/-- With a count of builds and distinct ids, a running build, an undrained build under a drainer
and a succeeded build with fewer newer succeeded builds than the quota are never deleted.  The
second round reaches such a build with the quota not yet filled (`retainedSucceeded_foldl_le`),
so it adds nothing for it (`protected_of_spared`), and no other build carries its id. -/
theorem reapWithRetention_spares {logRetention : BuildLogRetention} {drainerConfigured : Bool}
    {now jobFirstLoggedBuildID : Int} {builds newer older : List BuildForAPI}
    {build : BuildForAPI} {reaping : Reaping} (hbuilds : logRetention.builds ≠ 0)
    (hids : (builds.map BuildForAPI.id).Nodup) (hsplit : builds = newer ++ build :: older)
    (hspared : build.isRunning = true ∨ (drainerConfigured = true ∧ build.isDrained = false) ∨
      (build.status = .succeeded ∧
        ((newer.filter fun b => b.status == .succeeded).length : Int) <
          logRetention.minimumSucceededBuilds))
    (h : reapWithRetention logRetention drainerConfigured now jobFirstLoggedBuildID builds =
      some reaping) :
    build.id ∉ reaping.deleted := by
  -- no other build carries the id
  subst hsplit
  have hnotin : build.id ∉ newer.map BuildForAPI.id ∧ build.id ∉ older.map BuildForAPI.id := by
    simp only [List.map_append, List.map_cons, List.nodup_append, List.nodup_cons,
      List.mem_cons] at hids
    exact ⟨fun h => hids.2.2 _ h _ (Or.inl rfl) rfl, hids.2.1.1⟩
  have hnewer : ∀ {l : List BuildForAPI}, l.Sublist newer →
      build.id ∉ l.map BuildForAPI.id := fun hl hid =>
    hnotin.1 ((hl.map _).subset hid)
  have holder : ∀ {l : List BuildForAPI}, l.Sublist older →
      build.id ∉ l.map BuildForAPI.id := fun hl hid =>
    hnotin.2 ((hl.map _).subset hid)
  intro hmem
  have hround := mem_foldl_of_mem_deleted h hmem
  rw [List.filter_append, List.filter_cons] at hround
  split at hround
  · -- the build is walked: still protected, it adds nothing to the lists
    rw [List.foldl_append, List.foldl_cons] at hround
    have hprotected : Protected logRetention drainerConfigured
        ((newer.filter fun b => !b.reaped).foldl (selectBuild logRetention drainerConfigured now)
          Selection.init) build :=
      protected_of_spared hbuilds List.filter_sublist hspared
    generalize hS : (newer.filter fun b => !b.reaped).foldl
      (selectBuild logRetention drainerConfigured now) Selection.init = S at hround hprotected
    obtain ⟨hdel, hcand⟩ := @selectBuild_lists_of_protected _ _ now _ _ hprotected
    rcases mem_foldl_selectBuild _ hround with hin | hin | hin
    · rw [hdel, ← hS] at hin
      exact hnewer List.filter_sublist (mem_foldl_selectBuild_init _ (Or.inl hin))
    · rw [hcand, ← hS] at hin
      exact hnewer List.filter_sublist (mem_foldl_selectBuild_init _ (Or.inr hin))
    · exact holder List.filter_sublist hin
  · -- the build was reaped before: the lists hold only other builds' ids
    have hin := mem_foldl_selectBuild_init _ hround
    rw [List.map_append] at hin
    rcases List.mem_append.mp hin with hin | hin
    · exact hnewer List.filter_sublist hin
    · exact holder List.filter_sublist hin

/-! ## A quota beside the default number of builds -/

/-- Without a maximum, a job's `min_success_builds` passes through beside the default number of
builds.  For a default of `d > 0` builds and no days, a job whose `build_log_retention` asks for
no builds, no days and `m > d` succeeded builds passes the validation.  On `m` succeeded builds
followed by one other, the succeeded ones fill the quota, the other is deleted, and the trimming
has to take `m - d` candidates from none: it reads `candidateBuildIDsToKeep[-1]` and panics. -/
theorem reapLogsOfJob_minimumSucceeded_outOfRange (br : BuildLogCollector) (now : Int)
    (identifier : String) (jobConfig : JobConfig) (jobFirstLoggedBuildID : Int)
    (succeeded : List BuildForAPI) (other : BuildForAPI)
    (hmax : br.buildLogRetentionCalculator.maxBuildLogsToRetain = 0 ∧
      br.buildLogRetentionCalculator.maxDaysToRetainBuildLogs = 0)
    (hdays : br.buildLogRetentionCalculator.defaultDaysToRetainBuildLogs = 0)
    (hdefault : 0 < goInt br.buildLogRetentionCalculator.defaultBuildLogsToRetain)
    (hmore : goInt br.buildLogRetentionCalculator.defaultBuildLogsToRetain < succeeded.length)
    (hjob : jobConfig.buildLogsToRetain = 0 ∧
      jobConfig.buildLogRetention = some ⟨0, succeeded.length, 0⟩)
    (hsucceeded : ∀ build ∈ succeeded, build.status = .succeeded ∧ build.isRunning = false ∧
      build.isDrained = true ∧ build.reaped = false)
    (hother : other.status ≠ .succeeded ∧ other.isRunning = false ∧ other.isDrained = true ∧
      other.reaped = false) :
    buildLogRetentionErrors identifier jobConfig = [] ∧
      br.reapLogsOfJob now jobConfig jobFirstLoggedBuildID (succeeded ++ [other]) = none := by
  obtain ⟨hlogs, hretention⟩ := hjob
  refine ⟨by simp [buildLogRetentionErrors, hlogs, hretention], ?_⟩
  -- the retention: the default number of builds, the job's quota and no days
  let retention : BuildLogRetention :=
    ⟨goInt br.buildLogRetentionCalculator.defaultBuildLogsToRetain, succeeded.length, 0⟩
  have hr : br.buildLogRetentionCalculator.buildLogsToRetain jobConfig = retention := by
    simp [BuildLogRetentionCalculator.buildLogsToRetain, hretention, hmax, hdays, retention]
    rfl
  -- the succeeded builds fill the quota
  obtain ⟨hdel, hcand, hret, -⟩ := @foldl_selectBuild_quota retention br.drainerConfigured now
    (by simp only [retention]; omega) (by simp only [retention]; omega) succeeded Selection.init
    (fun b hb => ⟨(hsucceeded b hb).1, (hsucceeded b hb).2.1, (hsucceeded b hb).2.2.1⟩)
    (by simp [Selection.init, retention])
  -- the other build is deleted: the count is full and there are no days
  have hstep := @selectBuild_of_full retention br.drainerConfigured now
    (succeeded.foldl (selectBuild retention br.drainerConfigured now) Selection.init) other
    hother.2.1 hother.2.2.1 (Or.inr hother.1)
    (by rw [hret]; simp only [Selection.init, retention]; omega)
    (Or.inl rfl)
  have hconsidered : (succeeded ++ [other]).filter (fun build => !build.reaped) =
      succeeded ++ [other] := by
    rw [List.filter_eq_self]
    intro b hb
    rcases List.mem_append.mp hb with hb | hb
    · simp [(hsucceeded b hb).2.2.2]
    · simp at hb; simp [hb, hother.2.2.2]
  unfold BuildLogCollector.reapLogsOfJob
  rw [hr]
  dsimp only [reapWithRetention, selectAndTrim]
  rw [hconsidered, List.foldl_append, List.foldl_cons, List.foldl_nil, hstep]
  rw [if_neg (by simp only [retention]; simp; omega), if_neg (by simp)]
  generalize succeeded.foldl (selectBuild retention br.drainerConfigured now) Selection.init = S
    at hdel hcand hret ⊢
  simp only [Selection.init] at hdel hcand hret
  simp only [hdel, hcand, hret, List.nil_append, List.isEmpty_cons, Bool.false_eq_true, if_false]
  -- more builds were kept than the count, and none of them is a candidate
  rw [if_pos (by simp only [retention]; simp; omega), trimLoop_eq_none (by simp; omega)]
  rfl

/-- A collector with a default of one build, no days and no maximum, a job that asks for two
succeeded builds, and a history of two succeeded builds and a failed one. -/
theorem reapLogsOfJob_minimumSucceeded_outOfRange_twoSucceeded :
    buildLogRetentionErrors "jobs.j"
        ⟨"j", 0, some ⟨0, 2, 0⟩, none, none, none, none, none, []⟩ = [] ∧
      (⟨false, ⟨1, 0, 0, 0⟩⟩ : BuildLogCollector).reapLogsOfJob 0
        ⟨"j", 0, some ⟨0, 2, 0⟩, none, none, none, none, none, []⟩ 0
        ([⟨3, .succeeded, some 0, false, true, false⟩, ⟨2, .succeeded, some 0, false, true, false⟩] ++
          [⟨1, .failed, some 0, false, true, false⟩]) = none :=
  reapLogsOfJob_minimumSucceeded_outOfRange ⟨false, ⟨1, 0, 0, 0⟩⟩ 0 "jobs.j"
    ⟨"j", 0, some ⟨0, 2, 0⟩, none, none, none, none, none, []⟩ 0
    [⟨3, .succeeded, some 0, false, true, false⟩, ⟨2, .succeeded, some 0, false, true, false⟩]
    ⟨1, .failed, some 0, false, true, false⟩
    ⟨rfl, rfl⟩ rfl (by decide) (by decide) ⟨rfl, rfl⟩ (by decide) (by decide)

/-! ## Older history decides the trimming -/

/-- The trimming only runs when something else is deleted.  With a count of one build, no
quota and some days, two recent builds are both kept: the second by its days, beyond the count.
Add an older build whose days are over: it is deleted, so the trimming runs and reaps the second
build too. -/
theorem reapWithRetention_older_expired (logRetention : BuildLogRetention)
    (drainerConfigured : Bool) (now jobFirstLoggedBuildID : Int) (b₁ b₂ e : BuildForAPI)
    (hretention : logRetention.builds = 1 ∧ logRetention.minimumSucceededBuilds = 0 ∧
      logRetention.days ≠ 0)
    (hrecent : ∀ b ∈ [b₁, b₂], b.isRunning = false ∧ b.isDrained = true ∧ b.reaped = false ∧
      b.hasExpired logRetention.days now = false)
    (hexpired : e.isRunning = false ∧ e.isDrained = true ∧ e.reaped = false ∧
      e.hasExpired logRetention.days now = true) :
    reapWithRetention logRetention drainerConfigured now jobFirstLoggedBuildID [b₁, b₂] =
        some ⟨[], none⟩ ∧
      (reapWithRetention logRetention drainerConfigured now jobFirstLoggedBuildID [b₁, b₂, e]).map
        Reaping.deleted = some [e.id, b₂.id] := by
  obtain ⟨hbuilds, hmin, hdays⟩ := hretention
  obtain ⟨hrun₁, hdrain₁, hreaped₁, hexp₁⟩ := hrecent b₁ (by simp)
  obtain ⟨hrun₂, hdrain₂, hreaped₂, hexp₂⟩ := hrecent b₂ (by simp)
  obtain ⟨hrunₑ, hdrainₑ, hreapedₑ, hexpₑ⟩ := hexpired
  -- the first build fills the count, the second is kept by its days
  have h₁ : selectBuild logRetention drainerConfigured now Selection.init b₁ =
      ⟨[], [b₁.id], 1, 0, b₁.id⟩ := by
    rw [selectBuild_of_kept hrun₁ hdrain₁ (Or.inl hmin)
      (Or.inl ⟨by omega, by simp [Selection.init, hbuilds]⟩)]
    rfl
  have h₂ : selectBuild logRetention drainerConfigured now ⟨[], [b₁.id], 1, 0, b₁.id⟩ b₂ =
      ⟨[], [b₁.id, b₂.id], 2, 0, b₂.id⟩ := by
    rw [selectBuild_of_kept hrun₂ hdrain₂ (Or.inl hmin) (Or.inr ⟨hdays, hexp₂⟩)]
    rfl
  -- the older build is deleted
  have hₑ : selectBuild logRetention drainerConfigured now ⟨[], [b₁.id, b₂.id], 2, 0, b₂.id⟩ e =
      ⟨[e.id], [b₁.id, b₂.id], 2, 0, b₂.id⟩ := by
    rw [selectBuild_of_full hrunₑ hdrainₑ (Or.inl hmin) (by simp [hbuilds]) (Or.inr hexpₑ)]
    rfl
  have hnotboth : (logRetention.builds == 0 && logRetention.days == 0) = false := by
    simp [hbuilds]
  have hfilter : [b₁, b₂, e].filter (fun build => !build.reaped) = [b₁, b₂, e] := by
    simp [hreaped₁, hreaped₂, hreapedₑ]
  constructor
  · simp [reapWithRetention, selectAndTrim, hnotboth, hreaped₁, hreaped₂, h₁, h₂]
  · simp only [reapWithRetention, selectAndTrim, hnotboth, hfilter, List.foldl_cons,
      List.foldl_nil, h₁, h₂, hₑ]
    -- two builds kept against a count of one: the trimming takes the newer candidate
    simp [hbuilds, trimLoop_eq_some]

/-- A count of one build and ten days: builds 3 and 2 ended a day before now, build 1 long ago. -/
theorem reapWithRetention_older_expired_tenDays :
    reapWithRetention ⟨1, 0, 10⟩ false 2000000 0
        [⟨3, .succeeded, some 1913600, false, true, false⟩,
          ⟨2, .succeeded, some 1913600, false, true, false⟩] = some ⟨[], none⟩ ∧
      (reapWithRetention ⟨1, 0, 10⟩ false 2000000 0
        [⟨3, .succeeded, some 1913600, false, true, false⟩,
          ⟨2, .succeeded, some 1913600, false, true, false⟩,
          ⟨1, .failed, some 100, false, true, false⟩]).map Reaping.deleted = some [1, 2] :=
  reapWithRetention_older_expired ⟨1, 0, 10⟩ false 2000000 0
    ⟨3, .succeeded, some 1913600, false, true, false⟩
    ⟨2, .succeeded, some 1913600, false, true, false⟩ ⟨1, .failed, some 100, false, true, false⟩
    ⟨rfl, rfl, by decide⟩ (by decide) (by decide)

end Gc
end Concourse
