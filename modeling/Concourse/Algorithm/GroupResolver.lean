import Mathlib.Data.List.Sort
import Concourse.Db.VersionsDB
import Concourse.Lib.UndoLog

/-!
# The group resolver

`atc/scheduler/algorithm/group_resolver.go` chooses one version for every input of a
group of inputs that share `passed` jobs.  It is a backtracking search over builds of
the passed jobs, written as four mutually recursive methods

```
tryResolve → trySatisfyPassedConstraintsForInput → tryJobBuilds → tryBuildOutputs → tryResolve
```

that share the mutable slice `candidates`, the memo `doomedCandidates` and the lazily
fetched `lastUsedPassedBuilds`.

The model keeps the Go structure.  Every method takes the state it reads and returns the
state it leaves behind; the fields that never change once `Resolve` has found the pins
form `GroupResolver`.  The only recursion that is not over a list is the call of
`tryResolve` from `tryBuildOutputs`: each method below takes that call as its parameter
`tryResolve`, and `tryResolve fuel` ties the knot, one unit of fuel per nesting level.
`none` means the fuel ran out, something the Go code never does; with enough fuel every
call returns `some`.
-/

namespace Concourse
namespace Algorithm

open Db

/-- `versionCandidate`.  `VouchedForBy` is a set of job ids, kept as the list of its keys. -/
structure VersionCandidate where
  version : ResourceVersion
  vouchedForBy : List Nat
  sourceBuildIds : List Nat
  hasNextEveryVersion : Bool
  deriving DecidableEq, Repr

/-- `newCandidateVersion`. -/
def newCandidateVersion (version : ResourceVersion) : VersionCandidate :=
  { version, vouchedForBy := [], sourceBuildIds := [], hasNextEveryVersion := false }

/-- `vouchForCandidate`: a new candidate for `version` that carries over the vouchers and
source builds of the old one and adds `passedJobID` and `passedBuildID`. -/
def vouchForCandidate (oldCandidate : Option VersionCandidate) (version : ResourceVersion)
    (passedJobID passedBuildID : Nat) (hasNext : Bool) : VersionCandidate :=
  let newCandidate := match oldCandidate with
    | some old =>
      { newCandidateVersion version with
        vouchedForBy := old.vouchedForBy
        sourceBuildIds := old.sourceBuildIds
        hasNextEveryVersion := old.hasNextEveryVersion }
    | none => newCandidateVersion version
  { newCandidate with
    vouchedForBy := newCandidate.vouchedForBy.insert passedJobID
    sourceBuildIds := newCandidate.sourceBuildIds ++ [passedBuildID]
    hasNextEveryVersion := newCandidate.hasNextEveryVersion || hasNext }

section vouchForCandidate

variable (oldCandidate : Option VersionCandidate) (version : ResourceVersion)
  (passedJobID passedBuildID : Nat) (hasNext : Bool)

@[simp] theorem vouchForCandidate_version :
    (vouchForCandidate oldCandidate version passedJobID passedBuildID hasNext).version =
      version := by
  cases oldCandidate <;> rfl

@[simp] theorem vouchForCandidate_vouchedForBy :
    (vouchForCandidate oldCandidate version passedJobID passedBuildID hasNext).vouchedForBy =
      ((oldCandidate.map (·.vouchedForBy)).getD []).insert passedJobID := by
  cases oldCandidate <;> rfl

@[simp] theorem vouchForCandidate_sourceBuildIds :
    (vouchForCandidate oldCandidate version passedJobID passedBuildID hasNext).sourceBuildIds =
      (oldCandidate.map (·.sourceBuildIds)).getD [] ++ [passedBuildID] := by
  cases oldCandidate <;> rfl

end vouchForCandidate

/-- `orderJobs`: the passed jobs, sorted. -/
def orderJobs (jobIDs : List Nat) : List Nat :=
  jobIDs.insertionSort (· ≤ ·)

/-- The fields of `groupResolver` that stay fixed during the search. -/
structure GroupResolver where
  vdb : VersionsDB
  inputConfigs : List InputConfig
  /-- The digest of each pinned input's version; `""` for an input without a pin. -/
  pins : List ResourceVersion

/-- The fields of `groupResolver` the search writes. -/
structure ResolverState where
  candidates : List (Option VersionCandidate)
  doomedCandidates : List (Option VersionCandidate)
  /-- `nil` until `LatestBuildUsingLatestVersion` finds a build; a map from job to build. -/
  lastUsedPassedBuilds : Option (List (Nat × BuildCursor))

/-- `NewGroupResolver`: no candidates, nothing doomed, no build pipes fetched. -/
def ResolverState.init (n : Nat) : ResolverState :=
  { candidates := List.replicate n none
    doomedCandidates := List.replicate n none
    lastUsedPassedBuilds := none }

/-- `doomCandidates`: remember the current choice as one that cannot succeed. -/
def ResolverState.doomCandidates (st : ResolverState) : ResolverState :=
  { st with doomedCandidates := st.candidates }

@[simp] theorem ResolverState.doomCandidates_candidates (st : ResolverState) :
    st.doomCandidates.candidates = st.candidates := rfl

/-- `candidatesAreDoomed`: every candidate has the version of the doomed one at its index. -/
def ResolverState.candidatesAreDoomed (st : ResolverState) : Bool :=
  (List.range st.candidates.length).all fun i =>
    match st.candidates.getD i none, st.doomedCandidates.getD i none with
    | none, none => true
    | some c, some doomed => c.version == doomed.version
    | _, _ => false

/-- Go map lookup on a map filled row by row: the last row for a key wins. -/
def lookupBuild (builds : List (Nat × BuildCursor)) (jobID : Nat) : Option BuildCursor :=
  builds.reverse.lookup jobID

/-- The state of the loop over one build's outputs in `tryBuildOutputs`: the candidates,
the `restore` map, the last value assigned to `mismatch`, and whether the loop left
through `break outputs`. -/
structure OutputsScan where
  candidates : List (Option VersionCandidate)
  restore : List (Nat × Option VersionCandidate)
  mismatch : Bool
  stopped : Bool

/-- Put back the candidates recorded in `restore`, an undo log.  Its keys are distinct, so
the order a Go map iteration picks does not matter. -/
def restoreCandidates (restore : List (Nat × Option VersionCandidate))
    (candidates : List (Option VersionCandidate)) : List (Option VersionCandidate) :=
  UndoLog.undo restore candidates

namespace GroupResolver

variable (r : GroupResolver)

/-- `r.inputConfigs[i]`. -/
def inputConfig (i : Nat) : InputConfig :=
  r.inputConfigs.getD i default

/-- `r.pins[i]`. -/
def pin (i : Nat) : ResourceVersion :=
  r.pins.getD i ""

/-- `constrainingCandidates`: the chosen version of every input constrained by the job,
as `(resource id, version)` pairs. -/
def constrainingCandidates (st : ResolverState) (passedJobID : Nat) :
    List (Nat × ResourceVersion) :=
  (List.range r.inputConfigs.length).filterMap fun passedIndex =>
    if passedJobID ∈ (r.inputConfig passedIndex).passed then
      (st.candidates.getD passedIndex none).map fun c =>
        ((r.inputConfig passedIndex).resourceID, c.version)
    else none

/-- `outputIsRelatedAndMatches`: whether the output can vouch for candidate
`candidateIdx`, and whether it contradicts the version already chosen for it. -/
def outputIsRelatedAndMatches (candidates : List (Option VersionCandidate))
    (output : AlgorithmVersion) (candidateIdx passedJobID : Nat) : Bool × Bool :=
  let inputConfig := r.inputConfig candidateIdx
  let candidate := candidates.getD candidateIdx none
  if inputConfig.resourceID ≠ output.resourceID then
    -- unrelated; different resource
    (false, false)
  else if passedJobID ∉ inputConfig.passed then
    -- unrelated; this input is unaffected by the current job
    (false, false)
  else if candidate.any (fun c => c.version ≠ output.version) then
    (false, true)
  else if r.vdb.versionIsDisabled output.resourceID output.version then
    (false, false)
  else if inputConfig.pinnedVersion.isSome ∧ r.pin candidateIdx ≠ output.version then
    -- pinned, and the pin is not the version the job produced
    (false, false)
  else
    (true, false)

/-- The inner loop of `tryBuildOutputs`: try one output on every candidate. -/
def tryOutputOnCandidates (jobID buildID : Nat) (hasNext : Bool) (output : AlgorithmVersion) :
    List Nat → OutputsScan → OutputsScan
  | [], scan => scan
  | c :: cs, scan =>
    if c ∈ scan.restore.map Prod.fst then
      -- a new version was already set for this candidate within this build
      tryOutputOnCandidates jobID buildID hasNext output cs scan
    else
      let rm := r.outputIsRelatedAndMatches scan.candidates output c jobID
      let scan := { scan with mismatch := rm.2 }
      if rm.2 then
        { scan with stopped := true }
      else if !rm.1 then
        tryOutputOnCandidates jobID buildID hasNext output cs scan
      else
        let candidate := scan.candidates.getD c none
        if candidate.isNone && !r.vdb.versionExists output.resourceID output.version then
          { scan with stopped := true }
        else
          tryOutputOnCandidates jobID buildID hasNext output cs
            { scan with
              restore := scan.restore ++ [(c, candidate)]
              candidates := scan.candidates.set c
                (some (vouchForCandidate candidate output.version jobID buildID hasNext)) }

/-- The outer loop of `tryBuildOutputs`, over the outputs of the build. -/
def tryOutputs (jobID buildID : Nat) (hasNext : Bool) :
    List AlgorithmVersion → OutputsScan → OutputsScan
  | [], scan => scan
  | output :: outputs, scan =>
    let scan := r.tryOutputOnCandidates jobID buildID hasNext output
      (List.range scan.candidates.length) scan
    if scan.stopped then scan else tryOutputs jobID buildID hasNext outputs scan

/-- The type of `tryResolve` and `trySatisfyPassedConstraintsForInput`. -/
abbrev Attempt := ResolverState → Option (Bool × ResolutionFailure × ResolverState)

/-- `tryBuildOutputs`: vouch for every candidate the build's outputs relate to, recurse
if the resolving input now has this job's voucher, and undo the vouching otherwise. -/
def tryBuildOutputs (tryResolve : Attempt) (st : ResolverState)
    (resolvingIdx jobID buildID : Nat) (hasNext : Bool) : Option (Bool × ResolverState) :=
  let scan := r.tryOutputs jobID buildID hasNext (r.vdb.successfulBuildOutputs buildID)
    { candidates := st.candidates, restore := [], mismatch := false, stopped := false }
  let st := { st with candidates := scan.candidates }
  let giveUp (st : ResolverState) : ResolverState :=
    { st with candidates := restoreCandidates scan.restore st.candidates }
  if (st.candidates.getD resolvingIdx none).any (fun c => jobID ∈ c.vouchedForBy) &&
      !scan.mismatch then
    if st.candidatesAreDoomed then
      some (false, giveUp st)
    else
      match tryResolve st with
      | none => none
      | some (true, _, st) => some (true, st)
      | some (false, _, st) => some (false, giveUp st.doomCandidates)
  else
    some (false, giveUp st)

/-- `tryJobBuilds`: try the builds of the cursor in turn until one works. -/
def tryJobBuilds (tryResolve : Attempt) (inputIndex passedJobID : Nat) :
    PaginatedBuilds → ResolverState → Option (Bool × ResolverState)
  | [], st => some (false, st)
  | (buildID, hasNext) :: builds, st =>
    match r.tryBuildOutputs tryResolve st inputIndex passedJobID buildID hasNext with
    | none => none
    | some (true, st) => some (true, st)
    | some (false, st) => tryJobBuilds tryResolve inputIndex passedJobID builds st

/-- A round of `tryJobBuilds` that answers: the build's outputs answered, and either they worked
or the builds after it answered. -/
theorem tryJobBuilds_cons_eq_some {tryResolve : Attempt} {inputIndex passedJobID buildID : Nat}
    {hasNext : Bool} {builds : PaginatedBuilds} {st : ResolverState} {res : Bool × ResolverState}
    (h : r.tryJobBuilds tryResolve inputIndex passedJobID ((buildID, hasNext) :: builds) st =
      some res) :
    ∃ ok st₁, r.tryBuildOutputs tryResolve st inputIndex passedJobID buildID hasNext =
        some (ok, st₁) ∧
      (ok = true ∧ res = (true, st₁) ∨
        ok = false ∧ r.tryJobBuilds tryResolve inputIndex passedJobID builds st₁ = some res) := by
  unfold tryJobBuilds at h
  cases htb : r.tryBuildOutputs tryResolve st inputIndex passedJobID buildID hasNext with
  | none => simp [htb] at h
  | some res' =>
    obtain ⟨ok, st₁⟩ := res'
    refine ⟨ok, st₁, rfl, ?_⟩
    cases ok
    · simp only [htb] at h
      exact .inr ⟨rfl, h⟩
    · simp only [htb, Option.some.injEq] at h
      exact .inl ⟨rfl, h.symm⟩

/-- The build pipes of the last build that used the latest version, fetched on first use. -/
def lastUsedPassedBuildsFor (st : ResolverState) (currentInputConfig : InputConfig)
    (currentJobID : Nat) : Option (List (Nat × BuildCursor)) :=
  match st.lastUsedPassedBuilds with
  | some builds => some builds
  | none =>
    (r.vdb.latestBuildUsingLatestVersion currentJobID currentInputConfig.resourceID).map
      r.vdb.latestBuildPipes

/-- `relatedPassedBuilds`: the fetched build pipes of the jobs the input passes through. -/
def relatedPassedBuilds (lastUsedPassedBuilds : Option (List (Nat × BuildCursor)))
    (currentInputConfig : InputConfig) : List (Nat × BuildCursor) :=
  (lastUsedPassedBuilds.getD []).filter fun p => p.1 ∈ currentInputConfig.passed

/-- `paginatedBuilds`: the builds to try for a passed job, or `skip` to defer the job. -/
def paginatedBuilds (st : ResolverState) (currentInputConfig : InputConfig)
    (currentCandidate : Option VersionCandidate) (currentJobID passedJobID : Nat) :
    PaginatedBuilds × Bool × ResolverState :=
  let constraints := r.constrainingCandidates st passedJobID
  let fromLatest :=
    if currentCandidate.isSome then
      r.vdb.successfulBuildsVersionConstrained passedJobID constraints
    else
      r.vdb.successfulBuilds passedJobID
  if currentInputConfig.useEveryVersion then
    let st := { st with
      lastUsedPassedBuilds := r.lastUsedPassedBuildsFor st currentInputConfig currentJobID }
    let relatedPassedBuilds := relatedPassedBuilds st.lastUsedPassedBuilds currentInputConfig
    match lookupBuild relatedPassedBuilds passedJobID with
    | some lastUsedBuild =>
      if currentCandidate.isSome then
        (r.vdb.unusedBuildsVersionConstrained passedJobID lastUsedBuild constraints, false, st)
      else
        (r.vdb.unusedBuilds passedJobID lastUsedBuild, false, st)
    | none =>
      if currentCandidate.isNone && !relatedPassedBuilds.isEmpty then
        -- version: every and passed: ran before, just not with this job; let the
        -- other jobs choose and have this one vouch during the recursive resolve
        ([], true, st)
      else
        (fromLatest, false, st)
  else
    (fromLatest, false, st)

section paginatedBuilds

variable {r} {st : ResolverState} {cfg : InputConfig} {cc : Option VersionCandidate}
  {currentJobID passedJobID : Nat}

/-- Choosing the builds only ever fetches the build pipes. -/
theorem paginatedBuilds_state :
    (r.paginatedBuilds st cfg cc currentJobID passedJobID).2.2 =
      if cfg.useEveryVersion then
        { st with lastUsedPassedBuilds := r.lastUsedPassedBuildsFor st cfg currentJobID }
      else st := by
  unfold paginatedBuilds
  dsimp only
  by_cases hevery : cfg.useEveryVersion = true
  · simp only [hevery, if_true]
    cases lookupBuild (relatedPassedBuilds (r.lastUsedPassedBuildsFor st cfg currentJobID) cfg)
      passedJobID with
    | some b => dsimp only; split_ifs <;> rfl
    | none => dsimp only; split_ifs <;> rfl
  · simp only [hevery, Bool.false_eq_true, if_false]

@[simp] theorem paginatedBuilds_candidates :
    (r.paginatedBuilds st cfg cc currentJobID passedJobID).2.2.candidates = st.candidates := by
  rw [paginatedBuilds_state]
  split_ifs <;> rfl

/-- Every build offered for a passed job is a successful build of that job. -/
theorem paginatedBuilds_successful :
    ∀ p ∈ (r.paginatedBuilds st cfg cc currentJobID passedJobID).1,
      r.vdb.IsSuccessfulBuild passedJobID p.1 := by
  have hlatest : ∀ p ∈ (if cc.isSome then
      r.vdb.successfulBuildsVersionConstrained passedJobID
        (r.constrainingCandidates st passedJobID)
      else r.vdb.successfulBuilds passedJobID), r.vdb.IsSuccessfulBuild passedJobID p.1 := by
    intro p hp
    split_ifs at hp
    · exact VersionsDB.isSuccessfulBuild_of_mem_successfulBuildsVersionConstrained hp
    · exact VersionsDB.isSuccessfulBuild_of_mem_successfulBuilds hp
  intro p hp
  unfold paginatedBuilds at hp
  dsimp only at hp
  by_cases hevery : cfg.useEveryVersion = true
  · simp only [hevery, if_true] at hp
    cases hlookup : lookupBuild
      (relatedPassedBuilds (r.lastUsedPassedBuildsFor st cfg currentJobID) cfg) passedJobID with
    | some b =>
      rw [hlookup] at hp
      dsimp only at hp
      by_cases hcc : cc.isSome = true
      · simp only [hcc, if_true] at hp
        exact VersionsDB.isSuccessfulBuild_of_mem_unusedBuildsVersionConstrained hp
      · simp only [hcc, Bool.false_eq_true, if_false] at hp
        exact VersionsDB.isSuccessfulBuild_of_mem_unusedBuilds hp
    | none =>
      rw [hlookup] at hp
      dsimp only at hp
      by_cases hskip : (cc.isNone &&
          !(relatedPassedBuilds (r.lastUsedPassedBuildsFor st cfg currentJobID) cfg).isEmpty) =
          true
      · simp only [hskip, if_true, List.not_mem_nil] at hp
      · simp only [hskip, Bool.false_eq_true, if_false] at hp
        exact hlatest p hp
  · simp only [hevery, Bool.false_eq_true, if_false] at hp
    exact hlatest p hp

/-- A deferred job: only without a candidate, with `version: every`, when some other
passed job of the input has a build pipe and this one has none. -/
theorem paginatedBuilds_skip
    (h : (r.paginatedBuilds st cfg cc currentJobID passedJobID).2.1 = true) :
    cc = none ∧ cfg.useEveryVersion = true ∧
      lookupBuild (relatedPassedBuilds (r.lastUsedPassedBuildsFor st cfg currentJobID) cfg)
        passedJobID = none ∧
      relatedPassedBuilds (r.lastUsedPassedBuildsFor st cfg currentJobID) cfg ≠ [] := by
  unfold paginatedBuilds at h
  dsimp only at h
  by_cases hevery : cfg.useEveryVersion = true
  · simp only [hevery, if_true] at h
    cases hlookup : lookupBuild
      (relatedPassedBuilds (r.lastUsedPassedBuildsFor st cfg currentJobID) cfg) passedJobID with
    | some b =>
      rw [hlookup] at h
      dsimp only at h
      split_ifs at h
    | none =>
      rw [hlookup] at h
      dsimp only at h
      by_cases hskip : (cc.isNone &&
          !(relatedPassedBuilds (r.lastUsedPassedBuildsFor st cfg currentJobID) cfg).isEmpty) =
          true
      · simp only [Bool.and_eq_true, Option.isNone_iff_eq_none, Bool.not_eq_true',
          List.isEmpty_eq_false_iff] at hskip
        exact ⟨hskip.1, hevery, rfl, hskip.2⟩
      · simp only [hskip, Bool.false_eq_true, if_false] at h
  · simp only [hevery, Bool.false_eq_true, if_false] at h

/-- The build pipes are fetched at most once: fetching again changes nothing. -/
@[simp] theorem lastUsedPassedBuildsFor_idem :
    r.lastUsedPassedBuildsFor
        { st with lastUsedPassedBuilds := r.lastUsedPassedBuildsFor st cfg currentJobID }
        cfg currentJobID =
      r.lastUsedPassedBuildsFor st cfg currentJobID := by
  unfold lastUsedPassedBuildsFor
  cases st.lastUsedPassedBuilds with
  | some builds => rfl
  | none => cases r.vdb.latestBuildUsingLatestVersion currentJobID cfg.resourceID <;> rfl

end paginatedBuilds

/-- The loop of `trySatisfyPassedConstraintsForInput` over the ordered passed jobs. -/
def tryOrderedJobs (tryResolve : Attempt) (inputIndex : Nat) (inputConfig : InputConfig)
    (currentCandidate : Option VersionCandidate) : List Nat → Attempt
  | [], st => some (true, "", st)
  | passedJobID :: jobs, st =>
    if currentCandidate.any (fun c => passedJobID ∈ c.vouchedForBy) then
      -- coming from a recursive call that already has this job's voucher
      tryOrderedJobs tryResolve inputIndex inputConfig currentCandidate jobs st
    else
      let pb := r.paginatedBuilds st inputConfig currentCandidate inputConfig.jobID passedJobID
      if pb.2.1 then
        tryOrderedJobs tryResolve inputIndex inputConfig currentCandidate jobs pb.2.2
      else
        match r.tryJobBuilds tryResolve inputIndex passedJobID pb.1 pb.2.2 with
        | none => none
        | some (true, st) => some (true, "", st)
        | some (false, st) => some (false, noSatisfiableBuilds, st)

/-- `trySatisfyPassedConstraintsForInput`. -/
def trySatisfyPassedConstraintsForInput (tryResolve : Attempt) (inputIndex : Nat) : Attempt :=
  fun st =>
    let inputConfig := r.inputConfig inputIndex
    r.tryOrderedJobs tryResolve inputIndex inputConfig (st.candidates.getD inputIndex none)
      (orderJobs inputConfig.passed) st

/-- The loop of `tryResolve` over the inputs. -/
def tryInputs (tryResolve : Attempt) : List Nat → Attempt
  | [], st => some (true, "", st)
  | inputIndex :: inputs, st =>
    match r.trySatisfyPassedConstraintsForInput tryResolve inputIndex st with
    | none => none
    | some (true, _, st) => tryInputs tryResolve inputs st
    | some (false, failure, st) => some (false, failure, st)

/-- `tryResolve`, with `fuel` bounding the nesting of its recursive calls. -/
def tryResolve : Nat → GroupResolver → Attempt
  | 0, _, _ => none
  | fuel + 1, r, st => r.tryInputs (tryResolve fuel r) (List.range r.inputConfigs.length) st

end GroupResolver

/-- The pin lookup at the start of `Resolve`: the digest of every pinned version, or the
failure for the first pinned version that does not exist. -/
def findPins (vdb : VersionsDB) : List InputConfig → Except ResolutionFailure (List ResourceVersion)
  | [] => .ok []
  | cfg :: cfgs =>
    match cfg.pinnedVersion with
    | none => (findPins vdb cfgs).map ("" :: ·)
    | some pinnedVersion =>
      match vdb.findVersionOfResource cfg.resourceID pinnedVersion with
      | none => .error (pinnedVersionNotFound pinnedVersion)
      | some version => (findPins vdb cfgs).map (version :: ·)

/-- The result of `Resolve`: the candidate chosen for each input, by name, or `nil`, with
the failure. -/
abbrev Resolution := Option (List (String × Option VersionCandidate)) × ResolutionFailure

/-- `groupResolver.Resolve` with the given fuel for `tryResolve`. -/
def resolve (fuel : Nat) (vdb : VersionsDB) (inputConfigs : List InputConfig) :
    Option Resolution :=
  match findPins vdb inputConfigs with
  | .error failure => some (none, failure)
  | .ok pins =>
    let r : GroupResolver := { vdb, inputConfigs, pins }
    match GroupResolver.tryResolve fuel r (ResolverState.init inputConfigs.length) with
    | none => none
    | some (false, failure, _) => some (none, failure)
    | some (true, _, st) =>
      some (some (inputConfigs.mapIdx fun i input => (input.name, st.candidates.getD i none)), "")

end Algorithm
end Concourse
