import Mathlib.Data.List.Basic

/-!
# The versions database seen by the input resolvers

`atc/db/versions_db.go` answers the questions the scheduler's resolvers ask about
builds, build outputs and resource versions.  The resolvers only read it, so the
database is modelled as a pure relation: for every job the builds that succeeded, in
the order `SuccessfulBuilds` pages through them
(`COALESCE(rerun_of, rerun_of_old, id) DESC, id DESC`), the outputs recorded for each
build, and which versions of a resource exist and which are disabled.

A `PaginatedBuilds` cursor is represented by the whole sequence it yields, each build
paired with what `HasNext` answers right after `Next` produced it.  Nothing writes to
the database while a resolver runs, so reading the cursor lazily, as the Go code does,
and reading it at once give the same sequence.
-/

namespace Concourse
namespace Db

/-- `db.ResourceVersion`: the digest of a version of a resource. -/
abbrev ResourceVersion := String

/-- `atc.Version`: the fields of a version, in the order a map iteration meets them. -/
abbrev Version := List (String × String)

/-- `db.ResolutionFailure` is a string type. -/
abbrev ResolutionFailure := String

/-- `db.NoSatisfiableBuilds`. -/
def noSatisfiableBuilds : ResolutionFailure :=
  "no satisfiable builds from passed jobs found for set of inputs"

/-- `PinnedVersionNotFound.String`: one ` key:value` per field of the pinned version. -/
def pinnedVersionNotFound (pinnedVersion : Version) : ResolutionFailure :=
  "pinned version" ++ String.join (pinnedVersion.map fun kv => " " ++ kv.1 ++ ":" ++ kv.2) ++
    " not found"

/-- `db.AlgorithmVersion`: a version of a resource. -/
structure AlgorithmVersion where
  resourceID : Nat
  version : ResourceVersion
  deriving DecidableEq, Repr

/-- `db.BuildCursor`: a build id with `COALESCE(rerun_of, rerun_of_old)`. -/
structure BuildCursor where
  id : Nat
  rerunOf : Option Nat
  deriving DecidableEq, Repr

/-- `db.InputConfig`.  `Passed` is a `JobSet` whose values are always `true`
(`job.AlgorithmInputs` only stores `true`), so it is the list of its keys. -/
structure InputConfig where
  name : String
  trigger : Bool
  passed : List Nat
  useEveryVersion : Bool
  pinnedVersion : Option Version
  resourceID : Nat
  jobID : Nat
  deriving DecidableEq, Repr, Inhabited

namespace BuildCursor

/-- The key the build queries order by: `COALESCE(rerun_of, rerun_of_old, id)`, then `id`.
A rerun sorts with the build it reruns. -/
def sortKey (b : BuildCursor) : Nat × Nat := (b.rerunOf.getD b.id, b.id)

/-- `b` comes strictly after `c` in ascending key order, i.e. `b` is newer than `c`. -/
def newer (c b : BuildCursor) : Bool :=
  c.sortKey.1 < b.sortKey.1 || (c.sortKey.1 == b.sortKey.1 && c.sortKey.2 < b.sortKey.2)

end BuildCursor

/-- A `PaginatedBuilds` cursor: the build ids `Next` yields, each with `HasNext`. -/
abbrev PaginatedBuilds := List (Nat × Bool)

/-- The part of `VersionsDB` the resolvers read. -/
structure VersionsDB where
  /-- The `builds` rows of a job with `status = 'succeeded'`, newest first. -/
  succeededBuilds : Nat → List BuildCursor
  /-- `SuccessfulBuildOutputs`: the inputs and outputs recorded for a build. -/
  successfulBuildOutputs : Nat → List AlgorithmVersion
  /-- `VersionExists`. -/
  versionExists : Nat → ResourceVersion → Bool
  /-- `VersionIsDisabled`. -/
  versionIsDisabled : Nat → ResourceVersion → Bool
  /-- `FindVersionOfResource`: the digest of the version whose fields contain the given ones. -/
  findVersionOfResource : Nat → Version → Option ResourceVersion
  /-- `LatestBuildUsingLatestVersion (jobID, resourceID)`. -/
  latestBuildUsingLatestVersion : Nat → Nat → Option Nat
  /-- `LatestBuildPipes`: the rows `(job_id, from build)` of the build pipes into a build. -/
  latestBuildPipes : Nat → List (Nat × BuildCursor)

namespace VersionsDB

variable (vdb : VersionsDB)

/-- `b` is a successful build of job `jobID`. -/
def IsSuccessfulBuild (jobID b : Nat) : Prop :=
  ∃ c ∈ vdb.succeededBuilds jobID, c.id = b

/-- The `outputs @> constraints` test of the version-constrained queries: every
constraining version is among the build's outputs. -/
def outputsContain (outputs : List AlgorithmVersion)
    (constraints : List (Nat × ResourceVersion)) : Bool :=
  constraints.all fun c => outputs.contains ⟨c.1, c.2⟩

/-- `SuccessfulBuilds`: every successful build of the job, newest first. -/
def successfulBuilds (jobID : Nat) : PaginatedBuilds :=
  (vdb.succeededBuilds jobID).map fun b => (b.id, false)

/-- `SuccessfulBuildsVersionConstrained`: the successful builds whose outputs contain every
constraining version. -/
def successfulBuildsVersionConstrained (jobID : Nat)
    (constrainingCandidates : List (Nat × ResourceVersion)) : PaginatedBuilds :=
  ((vdb.succeededBuilds jobID).filter fun b =>
      outputsContain (vdb.successfulBuildOutputs b.id) constrainingCandidates).map
    fun b => (b.id, false)

/-- `newerBuilds`: the successful builds newer than `lastUsedBuild`, oldest first. -/
def newerBuilds (jobID : Nat) (lastUsedBuild : BuildCursor) : List BuildCursor :=
  ((vdb.succeededBuilds jobID).filter fun b => lastUsedBuild.newer b).reverse

/-- The paged part of `UnusedBuilds`: `lastUsedBuild` itself and everything older. -/
def usedOrOlderBuilds (jobID : Nat) (lastUsedBuild : BuildCursor) : List BuildCursor :=
  (vdb.succeededBuilds jobID).filter fun b => b.id == lastUsedBuild.id || b.newer lastUsedBuild

/-- `UnusedBuilds`: the prefetched newer builds, for which `HasNext` is `true`, then the
pages of older ones, for which it is `false`. -/
def unusedBuilds (jobID : Nat) (lastUsedBuild : BuildCursor) : PaginatedBuilds :=
  (vdb.newerBuilds jobID lastUsedBuild).map (fun b => (b.id, true)) ++
    (vdb.usedOrOlderBuilds jobID lastUsedBuild).map fun b => (b.id, false)

/-- `UnusedBuildsVersionConstrained`: as `UnusedBuilds`, but only the paged part is
constrained; the prefetched newer builds are not. -/
def unusedBuildsVersionConstrained (jobID : Nat) (lastUsedBuild : BuildCursor)
    (constrainingCandidates : List (Nat × ResourceVersion)) : PaginatedBuilds :=
  (vdb.newerBuilds jobID lastUsedBuild).map (fun b => (b.id, true)) ++
    ((vdb.usedOrOlderBuilds jobID lastUsedBuild).filter fun b =>
        outputsContain (vdb.successfulBuildOutputs b.id) constrainingCandidates).map
      fun b => (b.id, false)

/-! ## Every cursor yields successful builds of its job -/

variable {vdb}

theorem isSuccessfulBuild_of_mem_map {jobID b : Nat} {hasNext : Bool} {bs : List BuildCursor}
    (hsub : ∀ c ∈ bs, c ∈ vdb.succeededBuilds jobID) (f : BuildCursor → Bool)
    (h : (b, hasNext) ∈ bs.map fun c => (c.id, f c)) : vdb.IsSuccessfulBuild jobID b := by
  obtain ⟨c, hc, heq⟩ := List.mem_map.mp h
  exact ⟨c, hsub c hc, (Prod.mk.inj heq).1⟩

theorem newerBuilds_sub {jobID : Nat} {last : BuildCursor} :
    ∀ c ∈ vdb.newerBuilds jobID last, c ∈ vdb.succeededBuilds jobID := by
  intro c hc
  simp only [newerBuilds, List.mem_reverse, List.mem_filter] at hc
  exact hc.1

theorem usedOrOlderBuilds_sub {jobID : Nat} {last : BuildCursor} :
    ∀ c ∈ vdb.usedOrOlderBuilds jobID last, c ∈ vdb.succeededBuilds jobID := by
  intro c hc
  exact (List.mem_filter.mp hc).1

theorem isSuccessfulBuild_of_mem_successfulBuilds {jobID b : Nat} {hasNext : Bool}
    (h : (b, hasNext) ∈ vdb.successfulBuilds jobID) : vdb.IsSuccessfulBuild jobID b :=
  isSuccessfulBuild_of_mem_map (fun _ hc => hc) (fun _ => false) h

theorem isSuccessfulBuild_of_mem_successfulBuildsVersionConstrained {jobID b : Nat}
    {hasNext : Bool} {cs : List (Nat × ResourceVersion)}
    (h : (b, hasNext) ∈ vdb.successfulBuildsVersionConstrained jobID cs) :
    vdb.IsSuccessfulBuild jobID b :=
  isSuccessfulBuild_of_mem_map (fun _ hc => (List.mem_filter.mp hc).1) (fun _ => false) h

theorem isSuccessfulBuild_of_mem_unusedBuilds {jobID b : Nat} {hasNext : Bool}
    {last : BuildCursor} (h : (b, hasNext) ∈ vdb.unusedBuilds jobID last) :
    vdb.IsSuccessfulBuild jobID b := by
  rcases List.mem_append.mp h with hnew | hold
  · exact isSuccessfulBuild_of_mem_map newerBuilds_sub (fun _ => true) hnew
  · exact isSuccessfulBuild_of_mem_map usedOrOlderBuilds_sub (fun _ => false) hold

theorem isSuccessfulBuild_of_mem_unusedBuildsVersionConstrained {jobID b : Nat}
    {hasNext : Bool} {last : BuildCursor} {cs : List (Nat × ResourceVersion)}
    (h : (b, hasNext) ∈ vdb.unusedBuildsVersionConstrained jobID last cs) :
    vdb.IsSuccessfulBuild jobID b := by
  rcases List.mem_append.mp h with hnew | hold
  · exact isSuccessfulBuild_of_mem_map newerBuilds_sub (fun _ => true) hnew
  · exact isSuccessfulBuild_of_mem_map
      (fun c hc => usedOrOlderBuilds_sub c (List.mem_filter.mp hc).1) (fun _ => false) hold

end VersionsDB

end Db
end Concourse
