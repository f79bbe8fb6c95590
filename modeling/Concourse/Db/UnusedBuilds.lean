import Concourse.Db.PaginatedBuilds
import Concourse.Db.ResourceConfigScope

/-!
# The unused builds of a passed job

`VersionsDB.UnusedBuilds(jobID, lastUsedBuild)` is a `PaginatedBuilds` whose first builds are
read ahead: the succeeded builds `BuildCursor.NewerBuilds` of the last used build, oldest
first.  After them it pages, newest first, through the last used build and the builds
`OlderBuilds` of it.  While it returns builds read ahead, `HasNext` is meant to tell the
resolver that unused builds are left.

The two cursor conditions are written independently.  `NewerBuilds` compares
`COALESCE(rerun_of, rerun_of_old, id)`, `OlderBuilds` compares `COALESCE(rerun_of, id)`.
A rerun recorded in `rerun_of_old` only, that sorts before the last used build, satisfies
neither condition, and the cursor never yields it (`unusedBuildIds_legacyRerun`).  On tables
without such reruns the conditions split the other builds by the order of the queries
(`newerBuilds_eq`, `olderBuilds_eq`).  The one exception is the reruns of an original build:
when that build is the last used one, neither condition selects them.

`HasNext` computes `len(builds) - offset + 1 > 0` after `Next` has moved the offset past
the build it returned.  That holds for every offset within the page, so the flag stays
`true` after the last build read ahead, when no unused build is left
(`hasNext_next_prefetched`).
-/

namespace Concourse
namespace Db

/-- `math.MaxInt32`: the largest id the `integer` column `rerun_of_old` can hold. -/
def maxInt32 : Nat := 2147483647

/-- `BuildCursor.NewerBuilds("id")` as a condition on a row of `builds`.  A comparison with
`NULL` is false. -/
def BuildCursor.newerBuilds (cursor : BuildCursor) (row : BuildRow) : Bool :=
  match cursor.rerunOf with
  | some rerunOf =>
    -- later reruns of the same build; ids above `MaxInt32` are not looked for in `rerun_of_old`
    let sameRerunOf :=
      if rerunOf > maxInt32 then row.rerunOf == some rerunOf
      else row.rerunOf == some rerunOf || row.rerunOfOld == some rerunOf
    decide (rerunOf < row.rerunOfAny.getD row.id) || (sameRerunOf && decide (cursor.id < row.id))
  | none => decide (cursor.id < row.rerunOfAny.getD row.id)

/-- `versions.newerBuilds(jobID, lastUsedBuild)`: the succeeded builds of the job `NewerBuilds`
of the cursor, ordered `COALESCE(rerun_of, rerun_of_old, id) ASC, id ASC`. -/
def newerBuildsQuery (rows : List BuildRow) (jobID : Nat) (lastUsedBuild : BuildCursor) :
    List BuildRow :=
  Keyset.sortAsc BuildRow.sortKey (rows.filter fun row =>
    row.jobID == jobID && row.status == .succeeded && lastUsedBuild.newerBuilds row)

/-- The builder of `UnusedBuilds(jobID, lastUsedBuild)`: the succeeded builds of the job that
are the last used build or `OlderBuilds` of it, newest first, with the page boundary. -/
def unusedBuildsQuery (rows : List BuildRow) (jobID : Nat) (lastUsedBuild : BuildCursor)
    (pageBoundary : Option BuildCursor) : List BuildRow :=
  Keyset.sortDesc BuildRow.sortKey (rows.filter fun row =>
    row.jobID == jobID && row.status == .succeeded &&
      (row.id == lastUsedBuild.id || lastUsedBuild.olderBuilds row) &&
      pageBoundary.all (·.olderBuilds row))

/-- The state of a new `UnusedBuilds(jobID, lastUsedBuild)` cursor: the newer builds read
ahead. -/
def unusedBuilds (rows : List BuildRow) (jobID : Nat) (lastUsedBuild : BuildCursor) :
    PaginatedBuildsState :=
  ⟨(newerBuildsQuery rows jobID lastUsedBuild).map BuildRow.cursor, 0, true⟩

/-- The ids a new `UnusedBuilds(jobID, lastUsedBuild)` cursor yields. -/
def unusedBuildIds (rows : List BuildRow) (limitRows jobID : Nat) (lastUsedBuild : BuildCursor)
    (needsV6Migration : List Nat) (fuel : Nat) : List Nat :=
  nextAll rows (unusedBuildsQuery rows jobID lastUsedBuild) limitRows jobID fuel needsV6Migration
    (unusedBuilds rows jobID lastUsedBuild)

/-- `PaginatedBuilds.HasNext`, in Go's `int` arithmetic. -/
def PaginatedBuildsState.hasNext (bs : PaginatedBuildsState) : Bool :=
  bs.unusedBuilds && decide ((bs.builds.length : Int) - bs.offset + 1 > 0)

/-! ## The cursor conditions -/

/-- On the table of the failing case, build `10` reruns build `3` and records it in
`rerun_of_old` only.  It sorts between `3` and the last used build `5`, but neither cursor
condition selects it, and `UnusedBuilds` yields `5` and `3` only. -/
theorem unusedBuildIds_legacyRerun :
    let cursorBuild : BuildRow := ⟨5, 1, .succeeded, none, none⟩
    let legacyRerun : BuildRow := ⟨10, 1, .succeeded, none, some 3⟩
    let rows : List BuildRow := [⟨3, 1, .succeeded, none, none⟩, cursorBuild, legacyRerun]
    cursorBuild.cursor.newerBuilds legacyRerun = false ∧
      cursorBuild.cursor.olderBuilds legacyRerun = false ∧
      legacyRerun.sortKey < cursorBuild.sortKey ∧
      unusedBuildIds rows 1 1 cursorBuild.cursor [] 10 = [5, 3] := by
  decide

/-- Without `rerun_of_old`, and with reruns after their originals, `NewerBuilds` of a row's
cursor selects the rows of larger key, except the reruns of the row when it is an original
build. -/
theorem newerBuilds_eq {b r : BuildRow} (hb : b.rerunOfOld = none) (hr : r.rerunOfOld = none)
    (hbl : ∀ o, b.rerunOf = some o → o < b.id) (hrl : ∀ o, r.rerunOf = some o → o < r.id) :
    b.cursor.newerBuilds r =
      (decide (b.sortKey < r.sortKey) && !(b.rerunOf.isNone && r.rerunOf == some b.id)) := by
  rw [Bool.eq_iff_iff]
  simp only [BuildCursor.newerBuilds, BuildRow.cursor, BuildRow.rerunOfAny, BuildRow.sortKey, hb,
    hr, Option.or_none, Prod.Lex.toLex_lt_toLex]
  cases hbr : b.rerunOf with
  | none =>
    -- an original build: rows of a larger original, but not its own reruns
    cases hrr : r.rerunOf with
    | none => simp
    | some o =>
      have := hrl o hrr
      simp; omega
  | some x =>
    -- a rerun of `x`: later originals and later reruns of `x`
    have := hbl x hbr
    cases hrr : r.rerunOf with
    | none => simp; omega
    | some o =>
      have := hrl o hrr
      by_cases hmax : x > maxInt32 <;> simp [hmax] <;> omega

/-! ## `HasNext` after a build read ahead -/

/-- Within the page `HasNext` reads the flag only: `len(builds) - offset + 1` is positive. -/
theorem PaginatedBuildsState.hasNext_eq {bs : PaginatedBuildsState}
    (h : bs.offset ≤ bs.builds.length) : bs.hasNext = bs.unusedBuilds := by
  have hpos : (bs.builds.length : Int) - bs.offset + 1 > 0 := by omega
  simp [PaginatedBuildsState.hasNext, hpos]

/-- When `Next` returns a build read ahead, `HasNext` then answers `true`, also when it was
the last build read ahead and no unused build is left. -/
theorem hasNext_next_prefetched {rows : List BuildRow}
    {builder : Option BuildCursor → List BuildRow} {limitRows jobID : Nat}
    {needsV6Migration : List Nat} {bs : PaginatedBuildsState}
    (hunused : bs.unusedBuilds = true) (hin : bs.offset < bs.builds.length) :
    ∃ build bs', bs.builds[bs.offset]? = some build ∧
      next rows builder limitRows jobID needsV6Migration bs =
        (some (build.id, bs'), needsV6Migration) ∧
      bs'.builds.drop bs'.offset = bs.builds.drop (bs.offset + 1) ∧ bs'.hasNext = true := by
  refine ⟨bs.builds[bs.offset], { bs with offset := bs.offset + 1 },
    List.getElem?_eq_getElem hin, next_of_lt_length hin, rfl, ?_⟩
  rw [PaginatedBuildsState.hasNext_eq (Nat.succ_le_of_lt hin)]
  exact hunused

/-- The failing case: the job last used build `1` of the passed job, whose only newer build
is `2`.  `Next` returns `2`, read ahead, and `HasNext` answers `true` with no unused build
left.  `NextEveryVersion` in the same place, with `v1` used and only `v2` above it, answers
that nothing comes after `v2`. -/
theorem hasNext_next_lastUnusedBuild :
    let rows : List BuildRow := [⟨1, 1, .succeeded, none, none⟩, ⟨2, 1, .succeeded, none, none⟩]
    let bs := unusedBuilds rows 1 ⟨1, none⟩
    bs.builds = [⟨2, none⟩] ∧
      (∃ build bs', bs.builds[bs.offset]? = some build ∧
        next rows (unusedBuildsQuery rows 1 ⟨1, none⟩) 10 1 [] bs = (some (build.id, bs'), []) ∧
        bs'.builds.drop bs'.offset = bs.builds.drop (bs.offset + 1) ∧ bs'.hasNext = true) ∧
      ResourceConfigScope.nextEveryVersion ⟨[("v1", 1), ("v2", 2)], by decide⟩ [] ["v1"] =
        some ("v2", false) :=
  ⟨by decide, hasNext_next_prefetched rfl (by decide), by decide⟩

end Db
end Concourse
