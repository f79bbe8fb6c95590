import Mathlib.Data.Prod.Lex
import Concourse.Db.VersionsDB
import Concourse.Lib.Keyset

/-!
# Paging through the successful builds of a job

`VersionsDB.SuccessfulBuilds` is a `PaginatedBuilds` over the `builds` table, ordered by
`COALESCE(rerun_of, rerun_of_old, id) DESC, id DESC`: a rerun sorts with the build it
reruns.  `Next` reads `limitRows` rows at a time, and each page after the first asks for the
rows `BuildCursor.OlderBuilds` of the last row read; an empty page runs `migrateLimit` and
is asked again while builds still need the v6 migration.

`OlderBuilds` compares `COALESCE(rerun_of, id)`, while the order reads `rerun_of_old` too.
Reruns recorded before `rerun_of` became a `bigint` keep their original in `rerun_of_old`
only.  Such a rerun sorts with its original but is seen by its own, larger id, so the
page boundary after a newer build passes it over.  On tables with no such rerun, and whose
reruns come after what they rerun, the cursor yields every successful build of the job
exactly once, in the query's order.
-/

namespace Concourse
namespace Db

/-- `db.BuildStatus`. -/
inductive BuildStatus where
  | pending
  | started
  | succeeded
  | failed
  | errored
  | aborted
  deriving DecidableEq, Repr

/-- A row of `builds`, with the columns the build queries read. -/
structure BuildRow where
  id : Nat
  jobID : Nat
  status : BuildStatus
  rerunOf : Option Nat
  rerunOfOld : Option Nat
  deriving DecidableEq, Repr

namespace BuildRow

/-- `COALESCE(rerun_of, rerun_of_old)`. -/
def rerunOfAny (row : BuildRow) : Option Nat :=
  row.rerunOf.or row.rerunOfOld

/-- The key `COALESCE(rerun_of, rerun_of_old, id) DESC, id DESC` sorts by, descending. -/
def sortKey (row : BuildRow) : Nat ×ₗ Nat :=
  toLex (row.rerunOfAny.getD row.id, row.id)

/-- What `Next` scans a row into: `id, COALESCE(rerun_of, rerun_of_old) AS rerun_of`. -/
def cursor (row : BuildRow) : BuildCursor :=
  ⟨row.id, row.rerunOfAny⟩

/-- Rows of distinct ids have distinct keys: a key ends in its row's id. -/
theorem sortKey_nodup {rows : List BuildRow} (h : (rows.map (·.id)).Nodup) :
    (rows.map sortKey).Nodup := by
  have hmap : (rows.map sortKey).map (fun k => (ofLex k).2) = rows.map (·.id) := by
    simp [List.map_map, Function.comp_def, sortKey]
  exact List.Nodup.of_map _ (hmap ▸ h)

end BuildRow

/-- `BuildCursor.OlderBuilds("id")` as a condition on a row of `builds`.  `rerun_of` here is
the row's own column, not the coalesced one, and comparing a `NULL` with a value is false. -/
def BuildCursor.olderBuilds (cursor : BuildCursor) (row : BuildRow) : Bool :=
  match cursor.rerunOf with
  | some rerunOf =>
    -- older originals, the original build of the rerun, and its earlier reruns
    decide (row.rerunOf.getD row.id < rerunOf) || row.id == rerunOf ||
      (row.rerunOf == some rerunOf && decide (row.id < cursor.id))
  | none => decide (row.rerunOf.getD row.id < cursor.id)

/-- `SuccessfulBuilds(jobID)` with the page boundary, when there is one, in the query's
order. -/
def successfulBuildsQuery (rows : List BuildRow) (jobID : Nat)
    (pageBoundary : Option BuildCursor) : List BuildRow :=
  Keyset.sortDesc BuildRow.sortKey (rows.filter fun row =>
    row.jobID == jobID && row.status == .succeeded && pageBoundary.all (·.olderBuilds row))

/-- `migrateLimit`: the first `limitRows` succeeded builds of the job still flagged
`needs_v6_migration` have their outputs migrated and the flag cleared, and it answers
whether there were any.  `needsV6Migration` lists the ids still flagged. -/
def migrateLimit (rows : List BuildRow) (limitRows jobID : Nat) (needsV6Migration : List Nat) :
    Bool × List Nat :=
  let buildsToMigrate := ((Keyset.sortDesc BuildRow.sortKey (rows.filter fun row =>
      row.jobID == jobID && needsV6Migration.contains row.id && row.status == .succeeded)).take
        limitRows).map (·.id)
  (!buildsToMigrate.isEmpty, needsV6Migration.filter (· ∉ buildsToMigrate))

/-- The fields of a `PaginatedBuilds` that `Next` keeps: the page read last and how far it
has got in it. -/
structure PaginatedBuildsState where
  builds : List BuildCursor
  offset : Nat
  unusedBuilds : Bool
  deriving DecidableEq, Repr

/-- The loop at the top of `Next`: ask `builder` for the page after `pageBoundary`; on an empty
page run `migrateLimit`, and ask again while it migrates something.  `builder` gives the rows
the cursor's query returns, in its order, once the page boundary's `OlderBuilds` is added
to it. -/
def fetchPage (rows : List BuildRow) (builder : Option BuildCursor → List BuildRow)
    (limitRows jobID : Nat) (pageBoundary : Option BuildCursor) :
    Nat → List Nat → Option (List BuildCursor) × List Nat
  | 0, needsV6Migration => (none, needsV6Migration)
  | fuel + 1, needsV6Migration =>
    let builds := ((builder pageBoundary).take limitRows).map BuildRow.cursor
    if builds.isEmpty then
      match migrateLimit rows limitRows jobID needsV6Migration with
      | (true, needsV6Migration) =>
        fetchPage rows builder limitRows jobID pageBoundary fuel needsV6Migration
      | (false, needsV6Migration) => (none, needsV6Migration)
    else (some builds, needsV6Migration)

/-- `PaginatedBuilds.Next`: the next id, or `false` when there is none. -/
def next (rows : List BuildRow) (builder : Option BuildCursor → List BuildRow)
    (limitRows jobID : Nat) (needsV6Migration : List Nat)
    (bs : PaginatedBuildsState) : Option (Nat × PaginatedBuildsState) × List Nat :=
  let refreshed : Option PaginatedBuildsState × List Nat :=
    if bs.offset + 1 > bs.builds.length then
      -- every round that migrates clears a flag, so the loop ends within this many rounds
      match fetchPage rows builder limitRows jobID bs.builds.getLast?
          (needsV6Migration.length + 1) needsV6Migration with
      | (none, needsV6Migration) => (none, needsV6Migration)
      | (some builds, needsV6Migration) => (some ⟨builds, 0, false⟩, needsV6Migration)
    else (some bs, needsV6Migration)
  match refreshed with
  | (none, needsV6Migration) => (none, needsV6Migration)
  | (some bs, needsV6Migration) =>
    -- the page is never empty here, so the index is in range
    match bs.builds[bs.offset]? with
    | some build => (some (build.id, { bs with offset := bs.offset + 1 }), needsV6Migration)
    | none => (none, needsV6Migration)

/-- The ids `Next` returns when called until it answers `false`, at most `fuel` of them. -/
def nextAll (rows : List BuildRow) (builder : Option BuildCursor → List BuildRow)
    (limitRows jobID : Nat) : Nat → List Nat → PaginatedBuildsState → List Nat
  | 0, _, _ => []
  | fuel + 1, needsV6Migration, bs =>
    match next rows builder limitRows jobID needsV6Migration bs with
    | (none, _) => []
    | (some (id, bs), needsV6Migration) =>
      id :: nextAll rows builder limitRows jobID fuel needsV6Migration bs

/-- The ids a new `SuccessfulBuilds(jobID)` cursor yields. -/
def successfulBuildIds (rows : List BuildRow) (limitRows jobID : Nat)
    (needsV6Migration : List Nat) (fuel : Nat) : List Nat :=
  nextAll rows (successfulBuildsQuery rows jobID) limitRows jobID fuel needsV6Migration
    ⟨[], 0, false⟩

/-- On the table of the failing case, builds `1`, `2` and `3`, where `3` reruns `1` and
records it in `rerun_of_old` only, pages of one build skip the rerun. -/
theorem successfulBuildIds_legacyRerun :
    let rows : List BuildRow :=
      [⟨1, 1, .succeeded, none, none⟩, ⟨2, 1, .succeeded, none, none⟩,
        ⟨3, 1, .succeeded, none, some 1⟩]
    successfulBuildIds rows 1 1 [] 10 = [2, 1] ∧
      (successfulBuildsQuery rows 1 none).map (·.id) = [2, 3, 1] := by
  decide

/-! ## Tables without legacy reruns -/

/-- A table whose ids are distinct and whose reruns are all recorded in `rerun_of`, each
after the build it reruns. -/
structure NoLegacyReruns (rows : List BuildRow) : Prop where
  ids_nodup : (rows.map (·.id)).Nodup
  rerunOfOld_none : ∀ row ∈ rows, row.rerunOfOld = none
  rerunOf_lt : ∀ row ∈ rows, ∀ original, row.rerunOf = some original → original < row.id

/-- Without `rerun_of_old`, and with reruns after their originals, `OlderBuilds` of a row's
cursor selects exactly the rows of smaller key. -/
theorem olderBuilds_eq {b r : BuildRow} (hb : b.rerunOfOld = none) (hr : r.rerunOfOld = none)
    (hbl : ∀ o, b.rerunOf = some o → o < b.id) (hrl : ∀ o, r.rerunOf = some o → o < r.id) :
    b.cursor.olderBuilds r = decide (r.sortKey < b.sortKey) := by
  rw [Bool.eq_iff_iff]
  simp only [BuildCursor.olderBuilds, BuildRow.cursor, BuildRow.rerunOfAny, BuildRow.sortKey, hb,
    hr, Option.or_none, Prod.Lex.toLex_lt_toLex, decide_eq_true_eq]
  cases hbr : b.rerunOf with
  | none =>
    -- an original build: rows of smaller key are those of a smaller original
    cases hrr : r.rerunOf with
    | none => simp
    | some o =>
      have := hrl o hrr
      simp; omega
  | some x =>
    -- a rerun of `x`: older originals, `x` itself, and earlier reruns of `x`
    have := hbl x hbr
    cases hrr : r.rerunOf with
    | none => simp; omega
    | some o =>
      have := hrl o hrr
      simp; omega

namespace NoLegacyReruns

variable {rows : List BuildRow} (h : NoLegacyReruns rows)
include h

theorem sortKey_nodup : (rows.map BuildRow.sortKey).Nodup :=
  BuildRow.sortKey_nodup h.ids_nodup

theorem olderBuilds_eq_of_mem {b r : BuildRow} (hb : b ∈ rows) (hr : r ∈ rows) :
    b.cursor.olderBuilds r = decide (r.sortKey < b.sortKey) :=
  olderBuilds_eq (h.rerunOfOld_none b hb) (h.rerunOfOld_none r hr) (h.rerunOf_lt b hb)
    (h.rerunOf_lt r hr)

/-- The page after a build of the result is the part of the result older than it. -/
theorem successfulBuildsQuery_after {jobID : Nat} {b : BuildRow}
    (hb : b ∈ successfulBuildsQuery rows jobID none) :
    successfulBuildsQuery rows jobID (some b.cursor) =
      (successfulBuildsQuery rows jobID none).filter fun r => decide (r.sortKey < b.sortKey) := by
  have hsub : ∀ r ∈ successfulBuildsQuery rows jobID none, r ∈ rows := fun r hr => by
    simp only [successfulBuildsQuery, Keyset.mem_sortDesc, List.mem_filter] at hr
    exact hr.1
  have hnodup : ((rows.filter fun row => row.jobID == jobID && row.status == .succeeded).map
      BuildRow.sortKey).Nodup :=
    h.sortKey_nodup.sublist ((List.filter_sublist).map _)
  calc successfulBuildsQuery rows jobID (some b.cursor)
      _ = Keyset.sortDesc BuildRow.sortKey
          ((rows.filter fun row => row.jobID == jobID && row.status == .succeeded).filter
            b.cursor.olderBuilds) := by
        simp only [successfulBuildsQuery, Option.all_some, List.filter_filter, Bool.and_comm]
      _ = (successfulBuildsQuery rows jobID none).filter b.cursor.olderBuilds := by
        rw [Keyset.sortDesc_filter hnodup]
        simp [successfulBuildsQuery]
      _ = (successfulBuildsQuery rows jobID none).filter
          fun r => decide (r.sortKey < b.sortKey) :=
        List.filter_congr fun r hr => h.olderBuilds_eq_of_mem (hsub b hb) (hsub r hr)

end NoLegacyReruns

/-! ## `Next` walks through the result -/

/-- The last build of a full page read from `S` after its first `i` builds. -/
theorem getLast?_page {S : List BuildRow} {i n : Nat}
    (hlen : (((S.drop i).take (n + 1)).map BuildRow.cursor).length = n + 1) :
    ∃ hlt : i + n < S.length,
      (((S.drop i).take (n + 1)).map BuildRow.cursor).getLast? = some S[i + n].cursor := by
  have hlt : i + n < S.length := by
    simp only [List.length_map, List.length_take, List.length_drop] at hlen
    omega
  refine ⟨hlt, ?_⟩
  rw [List.getLast?_eq_getElem?, hlen]
  simp [List.getElem?_drop, hlt]

theorem take_length_take {β : Type} (l : List β) (n : Nat) : l.take (l.take n).length = l.take n := by
  rw [List.length_take]
  by_cases hn : n ≤ l.length
  · rw [Nat.min_eq_left hn]
  · rw [Nat.min_eq_right (by omega), List.take_length, List.take_of_length_le (by omega)]

/-- A non-empty page is read at once. -/
theorem fetchPage_of_ne_nil {rows : List BuildRow} {builder : Option BuildCursor → List BuildRow}
    {limitRows jobID fuel : Nat} {pageBoundary : Option BuildCursor} {needsV6Migration : List Nat}
    (hpage : ((builder pageBoundary).take limitRows).map BuildRow.cursor ≠ []) :
    fetchPage rows builder limitRows jobID pageBoundary (fuel + 1) needsV6Migration =
      (some (((builder pageBoundary).take limitRows).map BuildRow.cursor), needsV6Migration) := by
  unfold fetchPage
  rw [if_neg (by simpa [List.isEmpty_iff] using hpage)]

/-- An empty page stays empty however many builds get migrated: the query does not read the
migration flags. -/
theorem fetchPage_of_nil {rows : List BuildRow} {builder : Option BuildCursor → List BuildRow}
    {limitRows jobID : Nat} {pageBoundary : Option BuildCursor}
    (hpage : ((builder pageBoundary).take limitRows).map BuildRow.cursor = []) :
    ∀ fuel needsV6Migration,
      (fetchPage rows builder limitRows jobID pageBoundary fuel needsV6Migration).1 = none := by
  intro fuel
  induction fuel with
  | zero => intro _; rfl
  | succ fuel ih =>
    intro needsV6Migration
    simp only [fetchPage, hpage, List.isEmpty_nil, if_true]
    cases migrateLimit rows limitRows jobID needsV6Migration with
    | mk migrated needs =>
      cases migrated
      · rfl
      · exact ih needs

/-- A build left in the page is returned without a query. -/
theorem next_of_lt_length {rows : List BuildRow} {builder : Option BuildCursor → List BuildRow}
    {limitRows jobID : Nat} {needsV6Migration : List Nat} {bs : PaginatedBuildsState}
    (hin : bs.offset < bs.builds.length) :
    next rows builder limitRows jobID needsV6Migration bs =
      (some (bs.builds[bs.offset].id, { bs with offset := bs.offset + 1 }), needsV6Migration) := by
  have hboundary : ¬ bs.offset + 1 > bs.builds.length := by omega
  simp only [next, hboundary, if_false, List.getElem?_eq_getElem hin]

/-- `Next` has returned the first `j` builds of `S` and stands in a page read from `S`. -/
def AtPosition (S : List BuildRow) (bs : PaginatedBuildsState) (j : Nat) : Prop :=
  bs.offset ≤ bs.builds.length ∧ ∃ i, i + bs.offset = j ∧
    bs.builds = ((S.drop i).take bs.builds.length).map BuildRow.cursor ∧ (bs.builds = [] → i = 0)

theorem atPosition_init (S : List BuildRow) : AtPosition S ⟨[], 0, false⟩ 0 :=
  ⟨le_refl _, 0, rfl, rfl, fun _ => rfl⟩

namespace NoLegacyReruns

variable {rows : List BuildRow} (h : NoLegacyReruns rows) {limitRows jobID : Nat}
  {S : List BuildRow} (hS : S = successfulBuildsQuery rows jobID none)
include h hS

theorem descending : Keyset.Descending BuildRow.sortKey S := by
  rw [hS]
  exact Keyset.descending_sortDesc (h.sortKey_nodup.sublist ((List.filter_sublist).map _))

/-- At the end of a page, the next page is asked for after the last build returned, and it
is the rest of the result. -/
theorem successfulBuildsQuery_boundary {bs : PaginatedBuildsState} {j : Nat}
    (hpos : AtPosition S bs j) (hend : bs.offset = bs.builds.length) :
    successfulBuildsQuery rows jobID bs.builds.getLast? = S.drop j := by
  obtain ⟨-, i, hij, hbuilds, hnil⟩ := hpos
  cases hlen : bs.builds.length with
  | zero =>
    -- nothing was read yet: the first page is asked for
    have hempty : bs.builds = [] := List.eq_nil_of_length_eq_zero hlen
    have hj : j = 0 := by
      have := hnil hempty
      omega
    rw [hempty, hj, hS]
    simp [successfulBuildsQuery]
  | succ n =>
    rw [hlen] at hbuilds
    have hpage : (((S.drop i).take (n + 1)).map BuildRow.cursor).length = n + 1 := by
      rw [← hbuilds]
      exact hlen
    obtain ⟨hlt, hlast⟩ := getLast?_page hpage
    have hmem : S[i + n] ∈ successfulBuildsQuery rows jobID none := hS ▸ List.getElem_mem hlt
    rw [hbuilds, hlast, h.successfulBuildsQuery_after hmem, ← hS,
      (h.descending hS).filter_lt_getElem hlt]
    congr 1
    omega

/-- One call of `Next`: it returns the next build of the result, or `false` at its end. -/
theorem next_of_atPosition (hlimit : 0 < limitRows) {needsV6Migration : List Nat}
    {bs : PaginatedBuildsState} {j : Nat} (hpos : AtPosition S bs j) :
    (S.length ≤ j ∧
        (next rows (successfulBuildsQuery rows jobID) limitRows jobID needsV6Migration bs).1 =
          none) ∨
      ∃ hj : j < S.length, ∃ bs' needs',
        next rows (successfulBuildsQuery rows jobID) limitRows jobID needsV6Migration bs =
        (some (S[j].id, bs'), needs') ∧ AtPosition S bs' (j + 1) := by
  obtain ⟨hoff, i, hij, hbuilds, hnil⟩ := hpos
  by_cases hboundary : bs.offset + 1 > bs.builds.length
  · -- the page is used up: `Next` reads the next one, which is the rest of the result
    unfold next
    have hquery := h.successfulBuildsQuery_boundary hS ⟨hoff, i, hij, hbuilds, hnil⟩ (by omega)
    simp only [hboundary, if_true]
    by_cases hpage : ((S.drop j).take limitRows).map BuildRow.cursor = []
    · have hdrop : S.drop j = [] := by
        simpa [List.take_eq_nil_iff, hlimit.ne'] using hpage
      have hnone : (fetchPage rows (successfulBuildsQuery rows jobID) limitRows jobID
          bs.builds.getLast? (needsV6Migration.length + 1) needsV6Migration).1 = none :=
        fetchPage_of_nil (hquery ▸ hpage) _ _
      refine Or.inl ⟨List.drop_eq_nil_iff.mp hdrop, ?_⟩
      cases hfetch : fetchPage rows (successfulBuildsQuery rows jobID) limitRows jobID
          bs.builds.getLast? (needsV6Migration.length + 1) needsV6Migration with
      | mk page needs =>
        rw [hfetch] at hnone
        cases hnone
        rfl
    · have hj : j < S.length := by
        by_contra hge
        exact hpage (by simp [List.drop_eq_nil_of_le (Nat.le_of_not_lt hge)])
      have hfetch : fetchPage rows (successfulBuildsQuery rows jobID) limitRows jobID
          bs.builds.getLast? (needsV6Migration.length + 1) needsV6Migration =
          (some (((S.drop j).take limitRows).map BuildRow.cursor), needsV6Migration) := by
        rw [fetchPage_of_ne_nil (hquery ▸ hpage), hquery]
      have hfirst : (((S.drop j).take limitRows).map BuildRow.cursor)[0]? = some S[j].cursor := by
        simp [hj, hlimit]
      refine Or.inr ⟨hj, ⟨((S.drop j).take limitRows).map BuildRow.cursor, 1, false⟩,
        needsV6Migration, ?_, ?_⟩
      · simp only [hfetch, hfirst, BuildRow.cursor]
      · refine ⟨?_, j, rfl, ?_, fun hnil' => ?_⟩
        · simp only [List.length_map, List.length_take, List.length_drop]
          omega
        · rw [List.length_map, take_length_take]
        · exact absurd hnil' hpage
  · -- the next build of the page
    have hin : bs.offset < bs.builds.length := by omega
    have hlt : i + bs.offset < S.length := by
      have hlen := congrArg List.length hbuilds
      simp only [List.length_map, List.length_take, List.length_drop] at hlen
      omega
    have hbuild : bs.builds[bs.offset] = S[j].cursor := by
      have hbuild? : bs.builds[bs.offset]? = some S[j].cursor := by
        rw [hbuilds]
        simp [List.getElem?_drop, hin, ← hij, hlt]
      rw [List.getElem?_eq_getElem hin] at hbuild?
      exact Option.some.inj hbuild?
    refine Or.inr ⟨hij ▸ hlt, { bs with offset := bs.offset + 1 }, needsV6Migration, ?_, ?_⟩
    · rw [next_of_lt_length hin, hbuild]
      rfl
    · exact ⟨hin, i, by simp [← hij]; omega, hbuilds, hnil⟩

/-- Calls of `Next` from a position return the rest of the result. -/
theorem nextAll_of_atPosition (hlimit : 0 < limitRows) :
    ∀ (fuel : Nat) (needsV6Migration : List Nat) (bs : PaginatedBuildsState) (j : Nat),
      AtPosition S bs j →
      nextAll rows (successfulBuildsQuery rows jobID) limitRows jobID fuel needsV6Migration bs =
        ((S.drop j).take fuel).map (·.id) := by
  intro fuel
  induction fuel with
  | zero => intro _ _ _ _; rfl
  | succ fuel ih =>
    intro needsV6Migration bs j hpos
    unfold nextAll
    rcases h.next_of_atPosition hS hlimit hpos with ⟨hend, hnone⟩ | ⟨hj, bs', needs', hnext, hpos'⟩
    · cases hcall : next rows (successfulBuildsQuery rows jobID) limitRows jobID needsV6Migration
          bs with
      | mk result needs =>
        rw [hcall] at hnone
        cases hnone
        simp [List.drop_eq_nil_of_le hend]
    · rw [hnext]
      dsimp only
      rw [ih needs' bs' (j + 1) hpos', List.drop_eq_getElem_cons hj, List.take_succ_cons,
        List.map_cons]

end NoLegacyReruns

/-- On a table whose reruns are all recorded in `rerun_of`, each after the build it reruns,
a `SuccessfulBuilds` cursor with pages of any size yields every successful build of the job
once, in the query's order. -/
theorem successfulBuildIds_eq {rows : List BuildRow} (h : NoLegacyReruns rows)
    {limitRows : Nat} (hlimit : 0 < limitRows) (jobID : Nat) (needsV6Migration : List Nat)
    {fuel : Nat} (hfuel : rows.length ≤ fuel) :
    successfulBuildIds rows limitRows jobID needsV6Migration fuel =
      (successfulBuildsQuery rows jobID none).map (·.id) := by
  have hlen : (successfulBuildsQuery rows jobID none).length ≤ fuel := by
    -- the result is a sorted selection of the rows
    have hperm : (successfulBuildsQuery rows jobID none).Perm (rows.filter fun row =>
        row.jobID == jobID && row.status == .succeeded &&
          (none : Option BuildCursor).all (·.olderBuilds row)) :=
      Keyset.sortDesc_perm _
    have hle := List.length_filter_le (fun row : BuildRow => row.jobID == jobID &&
      row.status == .succeeded && (none : Option BuildCursor).all (·.olderBuilds row)) rows
    have := hperm.length_eq
    omega
  rw [successfulBuildIds, h.nextAll_of_atPosition rfl hlimit fuel needsV6Migration _ 0
    (atPosition_init _), List.drop_zero, List.take_of_length_le hlen]

end Db
end Concourse
