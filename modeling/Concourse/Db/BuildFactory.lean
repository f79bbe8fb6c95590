import Concourse.Db.PaginatedBuilds

/-!
# Paging through builds in the API

`getBuildsWithPagination` (`atc/db/build_factory.go`) answers one `Page` of the builds a
query selects (those of a job, a pipeline, a team, or all of them) and the `Pagination`
links to the pages older and newer than it.  Builds are ordered by
`COALESCE(rerun_of, rerun_of_old, id)`, then `id`, so that reruns sit with their
original; in chronological mode, used for a job's builds, by `id` alone.  A page's bounds
and the probes for its links are expressed on `b.id`, and the probes always use the
rerun-grouping order.

A rerun is newer by id than builds that sort after it.  The `Older` link, the newest of
the builds of smaller id, then points past it, and following `Older` page after page skips
it; in chronological mode the probe's order skips a rerun the same way.

Where the rerun grouping keeps the id order (`IdOrdered`), as on builds without reruns, the
walk is keyset pagination (`Keyset.keysetPages`) over the builds by id, and lists every
build once, in the page order (`olderWalk_eq`).
-/

namespace Concourse
namespace Db

/-- `db.Page`: the inclusive bounds `From` and `To` on `b.id`, and `Limit`. -/
structure Page where
  fromId : Option Nat
  toId : Option Nat
  limit : Nat
  deriving DecidableEq, Repr

/-- `db.Pagination`. -/
structure Pagination where
  newer : Option Page
  older : Option Page
  deriving DecidableEq, Repr

/-- The builds of a query in the page order: `COALESCE(b.rerun_of, b.rerun_of_old, b.id) DESC,
b.id DESC`, or `b.id DESC` in chronological mode. -/
def orderDesc (chronological : Bool) (builds : List BuildRow) : List BuildRow :=
  if chronological then Keyset.sortDesc (·.id) builds else Keyset.sortDesc BuildRow.sortKey builds

/-- The same order, ascending. -/
def orderAsc (chronological : Bool) (builds : List BuildRow) : List BuildRow :=
  if chronological then Keyset.sortAsc (·.id) builds else Keyset.sortAsc BuildRow.sortKey builds

/-- The builds of the page: newest first, except when both bounds are given, where the
ascending order of the query is kept. -/
def pageBuilds (buildsQuery : List BuildRow) (page : Page) (chronological : Bool) :
    Except String (List BuildRow) :=
  match page.fromId, page.toId with
  | none, none => .ok ((orderDesc chronological buildsQuery).take page.limit)
  | some pageFrom, none =>
    -- read upwards from `From`, then reversed
    .ok ((orderAsc chronological (buildsQuery.filter (pageFrom ≤ ·.id))).take page.limit).reverse
  | none, some pageTo =>
    .ok ((orderDesc chronological (buildsQuery.filter (·.id ≤ pageTo))).take page.limit)
  | some pageFrom, some pageTo =>
    if pageFrom > pageTo then .error "invalid range boundaries"
    else .ok ((orderAsc chronological
      (buildsQuery.filter fun b => pageFrom ≤ b.id && b.id ≤ pageTo)).take page.limit)

/-- `getBuildsWithPagination`: the page, and links to the pages of the newest build older by
id than its last build and of the oldest build newer by id than its first. -/
def getBuildsWithPagination (buildsQuery : List BuildRow) (page : Page) (chronological : Bool) :
    Except String (List BuildRow × Pagination) :=
  match pageBuilds buildsQuery page chronological with
  | .error err => .error err
  | .ok builds =>
    match builds.head?, builds.getLast? with
    | some newestBuild, some oldestBuild =>
      -- the probes order by the rerun-grouping key in both modes
      let older := (Keyset.sortDesc BuildRow.sortKey
        (buildsQuery.filter (·.id < oldestBuild.id))).head?
      let newer := (Keyset.sortAsc BuildRow.sortKey
        (buildsQuery.filter (·.id > newestBuild.id))).head?
      .ok (builds,
        { older := older.map fun build => { fromId := none, toId := some build.id, limit := page.limit }
          newer := newer.map fun build => { fromId := some build.id, toId := none, limit := page.limit } })
    | _, _ => .ok (builds, { newer := none, older := none })

/-- The builds of `page` and of the `Older` page of every answer, until an answer has no
`Older` link, at most `fuel` requests. -/
def olderWalk (buildsQuery : List BuildRow) (chronological : Bool) : Nat → Page →
    Except String (List BuildRow)
  | 0, _ => .ok []
  | fuel + 1, page =>
    match getBuildsWithPagination buildsQuery page chronological with
    | .error err => .error err
    | .ok (builds, pagination) =>
      match pagination.older with
      | none => .ok builds
      | some older => (olderWalk buildsQuery chronological fuel older).map (builds ++ ·)

/-- Builds `1`, `2` and `3`, where `3` reruns `1`, read one by one from the newest: the
`Older` link of the page of `2` is `1`, and `3` is never shown, though it sorts between
them.  In chronological mode, with a build `4`, the `Older` link of `4` is `2`, by the
rerun-grouping order of the probe, and `3` is skipped again. -/
theorem olderWalk_rerun :
    let rows : List BuildRow :=
      [⟨1, 1, .succeeded, none, none⟩, ⟨2, 1, .succeeded, none, none⟩,
        ⟨3, 1, .succeeded, some 1, none⟩]
    let rows₄ := rows ++ [⟨4, 1, .succeeded, none, none⟩]
    olderWalk rows false 10 ⟨none, none, 1⟩ = .ok [rows[1], rows[0]] ∧
      (orderDesc false rows).map (·.id) = [2, 3, 1] ∧
      olderWalk rows₄ true 10 ⟨none, none, 1⟩ = .ok [rows₄[3], rows₄[1], rows₄[0]] ∧
      (orderDesc true rows₄).map (·.id) = [4, 3, 2, 1] := by
  decide

/-! ## Builds whose rerun grouping keeps the id order -/

/-- The builds' ids are distinct, and ordering them by `COALESCE(rerun_of, rerun_of_old, id)`,
then `id`, orders them as their ids do: no rerun sorts among builds older than it. -/
structure IdOrdered (buildsQuery : List BuildRow) : Prop where
  ids_nodup : (buildsQuery.map (·.id)).Nodup
  sortKey_lt_iff : ∀ a ∈ buildsQuery, ∀ b ∈ buildsQuery, a.sortKey < b.sortKey ↔ a.id < b.id

namespace IdOrdered

variable {buildsQuery : List BuildRow}

/-- Without reruns, the grouping order is the id order. -/
theorem of_rerunOfAny (hids : (buildsQuery.map (·.id)).Nodup)
    (hnone : ∀ b ∈ buildsQuery, b.rerunOfAny = none) : IdOrdered buildsQuery := by
  refine ⟨hids, fun a ha b hb => ?_⟩
  simp only [BuildRow.sortKey, hnone a ha, hnone b hb, Option.getD_none,
    Prod.Lex.toLex_lt_toLex]
  constructor
  · rintro (hlt | ⟨-, hlt⟩) <;> exact hlt
  · exact Or.inl

theorem filter (h : IdOrdered buildsQuery) (p : BuildRow → Bool) :
    IdOrdered (buildsQuery.filter p) :=
  ⟨h.ids_nodup.sublist (List.filter_sublist.map _), fun a ha b hb =>
    h.sortKey_lt_iff a (List.mem_of_mem_filter ha) b (List.mem_of_mem_filter hb)⟩

/-- The rerun-grouping order and the id order sort the builds alike. -/
theorem sortDesc_sortKey (h : IdOrdered buildsQuery) :
    Keyset.sortDesc BuildRow.sortKey buildsQuery = Keyset.sortDesc (·.id) buildsQuery := by
  have hdesc : Keyset.Descending BuildRow.sortKey (Keyset.sortDesc (·.id) buildsQuery) :=
    (Keyset.descending_sortDesc h.ids_nodup).imp_of_mem fun ha hb hlt =>
      (h.sortKey_lt_iff _ (Keyset.mem_sortDesc.mp hb) _ (Keyset.mem_sortDesc.mp ha)).mpr hlt
  exact (Keyset.eq_sortDesc_of_perm (BuildRow.sortKey_nodup h.ids_nodup)
    (Keyset.sortDesc_perm buildsQuery) hdesc).symm

theorem orderDesc_eq (h : IdOrdered buildsQuery) (chronological : Bool) :
    orderDesc chronological buildsQuery = Keyset.sortDesc (·.id) buildsQuery := by
  unfold orderDesc
  split
  · rfl
  · exact h.sortDesc_sortKey

/-- A page read down from `To`: the first `limit` builds up to `To`, newest first. -/
theorem pageBuilds_toId (h : IdOrdered buildsQuery) (chronological : Bool) (toId : Option Nat)
    (limit : Nat) :
    pageBuilds buildsQuery ⟨none, toId, limit⟩ chronological =
      .ok (((Keyset.sortDesc (·.id) buildsQuery).filter fun b => toId.all (b.id ≤ ·)).take
        limit) := by
  cases toId with
  | none => simp [pageBuilds, h.orderDesc_eq]
  | some pageTo =>
    simp only [pageBuilds, (h.filter _).orderDesc_eq,
      Keyset.sortDesc_filter h.ids_nodup, Option.all_some]

/-- One answer: the page read down from `To`, and an `Older` link to the newest build below the
page's last. -/
theorem getBuildsWithPagination_older (h : IdOrdered buildsQuery) (chronological : Bool)
    (toId : Option Nat) (limit : Nat) :
    ∃ newer, getBuildsWithPagination buildsQuery ⟨none, toId, limit⟩ chronological =
      .ok (((Keyset.sortDesc (·.id) buildsQuery).filter fun b => toId.all (b.id ≤ ·)).take
          limit,
        ⟨newer, ((((Keyset.sortDesc (·.id) buildsQuery).filter fun b =>
            toId.all (b.id ≤ ·)).take limit).getLast?.bind fun oldest =>
          ((Keyset.sortDesc (·.id) buildsQuery).filter (·.id < oldest.id)).head?).map
          fun build => ⟨none, some build.id, limit⟩⟩) := by
  unfold getBuildsWithPagination
  rw [h.pageBuilds_toId]
  dsimp only
  cases hpage : ((Keyset.sortDesc (·.id) buildsQuery).filter fun b =>
      toId.all (b.id ≤ ·)).take limit with
  | nil => exact ⟨none, rfl⟩
  | cons newest rest =>
    -- the probe for `Older` sorts by the grouping key, here the id order
    have hprobe : ∀ oldest : BuildRow,
        Keyset.sortDesc BuildRow.sortKey (buildsQuery.filter (·.id < oldest.id)) =
          (Keyset.sortDesc (·.id) buildsQuery).filter (·.id < oldest.id) := fun oldest => by
      rw [(h.filter _).sortDesc_sortKey, Keyset.sortDesc_filter h.ids_nodup]
    simp only [List.head?_cons, List.getLast?_cons, Option.bind_some, hprobe]
    exact ⟨_, rfl⟩

/-- Following `Older` from a page read down from `To` is keyset pagination over the builds in
id order. -/
theorem olderWalk_eq_keysetPages (h : IdOrdered buildsQuery) (chronological : Bool)
    (limit : Nat) :
    ∀ (fuel : Nat) (toId : Option Nat),
      olderWalk buildsQuery chronological fuel ⟨none, toId, limit⟩ =
        .ok (Keyset.keysetPages
          (fun b => (Keyset.sortDesc (·.id) buildsQuery).filter (·.id < b.id)) limit fuel
          ((Keyset.sortDesc (·.id) buildsQuery).filter fun b => toId.all (b.id ≤ ·))) := by
  intro fuel
  induction fuel with
  | zero => intro toId; rfl
  | succ fuel ih =>
    intro toId
    obtain ⟨newer, hanswer⟩ := h.getBuildsWithPagination_older chronological toId limit
    rw [olderWalk, hanswer, Keyset.keysetPages]
    dsimp only
    cases hlast : (((Keyset.sortDesc (·.id) buildsQuery).filter fun b =>
        toId.all (b.id ≤ ·)).take limit).getLast? with
    | none =>
      -- an empty page ends both
      rw [List.getLast?_eq_none_iff.mp hlast]
      rfl
    | some oldest =>
      rw [Option.bind_some]
      dsimp only
      cases hprobe : ((Keyset.sortDesc (·.id) buildsQuery).filter (·.id < oldest.id)).head? with
      | none =>
        rw [List.head?_eq_none_iff.mp hprobe, Keyset.keysetPages_nil, List.append_nil]
        rfl
      | some probe =>
        -- the page up to the probe is the rest of the builds below the page
        have hnext := (Keyset.descending_sortDesc h.ids_nodup).filter_le_head hprobe
        rw [Option.map_some]
        dsimp only
        rw [ih (some probe.id)]
        simp only [Option.all_some]
        rw [hnext]
        rfl

end IdOrdered

/-- On builds whose rerun grouping keeps the id order, as when there are no reruns, following
`Older` from the first page lists every build once, in the page order. -/
theorem olderWalk_eq {buildsQuery : List BuildRow} (h : IdOrdered buildsQuery)
    (chronological : Bool) {limit fuel : Nat} (hlimit : 0 < limit)
    (hfuel : buildsQuery.length < fuel) :
    olderWalk buildsQuery chronological fuel ⟨none, none, limit⟩ =
      .ok (orderDesc chronological buildsQuery) := by
  have hlength : (Keyset.sortDesc (·.id) buildsQuery).length = buildsQuery.length :=
    (Keyset.sortDesc_perm buildsQuery).length_eq
  have hall : ((Keyset.sortDesc (·.id) buildsQuery).filter fun b =>
      (none : Option Nat).all (b.id ≤ ·)) = Keyset.sortDesc (·.id) buildsQuery := by
    simp
  rw [h.olderWalk_eq_keysetPages chronological limit fuel none, hall, h.orderDesc_eq,
    Keyset.keysetPages_eq (Keyset.descending_sortDesc h.ids_nodup) (fun _ _ => rfl) hlimit fuel
      (Keyset.sortDesc (·.id) buildsQuery) ⟨[], rfl⟩ (hlength ▸ hfuel)]

example :
    olderWalk [⟨1, 1, .succeeded, none, none⟩, ⟨3, 1, .failed, none, none⟩,
        ⟨2, 1, .succeeded, none, none⟩] true 4 ⟨none, none, 2⟩ =
      .ok (orderDesc true [⟨1, 1, .succeeded, none, none⟩, ⟨3, 1, .failed, none, none⟩,
        ⟨2, 1, .succeeded, none, none⟩]) :=
  olderWalk_eq (IdOrdered.of_rerunOfAny (by decide) (by decide)) true (by decide) (by decide)

end Db
end Concourse
