import Mathlib.Logic.Relation
import Concourse.Db.VersionsDB
import Concourse.Lib.Keyset
import Concourse.Lib.TopOrder

/-!
# Check orders of the versions of a resource config scope

`atc/db/resource_config_scope.go` saves the versions a check returns.  `saveVersions` runs
in one transaction.  It first upserts every version, keyed by `version_sha256`, the hex
SHA-256 of the version's JSON (a parameter here).  A version comes back new when its
`check_order` is still `0`, the column's default.  If one of them was new, it then runs
`incrementCheckOrder` on every version in the check's order.  That statement gives the
version's row the largest `check_order` of the scope plus one, unless the row is above it
already, which never happens since the row counts towards the largest.

So the statement is `TopOrder.raise` (`incrementCheckOrder_versions`), and the
library's closed form for a list of raises gives what a check does to the order
(`saveVersions_ok`).  The versions of the check end above all others, in the order of
their last occurrence, and the others keep theirs.  No two versions ever share a positive
check order (`ordersDistinct_of_run`).

`VersionsDB.NextEveryVersion` reads that order for an input with `version: every`.  It
returns the next version above the newest one the job has used, and says whether there is
yet another after it.
-/

namespace Concourse
namespace Db

/-- The rows of `resource_config_versions` of one scope: each version's `version_sha256` with
its `check_order`, `0` until the version has been ordered.  The unique key
`(resource_config_scope_id, version_sha256)` keeps one row per digest. -/
structure ResourceConfigScope where
  versions : List (ResourceVersion × Nat)
  nodup : (versions.map Prod.fst).Nodup

namespace ResourceConfigScope

/-- A scope with no versions. -/
def empty : ResourceConfigScope :=
  ⟨[], List.nodup_nil⟩

/-- The `check_order` of the version with the digest, if the scope has it. -/
def checkOrder (scope : ResourceConfigScope) (versionSha256 : ResourceVersion) : Option Nat :=
  scope.versions.lookup versionSha256

/-- No two versions share a positive `check_order`. -/
def OrdersDistinct (scope : ResourceConfigScope) : Prop :=
  TopOrder.DistinctPositive scope.versions

/-- Whether a version of the check is absent from the scope or has `check_order` `0`. -/
def hasNewVersion (scope : ResourceConfigScope) (versionSha256s : List ResourceVersion) : Bool :=
  versionSha256s.any fun d => (scope.checkOrder d).getD 0 == 0

theorem nodup_append_of_lookup_none {versions : List (ResourceVersion × Nat)}
    (hnodup : (versions.map Prod.fst).Nodup) {versionSha256 : ResourceVersion}
    (h : versions.lookup versionSha256 = none) :
    ((versions ++ [(versionSha256, 0)]).map Prod.fst).Nodup := by
  have hnot : versionSha256 ∉ versions.map Prod.fst := by
    simp only [List.lookup_eq_none_iff, bne_iff_ne, ne_eq] at h
    simpa using fun c hc => h (versionSha256, c) hc rfl
  rw [List.map_append, List.map_singleton, List.nodup_append]
  refine ⟨hnodup, List.nodup_singleton _, fun a ha b hb hab => ?_⟩
  rw [List.mem_singleton] at hb
  subst hb hab
  exact hnot ha

theorem nodup_map_of_fst {versions : List (ResourceVersion × Nat)}
    (hnodup : (versions.map Prod.fst).Nodup) {f : ResourceVersion × Nat → ResourceVersion × Nat}
    (hf : ∀ r, (f r).1 = r.1) : ((versions.map f).map Prod.fst).Nodup := by
  simpa [List.map_map, Function.comp_def, hf] using hnodup

/-- `saveResourceVersion`: the upsert of a version, answering whether it comes back with
`check_order` `0`.  On a conflict it only updates the metadata, which is not modelled. -/
def saveResourceVersion (sha256 : Version → ResourceVersion) (scope : ResourceConfigScope)
    (version : Version) : Except String (ResourceConfigScope × Bool) :=
  if version.isEmpty then
    .error "resource output version is empty. Version must contain at least one key-value pair"
  else
    match h : scope.versions.lookup (sha256 version) with
    | some checkOrder => .ok (scope, checkOrder == 0)
    | none =>
      .ok (⟨scope.versions ++ [(sha256 version, 0)], nodup_append_of_lookup_none scope.nodup h⟩,
        true)

/-- `incrementCheckOrder`: the row of the version gets the largest `check_order` of the scope
plus one, when it is not above it. -/
def incrementCheckOrder (scope : ResourceConfigScope) (versionSha256 : ResourceVersion) :
    ResourceConfigScope :=
  match (scope.versions.map Prod.snd).max? with
  | none => scope
  | some co =>
    ⟨scope.versions.map fun r => if r.1 = versionSha256 ∧ r.2 ≤ co then (r.1, co + 1) else r,
      nodup_map_of_fst scope.nodup fun r => by split <;> rfl⟩

/-- The first loop of `saveVersions`: upsert each version in turn, noting whether one of
them was new. -/
def saveResourceVersions (sha256 : Version → ResourceVersion) :
    ResourceConfigScope → Bool → List Version → Except String (ResourceConfigScope × Bool)
  | scope, containsNewVersion, [] => .ok (scope, containsNewVersion)
  | scope, containsNewVersion, version :: versions =>
    match saveResourceVersion sha256 scope version with
    | .error err => .error err
    | .ok (scope, newVersion) =>
      saveResourceVersions sha256 scope (containsNewVersion || newVersion) versions

/-- `saveVersions`, in one transaction: on an error nothing is kept.  Asking the scheduler to
run the jobs that use the scope is not modelled. -/
def saveVersions (sha256 : Version → ResourceVersion) (scope : ResourceConfigScope)
    (versions : List Version) : Except String ResourceConfigScope :=
  match saveResourceVersions sha256 scope false versions with
  | .error err => .error err
  | .ok (scope, containsNewVersion) =>
    if containsNewVersion then
      -- the second loop bumps every version of the check, in the check's order
      .ok ((versions.map sha256).foldl incrementCheckOrder scope)
    else .ok scope

/-! ## One upsert -/

section sha256

variable {sha256 : Version → ResourceVersion}

/-- A non-empty version is upserted: it then has a row, with its old `check_order` or `0`,
and the answer says whether that is `0`. -/
theorem saveResourceVersion_ok {scope : ResourceConfigScope} {version : Version}
    (hne : version ≠ []) :
    ∃ scope', saveResourceVersion sha256 scope version =
        .ok (scope', (scope.checkOrder (sha256 version)).getD 0 == 0) ∧
      ∀ d, scope'.checkOrder d =
        if d = sha256 version then some ((scope.checkOrder d).getD 0) else scope.checkOrder d := by
  have hempty : version.isEmpty = false := List.isEmpty_eq_false_iff.mpr hne
  unfold saveResourceVersion
  rw [if_neg (by simp [hempty])]
  split
  · -- the version has a row already
    next c hc =>
    refine ⟨scope, by simp [checkOrder, hc], fun d => ?_⟩
    by_cases hd : d = sha256 version
    · subst hd
      simp [checkOrder, hc]
    · simp [hd]
  · -- a new row with `check_order` `0`
    next hc =>
    refine ⟨⟨scope.versions ++ [(sha256 version, 0)], nodup_append_of_lookup_none scope.nodup hc⟩,
      by simp [checkOrder, hc], fun d => ?_⟩
    by_cases hd : d = sha256 version
    · subst hd
      simp [checkOrder, List.lookup_append, hc]
    · have hbeq : (d == sha256 version) = false := by simpa using hd
      simp only [checkOrder, List.lookup_append, List.lookup_cons, hbeq, List.lookup_nil,
        Option.or_none, if_neg hd]

/-- An upsert keeps every check order, reading a missing one as `0`. -/
theorem getD_checkOrder_eq {scope scope' : ResourceConfigScope} {p : ResourceVersion → Prop}
    [DecidablePred p]
    (h : ∀ d, scope'.checkOrder d =
      if p d then some ((scope.checkOrder d).getD 0) else scope.checkOrder d)
    (d : ResourceVersion) : (scope'.checkOrder d).getD 0 = (scope.checkOrder d).getD 0 := by
  rw [h d]
  split <;> simp

/-- The upserts of the first loop, when every version is non-empty. -/
theorem saveResourceVersions_ok (versions : List Version) (hne : ∀ v ∈ versions, v ≠ []) :
    ∀ (scope : ResourceConfigScope) (containsNewVersion : Bool),
      ∃ scope', saveResourceVersions sha256 scope containsNewVersion versions =
          .ok (scope', containsNewVersion || scope.hasNewVersion (versions.map sha256)) ∧
        ∀ d, scope'.checkOrder d =
          if d ∈ versions.map sha256 then some ((scope.checkOrder d).getD 0)
          else scope.checkOrder d := by
  induction versions with
  | nil => intro scope containsNewVersion; exact ⟨scope, by simp [saveResourceVersions,
      hasNewVersion], fun d => by simp⟩
  | cons version versions ih =>
    intro scope containsNewVersion
    obtain ⟨scope₁, hsave, hscope₁⟩ :=
      @saveResourceVersion_ok sha256 scope version (hne version List.mem_cons_self)
    obtain ⟨scope₂, hsave₂, hscope₂⟩ := ih (fun v hv => hne v (List.mem_cons_of_mem _ hv)) scope₁
      (containsNewVersion || (scope.checkOrder (sha256 version)).getD 0 == 0)
    -- the upsert reads every check order of the rest as before
    have hgetD := getD_checkOrder_eq hscope₁
    have hnew : scope₁.hasNewVersion (versions.map sha256) =
        scope.hasNewVersion (versions.map sha256) := by
      simp only [hasNewVersion, hgetD]
    refine ⟨scope₂, ?_, fun d => ?_⟩
    · simp only [saveResourceVersions, hsave, hsave₂, hnew]
      simp only [hasNewVersion, List.map_cons, List.any_cons, Bool.or_assoc]
    · by_cases hd : d ∈ versions.map sha256
      · simp [hscope₂, hd, hgetD]
      · simp [hscope₂, hscope₁, hd]

/-- A positive check order after the upserts was there before them. -/
theorem checkOrder_of_upsert {scope scope' : ResourceConfigScope} {ds : List ResourceVersion}
    (h : ∀ d, scope'.checkOrder d =
      if d ∈ ds then some ((scope.checkOrder d).getD 0) else scope.checkOrder d)
    {d : ResourceVersion} {c : Nat} (hc : scope'.checkOrder d = some c) (hpos : 0 < c) :
    scope.checkOrder d = some c := by
  rw [h d] at hc
  split at hc
  · cases hold : scope.checkOrder d with
    | none => simp [hold] at hc; omega
    | some c' => simpa [hold] using hc
  · exact hc

theorem ordersDistinct_of_upsert {scope scope' : ResourceConfigScope} {ds : List ResourceVersion}
    (h : ∀ d, scope'.checkOrder d =
      if d ∈ ds then some ((scope.checkOrder d).getD 0) else scope.checkOrder d)
    (hdistinct : scope.OrdersDistinct) : scope'.OrdersDistinct :=
  fun j j' c hj hj' hpos =>
    hdistinct j j' c (checkOrder_of_upsert h hj hpos) (checkOrder_of_upsert h hj' hpos) hpos

/-- Without a new version, the upserts find every version with its check order. -/
theorem checkOrder_of_not_hasNewVersion {scope : ResourceConfigScope} {ds : List ResourceVersion}
    (hnew : scope.hasNewVersion ds = false) {d : ResourceVersion} (hd : d ∈ ds) :
    some ((scope.checkOrder d).getD 0) = scope.checkOrder d := by
  have hpos : (scope.checkOrder d).getD 0 ≠ 0 := by
    simp only [hasNewVersion, List.any_eq_false, beq_iff_eq] at hnew
    exact hnew d hd
  cases hc : scope.checkOrder d with
  | none => simp [hc] at hpos
  | some c => rfl

end sha256

/-! ## The bumps -/

/-- `incrementCheckOrder` raises the version to the top: no row is above the largest
`check_order`, so the guard `check_order <= mc.co` always holds. -/
theorem incrementCheckOrder_versions (scope : ResourceConfigScope)
    (versionSha256 : ResourceVersion) :
    (incrementCheckOrder scope versionSha256).versions =
      TopOrder.raise scope.versions versionSha256 := by
  -- one case per largest check order, so that the matches of both sides reduce
  rcases hmax : (scope.versions.map Prod.snd).max? with _ | co
  · simp only [incrementCheckOrder, TopOrder.raise, TopOrder.top, hmax]
  · simp only [incrementCheckOrder, TopOrder.raise, TopOrder.top, TopOrder.setValue, hmax]
    refine List.map_congr_left fun r hr => ?_
    have hle : r.2 ≤ co := (List.max?_eq_some_iff.mp hmax).2 r.2 (List.mem_map.mpr ⟨r, hr, rfl⟩)
    simp [hle]

theorem foldl_incrementCheckOrder_versions (ds : List ResourceVersion) :
    ∀ scope : ResourceConfigScope,
      (ds.foldl incrementCheckOrder scope).versions = TopOrder.raiseAll scope.versions ds := by
  induction ds with
  | nil => intro scope; rfl
  | cons d ds ih =>
    intro scope
    rw [List.foldl_cons, ih, incrementCheckOrder_versions, TopOrder.raiseAll_cons]

/-! ## What a check does to the order -/

/-- What a committed `saveVersions` does to the check orders, for the digests `ds` of the
check's versions in the check's order. -/
structure SavedCheckOrders (scope scope' : ResourceConfigScope) (ds : List ResourceVersion) :
    Prop where
  /-- Versions outside the check keep their check order. -/
  keep : ∀ d, d ∉ ds → scope'.checkOrder d = scope.checkOrder d
  /-- Without a new version no check order changes. -/
  unchanged : scope.hasNewVersion ds = false → ∀ d, scope'.checkOrder d = scope.checkOrder d
  /-- With one, the versions of the check get positive check orders, -/
  positive : scope.hasNewVersion ds = true → ∀ d ∈ ds, ∃ c, scope'.checkOrder d = some c ∧ 0 < c
  /-- above those of every version outside the check, -/
  above : scope.hasNewVersion ds = true → ∀ d ∈ ds, ∀ e, e ∉ ds → ∀ c c',
    scope'.checkOrder d = some c → scope'.checkOrder e = some c' → c' < c
  /-- in the order of their last occurrences in the check. -/
  ordered : scope.hasNewVersion ds = true → ∀ A d B e, ds = A ++ d :: B → d ∉ B → e ∈ B →
    ∀ c c', scope'.checkOrder d = some c → scope'.checkOrder e = some c' → c < c'

section sha256

variable {sha256 : Version → ResourceVersion}

/-- A check of non-empty versions commits, with the order it gives, and keeps the positive
check orders distinct. -/
theorem saveVersions_ok {scope : ResourceConfigScope} {versions : List Version}
    (hne : ∀ v ∈ versions, v ≠ []) :
    ∃ scope', saveVersions sha256 scope versions = .ok scope' ∧
      SavedCheckOrders scope scope' (versions.map sha256) ∧
      (scope.OrdersDistinct → scope'.OrdersDistinct) := by
  obtain ⟨scope₁, hsave, hscope₁⟩ := @saveResourceVersions_ok sha256 versions hne scope false
  rw [Bool.false_or] at hsave
  cases hnew : scope.hasNewVersion (versions.map sha256) with
  | false =>
    -- nothing new: the upserts found every version, and nothing is bumped
    have hsame : ∀ d, scope₁.checkOrder d = scope.checkOrder d := by
      intro d
      rw [hscope₁ d]
      split
      · next hd => exact checkOrder_of_not_hasNewVersion hnew hd
      · rfl
    have hnot : scope.hasNewVersion (versions.map sha256) = true → False := fun h =>
      Bool.false_ne_true (hnew.symm.trans h)
    refine ⟨scope₁, by simp [saveVersions, hsave, hnew], ⟨fun d _ => hsame d, fun _ => hsame,
      fun h => (hnot h).elim, fun h => (hnot h).elim, fun h => (hnot h).elim⟩,
      ordersDistinct_of_upsert hscope₁⟩
  | true =>
    -- a new version: the versions of the check are raised to the top one after another
    have hsaved : saveVersions sha256 scope versions =
        .ok ((versions.map sha256).foldl incrementCheckOrder scope₁) := by
      simp [saveVersions, hsave, hnew]
    set ds := versions.map sha256 with hds
    obtain ⟨d₀, hd₀, -⟩ := List.any_eq_true.mp hnew
    have hks : ∀ k ∈ ds, (scope₁.versions.lookup k).isSome := fun k hk => by
      have := hscope₁ k
      simp only [checkOrder] at this
      simp [this, hk]
    obtain ⟨m, htop⟩ := TopOrder.exists_top (Option.get_mem (hks d₀ hd₀))
    have hraised : ∀ d, (ds.foldl incrementCheckOrder scope₁).checkOrder d =
        if d ∈ ds then some (m + TopOrder.lastPos d ds) else scope₁.checkOrder d := fun d => by
      rw [checkOrder, foldl_incrementCheckOrder_versions, TopOrder.lookup_raiseAll htop hks]
      rfl
    refine ⟨ds.foldl incrementCheckOrder scope₁, hsaved, ?_, ?_⟩
    · refine ⟨fun d hd => ?_, fun h => (Bool.false_ne_true (h.symm.trans hnew)).elim, fun _ d hd => ?_,
        fun _ d hd e he c c' hc hc' => ?_, fun _ A d B e hsplit hdB heB c c' hc hc' => ?_⟩
      · rw [hraised, if_neg hd, hscope₁, if_neg hd]
      · exact ⟨_, by rw [hraised, if_pos hd], by have := TopOrder.lastPos_pos hd; omega⟩
      · rw [checkOrder, foldl_incrementCheckOrder_versions] at hc hc'
        exact TopOrder.lt_of_raiseAll htop hks hd he hc hc'
      · have hd : d ∈ ds := by simp [hsplit]
        have he : e ∈ ds := by simp [hsplit, heB]
        rw [hraised, if_pos hd] at hc
        rw [hraised, if_pos he] at hc'
        have hlt : TopOrder.lastPos d ds < TopOrder.lastPos e ds :=
          hsplit ▸ TopOrder.lastPos_lt hdB heB
        cases hc
        cases hc'
        omega
    · intro hdistinct
      have h₁ := ordersDistinct_of_upsert hscope₁ hdistinct
      unfold OrdersDistinct
      rw [foldl_incrementCheckOrder_versions]
      exact TopOrder.distinctPositive_raiseAll htop hks h₁

/-- A check commits only when all its versions are non-empty. -/
theorem ne_nil_of_saveResourceVersions :
    ∀ {versions : List Version} {scope : ResourceConfigScope} {containsNewVersion : Bool}
      {result : ResourceConfigScope × Bool},
      saveResourceVersions sha256 scope containsNewVersion versions = .ok result →
        ∀ v ∈ versions, v ≠ []
  | [], _, _, _, _ => by simp
  | version :: versions, scope, containsNewVersion, result, h => by
    unfold saveResourceVersions at h
    split at h
    · cases h
    · next scope₁ newVersion hsave =>
      have hne : version ≠ [] := by
        intro hnil
        simp [saveResourceVersion, hnil] at hsave
      intro v hv
      rcases List.mem_cons.mp hv with rfl | hv
      · exact hne
      · exact ne_nil_of_saveResourceVersions h v hv

/-- One committed check keeps the positive check orders distinct. -/
theorem ordersDistinct_saveVersions {scope scope' : ResourceConfigScope} {versions : List Version}
    (hdistinct : scope.OrdersDistinct) (hsave : saveVersions sha256 scope versions = .ok scope') :
    scope'.OrdersDistinct := by
  have hne : ∀ v ∈ versions, v ≠ [] := by
    unfold saveVersions at hsave
    split at hsave
    · cases hsave
    · next result hresult => exact ne_nil_of_saveResourceVersions hresult
  obtain ⟨scope'', hsave', -, hkeeps⟩ := @saveVersions_ok sha256 scope versions hne
  rw [hsave'] at hsave
  cases hsave
  exact hkeeps hdistinct

/-- A committed `saveVersions` call: a step of the scope. -/
def SavesVersions (sha256 : Version → ResourceVersion) (scope scope' : ResourceConfigScope) :
    Prop :=
  ∃ versions, saveVersions sha256 scope versions = .ok scope'

/-- Along any run of checks the positive check orders stay distinct. -/
theorem ordersDistinct_of_run {scope₀ scope : ResourceConfigScope}
    (h₀ : scope₀.OrdersDistinct) (hrun : Relation.ReflTransGen (SavesVersions sha256) scope₀ scope) :
    scope.OrdersDistinct := by
  induction hrun with
  | refl => exact h₀
  | tail _ hstep ih =>
    obtain ⟨versions, hsave⟩ := hstep
    exact ordersDistinct_saveVersions ih hsave

/-- After any run of checks from a scope whose positive check orders are distinct, they
still are, and the next check of non-empty versions commits, keeps them distinct and orders
the versions as `SavedCheckOrders` says. -/
theorem saveVersions_checkOrders {scope₀ scope : ResourceConfigScope}
    (h₀ : scope₀.OrdersDistinct) (hrun : Relation.ReflTransGen (SavesVersions sha256) scope₀ scope)
    {versions : List Version} (hne : ∀ version ∈ versions, version ≠ []) :
    scope.OrdersDistinct ∧ ∃ scope', saveVersions sha256 scope versions = .ok scope' ∧
      scope'.OrdersDistinct ∧ SavedCheckOrders scope scope' (versions.map sha256) := by
  have hdistinct := ordersDistinct_of_run h₀ hrun
  obtain ⟨scope', hsave, hsaved, hkeeps⟩ := @saveVersions_ok sha256 scope versions hne
  exact ⟨hdistinct, scope', hsave, hkeeps hdistinct, hsaved⟩

end sha256

theorem ordersDistinct_empty : empty.OrdersDistinct := by
  intro j j' c hj
  simp [empty] at hj

/-- A digest for the examples: the version's values, joined. -/
def valuesDigest (version : Version) : ResourceVersion :=
  String.join (version.map Prod.snd)

/-- The scope after a first check that found `v1` and `v2`: ordered `1` and `2`. -/
def firstCheckScope : ResourceConfigScope :=
  ⟨[("v1", 1), ("v2", 2)], by decide⟩

/-- A second check, of a new `v3` and the old `v1`, after the first one committed. -/
theorem saveVersions_checkOrders_secondCheck :
    empty.OrdersDistinct ∧ Relation.ReflTransGen (SavesVersions valuesDigest) empty firstCheckScope ∧
      (∀ version ∈ [[("ref", "v3")], [("ref", "v1")]], version ≠ ([] : Version)) ∧
      firstCheckScope.OrdersDistinct ∧ ∃ scope', saveVersions valuesDigest firstCheckScope
          [[("ref", "v3")], [("ref", "v1")]] = .ok scope' ∧ scope'.OrdersDistinct ∧
        SavedCheckOrders firstCheckScope scope' ([[("ref", "v3")], [("ref", "v1")]].map valuesDigest) := by
  have hrun : Relation.ReflTransGen (SavesVersions valuesDigest) empty firstCheckScope :=
    .single ⟨[[("ref", "v1")], [("ref", "v2")]], rfl⟩
  exact ⟨ordersDistinct_empty, hrun, by decide,
    saveVersions_checkOrders ordersDistinct_empty hrun (by decide)⟩

/-! ## `NextEveryVersion` -/

/-- `latestVersionOfResource`: the version of the scope with the largest `check_order` that is
not disabled for the resource. -/
def latestVersionOfResource (scope : ResourceConfigScope) (disabled : List ResourceVersion) :
    Option ResourceVersion :=
  ((Keyset.sortDesc Prod.snd (scope.versions.filter fun v => !disabled.contains v.1)).head?).map
    Prod.fst

/-- `VersionsDB.NextEveryVersion(jobID, resourceID)` on the scope of the resource: the version
to use next for an input with `version: every` and whether one comes after it, or `none`
when there is none.  `disabled` lists the versions disabled for the resource and `inputs`
the versions the job's builds had as inputs of the resource. -/
def nextEveryVersion (scope : ResourceConfigScope) (disabled inputs : List ResourceVersion) :
    Option (ResourceVersion × Bool) :=
  -- the check order of the newest version the job has used
  match ((scope.versions.filter fun v => inputs.contains v.1).map Prod.snd).max? with
  | none => (latestVersionOfResource scope disabled).map fun version => (version, false)
  | some checkOrder =>
    let enabled := scope.versions.filter fun v => !disabled.contains v.1
    match (Keyset.sortAsc Prod.snd (enabled.filter fun v => checkOrder < v.2)).take 2 with
    | nextVersion :: rest => some (nextVersion.1, !rest.isEmpty)
    | [] =>
      ((Keyset.sortDesc Prod.snd (enabled.filter fun v => v.2 ≤ checkOrder)).head?).map
        fun version => (version.1, false)

/-- `NextEveryVersion` answers that another version comes after the one it returns exactly
when two versions that are not disabled are above the newest one the job has used. -/
theorem nextEveryVersion_hasNext {scope : ResourceConfigScope} {disabled inputs : List ResourceVersion}
    {version : ResourceVersion} {hasNext : Bool}
    (h : nextEveryVersion scope disabled inputs = some (version, hasNext)) :
    hasNext = true ↔ ∃ checkOrder,
      ((scope.versions.filter fun v => inputs.contains v.1).map Prod.snd).max? = some checkOrder ∧
        1 < ((scope.versions.filter fun v => !disabled.contains v.1).filter
          fun v => checkOrder < v.2).length := by
  unfold nextEveryVersion at h
  split at h
  · next hnone =>
    -- the job used no version: the latest one is returned, with nothing after it
    obtain ⟨v, -, hv⟩ := Option.map_eq_some_iff.mp h
    rw [← (Prod.mk.inj hv).2]
    simp only [Bool.false_eq_true, false_iff, not_exists, not_and]
    intro checkOrder hsome
    rw [hnone] at hsome
    cases hsome
  · next checkOrder hsome =>
    have hlen := (@Keyset.sortAsc_perm _ _ _ Prod.snd
      ((scope.versions.filter fun v => !disabled.contains v.1).filter
        fun v => checkOrder < v.2)).length_eq
    dsimp only at h
    split at h
    · next nextVersion rest htake =>
      -- a version above: the flag says whether a second one was read with it
      have hhasNext : hasNext = !rest.isEmpty := (Prod.mk.inj (Option.some.inj h)).2.symm
      have htakelen := congrArg List.length htake
      rw [List.length_take, List.length_cons, hlen] at htakelen
      rw [hhasNext]
      constructor
      · intro hrest
        refine ⟨checkOrder, hsome, ?_⟩
        cases rest with
        | nil => simp at hrest
        | cons r rest' =>
          simp only [List.length_cons] at htakelen
          omega
      · rintro ⟨checkOrder', hsome', hlt⟩
        rw [hsome] at hsome'
        cases hsome'
        cases rest with
        | nil =>
          simp only [List.length_nil] at htakelen
          omega
        | cons r rest' => rfl
    · next htake =>
      -- nothing above: an older version is returned, with nothing after it
      obtain ⟨v, -, hv⟩ := Option.map_eq_some_iff.mp h
      rw [← (Prod.mk.inj hv).2]
      have htakelen := congrArg List.length htake
      rw [List.length_take, List.length_nil, hlen] at htakelen
      simp only [Bool.false_eq_true, false_iff, not_exists, not_and]
      intro checkOrder' hsome'
      rw [hsome] at hsome'
      cases hsome'
      omega

end ResourceConfigScope

end Db
end Concourse
