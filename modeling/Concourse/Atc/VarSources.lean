import Mathlib.Data.List.Nodup
import Concourse.Vars.Template
import Concourse.Lib.DepOrder
import Concourse.Lib.ExceptFold

/-!
# Ordering var sources by their dependencies

`atc.VarSourceConfigs.OrderByDependency` orders the var sources of a pipeline so that each comes
after the var sources its config reads from: a reference `((source:var))` that `ExtraVarNames`
finds in the YAML the config marshals to makes the var source depend on `source`.  It walks the
input once.  A var source whose dependencies are all added is added, and the pending var sources
are then swept once, in order; any other var source is put on the pending list.  Whatever is
still pending at the end is an error.

We show

1. that what it returns is a permutation of an input of distinct names that lists every var
   source after those it depends on (`orderByDependency_sound`), so that an order is returned only
   for a dependency graph without cycles (`acyclic_of_orderByDependency`);
2. that an input already in such an order is returned as it is
   (`orderByDependency_of_depsBefore`);
3. that a chain declared against that order, where `a` reads from `b` and `b` from `c`, is
   refused although it has no cycle: the one sweep after `c` adds `b` but not `a`
   (`orderByDependency_reverse_chain`).

`yaml.Marshal` is the parameter `marshal`, and `\pL` of the var name regex the parameter
`isLetter` of `Vars.Template`.  The `Type` of a var source is not read here.
-/

namespace Concourse
namespace Atc

open DepOrder

/-- `atc.VarSourceConfig`, with the fields `OrderByDependency` reads; the config is of any type
`yaml.Marshal` takes. -/
structure VarSourceConfig (α : Type) where
  name : String
  config : α
  deriving DecidableEq, Repr

/-- `atc.pendingVarSource`: a var source with the dependencies found in its config. -/
structure PendingVarSource (α : Type) where
  vs : VarSourceConfig α
  deps : List String
  deriving DecidableEq, Repr

/-- The source named by a var name: `parts[0]` of `strings.Split(varName, ":")`, for a name of
more than one part. -/
def varNameSource (varName : String) : Option String :=
  match varName.toList.splitOn ':' with
  | part :: _ :: _ => some (String.ofList part)
  | _ => none

/-- `miss`: some dependency is not a key of `added`. -/
def missesDependency (added deps : List String) : Bool :=
  deps.any fun dep => !added.contains dep

/-- The variables of `OrderByDependency`: `ordered`, `pending` and the keys of `added`. -/
structure OrderState (α : Type) where
  ordered : List (VarSourceConfig α)
  pending : List (PendingVarSource α)
  added : List String

section Order

variable {α : Type} (isLetter : Char → Bool) (marshal : α → Except String String)

/-- The dependencies of a var source: the source of each var name `ExtraVarNames` finds in the
YAML its config marshals to, in order.  An error of `yaml.Marshal` is returned as it is. -/
def VarSourceConfig.dependencies (vs : VarSourceConfig α) : Except String (List String) := do
  let b ← marshal vs.config
  pure ((Vars.Template.extractVarNames isLetter b.toList).filterMap varNameSource)

/-- Append a var source to `ordered` and make its name a key of `added`. -/
def OrderState.add (s : OrderState α) (vs : VarSourceConfig α) : OrderState α :=
  { s with ordered := s.ordered ++ [vs], added := vs.name :: s.added }

/-- One pending var source of the sweep; the state's `pending` is the list `left`. -/
def OrderState.retry (s : OrderState α) (pendingVs : PendingVarSource α) : OrderState α :=
  if missesDependency s.added pendingVs.deps then { s with pending := s.pending ++ [pendingVs] }
  else s.add pendingVs.vs

/-- The sweep after an addition: every pending var source once, in order, into `left`, which
then becomes `pending`. -/
def OrderState.sweep (s : OrderState α) : OrderState α :=
  s.pending.foldl OrderState.retry { s with pending := [] }

/-- One round of the loop over the input. -/
def OrderState.orderNext (s : OrderState α) (vs : VarSourceConfig α) :
    Except String (OrderState α) := do
  let dependencies ← vs.dependencies isLetter marshal
  if dependencies.isEmpty then
    pure (s.add vs).sweep
  else if missesDependency s.added dependencies then
    -- the `continue` skips the sweep
    pure { s with pending := s.pending ++ [⟨vs, dependencies⟩] }
  else
    pure (s.add vs).sweep

/-- `VarSourceConfigs.OrderByDependency`. -/
def VarSourceConfigs.orderByDependency (c : List (VarSourceConfig α)) :
    Except String (List (VarSourceConfig α)) := do
  let s ← c.foldlM (OrderState.orderNext isLetter marshal) ⟨[], [], []⟩
  if s.pending.length > 0 then
    throw ("could not resolve inter-dependent var sources: " ++
      ", ".intercalate (s.pending.map fun p => p.vs.name))
  else
    pure s.ordered

/-- The dependency graph of the var sources `c`: `x` depends on the var source `y` of `c` when
the name of `y` is among the dependencies of `x`. -/
def DependsOn (c : List (VarSourceConfig α)) (x y : VarSourceConfig α) : Prop :=
  y ∈ c ∧ ∃ deps, x.dependencies isLetter marshal = .ok deps ∧ y.name ∈ deps

end Order

/-! ## One round -/

section Round

variable {α : Type} {isLetter : Char → Bool} {marshal : α → Except String String}

@[simp] theorem OrderState.add_ordered (s : OrderState α) (vs : VarSourceConfig α) :
    (s.add vs).ordered = s.ordered ++ [vs] := rfl

@[simp] theorem OrderState.add_pending (s : OrderState α) (vs : VarSourceConfig α) :
    (s.add vs).pending = s.pending := rfl

@[simp] theorem OrderState.add_added (s : OrderState α) (vs : VarSourceConfig α) :
    (s.add vs).added = vs.name :: s.added := rfl

theorem missesDependency_eq_false_iff {added deps : List String} :
    missesDependency added deps = false ↔ ∀ d ∈ deps, d ∈ added := by
  simp [missesDependency]

theorem OrderState.sweep_of_pending_nil {s : OrderState α} (h : s.pending = []) : s.sweep = s := by
  simp only [OrderState.sweep, h, List.foldl_nil]
  rw [← h]

/-- A round computed from the dependencies: the var source is added and the pending ones swept
when no dependency misses, and it is put on the pending list when one does. -/
theorem OrderState.orderNext_of_dependencies {s : OrderState α} {vs : VarSourceConfig α}
    {deps : List String} (hdeps : vs.dependencies isLetter marshal = .ok deps) :
    s.orderNext isLetter marshal vs =
      .ok (if missesDependency s.added deps then
        { s with pending := s.pending ++ [⟨vs, deps⟩] } else (s.add vs).sweep) := by
  simp only [OrderState.orderNext, hdeps, bind, Except.bind, pure, Except.pure]
  cases deps with
  | nil => simp [missesDependency]
  | cons d ds =>
    simp only [List.isEmpty_cons, Bool.false_eq_true, if_false]
    split <;> rfl

theorem OrderState.orderNext_of_error {s : OrderState α} {vs : VarSourceConfig α} {e : String}
    (he : vs.dependencies isLetter marshal = .error e) :
    s.orderNext isLetter marshal vs = .error e := by
  simp [OrderState.orderNext, he, bind, Except.bind]

/-- What a round that returns can have done. -/
theorem OrderState.orderNext_eq_ok {s s' : OrderState α} {vs : VarSourceConfig α}
    (h : s.orderNext isLetter marshal vs = .ok s') :
    ∃ deps, vs.dependencies isLetter marshal = .ok deps ∧
      (missesDependency s.added deps = true ∧
          s' = { s with pending := s.pending ++ [⟨vs, deps⟩] } ∨
        missesDependency s.added deps = false ∧ s' = (s.add vs).sweep) := by
  cases hdeps : vs.dependencies isLetter marshal with
  | error e => rw [OrderState.orderNext_of_error hdeps] at h; cases h
  | ok deps =>
    rw [OrderState.orderNext_of_dependencies hdeps] at h
    refine ⟨deps, rfl, ?_⟩
    cases hmiss : missesDependency s.added deps
    · simp only [hmiss] at h
      exact .inr ⟨rfl, (Except.ok.inj h).symm⟩
    · simp only [hmiss, if_true] at h
      exact .inl ⟨rfl, (Except.ok.inj h).symm⟩

end Round

/-! ## Nothing is lost or doubled

Every var source read is either ordered or pending, once. -/

section All

variable {α : Type} {isLetter : Char → Bool} {marshal : α → Except String String}

/-- The var sources a state holds: those ordered, then those pending. -/
def OrderState.all (s : OrderState α) : List (VarSourceConfig α) :=
  s.ordered ++ s.pending.map PendingVarSource.vs

/-- An added var source is ordered ahead of those still pending. -/
theorem OrderState.all_add (s : OrderState α) (vs : VarSourceConfig α) :
    (s.add vs).all.Perm (s.all ++ [vs]) := by
  simp only [OrderState.all, OrderState.add_ordered, OrderState.add_pending, List.append_assoc]
  exact List.Perm.append_left _ List.perm_append_comm

theorem OrderState.all_defer (s : OrderState α) (p : PendingVarSource α) :
    { s with pending := s.pending ++ [p] }.all = s.all ++ [p.vs] := by
  simp [OrderState.all]

theorem OrderState.all_retry (s : OrderState α) (p : PendingVarSource α) :
    (s.retry p).all.Perm (s.all ++ [p.vs]) := by
  unfold OrderState.retry
  split
  · rw [OrderState.all_defer]
  · exact s.all_add p.vs

theorem OrderState.all_foldl_retry :
    ∀ (ps : List (PendingVarSource α)) (s : OrderState α),
      (ps.foldl OrderState.retry s).all.Perm (s.all ++ ps.map PendingVarSource.vs)
  | [], s => by simp
  | p :: ps, s => by
    have ih := OrderState.all_foldl_retry ps (s.retry p)
    have hstep := (s.all_retry p).append_right (ps.map PendingVarSource.vs)
    simpa using ih.trans hstep

theorem OrderState.all_sweep (s : OrderState α) : s.sweep.all.Perm s.all := by
  have h := OrderState.all_foldl_retry s.pending { s with pending := [] }
  simpa [OrderState.sweep, OrderState.all] using h

theorem OrderState.all_orderNext {s s' : OrderState α} {vs : VarSourceConfig α}
    (h : s.orderNext isLetter marshal vs = .ok s') : s'.all.Perm (s.all ++ [vs]) := by
  obtain ⟨deps, -, ⟨-, rfl⟩ | ⟨-, rfl⟩⟩ := OrderState.orderNext_eq_ok h
  · rw [OrderState.all_defer]
  · exact (OrderState.all_sweep _).trans (s.all_add vs)

/-- The loop over the input holds every var source it read, once. -/
theorem OrderState.all_foldlM (l : List (VarSourceConfig α)) (s s' : OrderState α)
    (h : l.foldlM (OrderState.orderNext isLetter marshal) s = .ok s') :
    s'.all.Perm (s.all ++ l) := by
  -- the invariant: the state holds what it started with and the var sources read so far
  have hrun := ExceptFold.foldlM_ok_of_step_prefix (fun done t => t.all.Perm (s.all ++ done))
    (fun done t vs t' ht hnext => by
      rw [← List.append_assoc]
      exact (OrderState.all_orderNext hnext).trans (ht.append_right [vs]))
    l [] (by simp) h
  simpa using hrun

end All

/-! ## Dependencies come first -/

section Sound

variable {α : Type} {isLetter : Char → Bool} {marshal : α → Except String String}
  {c : List (VarSourceConfig α)}

/-- What the loop keeps of its variables on an input `c`: `added` holds the names ordered, the
pending var sources are of `c` with the dependencies of their configs, and the ordered ones are
of `c` and come after what they depend on. -/
structure OrderState.Sound (isLetter : Char → Bool) (marshal : α → Except String String)
    (c : List (VarSourceConfig α)) (s : OrderState α) : Prop where
  added_iff : ∀ n, n ∈ s.added ↔ n ∈ s.ordered.map VarSourceConfig.name
  ordered_mem : ∀ v ∈ s.ordered, v ∈ c
  pending_mem : ∀ p ∈ s.pending, p.vs ∈ c ∧ p.vs.dependencies isLetter marshal = .ok p.deps
  depsBefore : DepsBefore (DependsOn isLetter marshal c) s.ordered

theorem OrderState.sound_init : (⟨[], [], []⟩ : OrderState α).Sound isLetter marshal c :=
  ⟨by simp, by simp, by simp, depsBefore_nil⟩

/-- With distinct names, a var source of `c` whose name is added is ordered. -/
theorem OrderState.Sound.mem_ordered {s : OrderState α} {y : VarSourceConfig α}
    (hnames : (c.map VarSourceConfig.name).Nodup) (h : s.Sound isLetter marshal c) (hy : y ∈ c)
    (hname : y.name ∈ s.added) : y ∈ s.ordered := by
  obtain ⟨z, hz, hzy⟩ := List.mem_map.mp ((h.added_iff _).mp hname)
  have : z = y := List.inj_on_of_nodup_map hnames (h.ordered_mem z hz) hy hzy
  exact this ▸ hz

/-- Adding a var source none of whose dependencies misses keeps the loop sound. -/
theorem OrderState.Sound.add {s : OrderState α} {vs : VarSourceConfig α} {deps : List String}
    (hnames : (c.map VarSourceConfig.name).Nodup) (h : s.Sound isLetter marshal c) (hvs : vs ∈ c)
    (hdeps : vs.dependencies isLetter marshal = .ok deps)
    (hready : missesDependency s.added deps = false) : (s.add vs).Sound isLetter marshal c := by
  refine ⟨?_, ?_, h.pending_mem, ?_⟩
  · intro n
    simp [h.added_iff, or_comm]
  · intro v hv
    rcases List.mem_append.mp hv with hv | hv
    · exact h.ordered_mem v hv
    · rw [List.mem_singleton.mp hv]; exact hvs
  · -- what `vs` depends on is named in `added`, so it is ordered already
    refine h.depsBefore.snoc fun y ⟨hy, deps', hdeps', hname⟩ => ?_
    rw [hdeps] at hdeps'
    cases hdeps'
    exact h.mem_ordered hnames hy (missesDependency_eq_false_iff.mp hready _ hname)

/-- Putting a var source of `c`, with the dependencies of its config, on the pending list keeps
the loop sound. -/
theorem OrderState.Sound.defer {s : OrderState α} {p : PendingVarSource α}
    (h : s.Sound isLetter marshal c)
    (hp : p.vs ∈ c ∧ p.vs.dependencies isLetter marshal = .ok p.deps) :
    { s with pending := s.pending ++ [p] }.Sound isLetter marshal c := by
  refine ⟨h.added_iff, h.ordered_mem, ?_, h.depsBefore⟩
  intro q hq
  rcases List.mem_append.mp hq with hq | hq
  · exact h.pending_mem q hq
  · rw [List.mem_singleton.mp hq]; exact hp

theorem OrderState.Sound.retry {s : OrderState α} {p : PendingVarSource α}
    (hnames : (c.map VarSourceConfig.name).Nodup) (h : s.Sound isLetter marshal c)
    (hp : p.vs ∈ c ∧ p.vs.dependencies isLetter marshal = .ok p.deps) :
    (s.retry p).Sound isLetter marshal c := by
  unfold OrderState.retry
  split
  · exact h.defer hp
  · rename_i hmiss
    exact h.add hnames hp.1 hp.2 (Bool.of_not_eq_true hmiss)

theorem OrderState.Sound.foldl_retry (hnames : (c.map VarSourceConfig.name).Nodup) :
    ∀ (ps : List (PendingVarSource α)) {s : OrderState α}, s.Sound isLetter marshal c →
      (∀ p ∈ ps, p.vs ∈ c ∧ p.vs.dependencies isLetter marshal = .ok p.deps) →
      (ps.foldl OrderState.retry s).Sound isLetter marshal c
  | [], _, h, _ => h
  | p :: ps, _, h, hps =>
    OrderState.Sound.foldl_retry hnames ps (h.retry hnames (hps p List.mem_cons_self))
      fun q hq => hps q (List.mem_cons_of_mem _ hq)

theorem OrderState.Sound.sweep {s : OrderState α} (hnames : (c.map VarSourceConfig.name).Nodup)
    (h : s.Sound isLetter marshal c) : s.sweep.Sound isLetter marshal c :=
  OrderState.Sound.foldl_retry hnames s.pending
    ⟨h.added_iff, h.ordered_mem, by simp, h.depsBefore⟩ h.pending_mem

theorem OrderState.Sound.orderNext {s s' : OrderState α} {vs : VarSourceConfig α}
    (hnames : (c.map VarSourceConfig.name).Nodup) (h : s.Sound isLetter marshal c) (hvs : vs ∈ c)
    (hnext : s.orderNext isLetter marshal vs = .ok s') : s'.Sound isLetter marshal c := by
  obtain ⟨deps, hdeps, ⟨-, rfl⟩ | ⟨hready, rfl⟩⟩ := OrderState.orderNext_eq_ok hnext
  · exact h.defer (p := ⟨vs, deps⟩) ⟨hvs, hdeps⟩
  · exact (h.add hnames hvs hdeps hready).sweep hnames

/-- The loop over var sources of `c` keeps it sound. -/
theorem OrderState.Sound.foldlM (hnames : (c.map VarSourceConfig.name).Nodup)
    (l : List (VarSourceConfig α)) {s s' : OrderState α} (hl : ∀ v ∈ l, v ∈ c)
    (h : s.Sound isLetter marshal c)
    (hrun : l.foldlM (OrderState.orderNext isLetter marshal) s = .ok s') :
    s'.Sound isLetter marshal c :=
  ExceptFold.foldlM_ok_of_step (OrderState.Sound isLetter marshal c) l
    (fun vs hvs _ _ ht hnext => ht.orderNext hnames (hl vs hvs) hnext) h hrun

/-- What `OrderByDependency` returns for var sources of distinct names is a permutation of them
that lists every var source after those it depends on. -/
theorem orderByDependency_sound {l : List (VarSourceConfig α)}
    (hnames : (c.map VarSourceConfig.name).Nodup)
    (h : VarSourceConfigs.orderByDependency isLetter marshal c = .ok l) :
    l.Perm c ∧ DepsBefore (DependsOn isLetter marshal c) l := by
  simp only [VarSourceConfigs.orderByDependency, bind, Except.bind] at h
  split at h
  · cases h
  · rename_i s hrun
    -- nothing is pending, so the ordered var sources are all of them
    have hpending : s.pending = [] := by
      by_contra hne
      simp [List.length_pos_iff.mpr hne, throw, throwThe, MonadExceptOf.throw] at h
    simp only [hpending, List.length_nil, gt_iff_lt, Nat.lt_irrefl, if_false, pure,
      Except.pure, Except.ok.injEq] at h
    subst h
    have hall := OrderState.all_foldlM c _ s hrun
    have hsound := OrderState.Sound.foldlM hnames c (fun v hv => hv) OrderState.sound_init hrun
    refine ⟨?_, hsound.depsBefore⟩
    simpa [OrderState.all, hpending] using hall

/-- `OrderByDependency` returns an order only for a dependency graph without cycles. -/
theorem acyclic_of_orderByDependency {l : List (VarSourceConfig α)}
    (hnames : (c.map VarSourceConfig.name).Nodup)
    (h : VarSourceConfigs.orderByDependency isLetter marshal c = .ok l) :
    Acyclic (DependsOn isLetter marshal c) := by
  obtain ⟨hperm, hdeps⟩ := orderByDependency_sound hnames h
  exact hdeps.acyclic (hperm.nodup_iff.mpr (List.Nodup.of_map _ hnames))
    fun _ b hab => hperm.mem_iff.mpr hab.1

end Sound

/-! ## Inputs already in order -/

section InOrder

variable {α : Type} {isLetter : Char → Bool} {marshal : α → Except String String}
  {c : List (VarSourceConfig α)}

/-- On an input that lists dependencies first, the loop orders every var source as it reads it
and leaves nothing pending. -/
theorem OrderState.foldlM_of_depsBefore
    (hdeps : ∀ v ∈ c, ∃ deps, v.dependencies isLetter marshal = .ok deps ∧
      ∀ d ∈ deps, ∃ y ∈ c, y.name = d)
    (hsorted : DepsBefore (DependsOn isLetter marshal c) c) :
    ∀ (done rest : List (VarSourceConfig α)) (s : OrderState α), c = done ++ rest →
      s.ordered = done → s.pending = [] →
      (∀ n, n ∈ s.added ↔ n ∈ done.map VarSourceConfig.name) →
      ∃ s', rest.foldlM (OrderState.orderNext isLetter marshal) s = .ok s' ∧
        s'.ordered = c ∧ s'.pending = []
  | done, [], s, hc, hord, hpend, _ => ⟨s, rfl, by simpa [hord] using hc.symm, hpend⟩
  | done, vs :: rest, s, hc, hord, hpend, hadded => by
    obtain ⟨deps, hvs, hnamed⟩ := hdeps vs (by simp [hc])
    -- every dependency names a var source listed before `vs`, so none misses
    have hready : missesDependency s.added deps = false := by
      refine missesDependency_eq_false_iff.mpr fun d hd => ?_
      obtain ⟨y, hy, rfl⟩ := hnamed d hd
      have hbefore : y ∈ done := hsorted done vs rest hc y ⟨hy, deps, hvs, hd⟩
      exact (hadded _).mpr (List.mem_map_of_mem hbefore)
    have hnext : s.orderNext isLetter marshal vs = .ok (s.add vs) := by
      rw [OrderState.orderNext_of_dependencies hvs, hready, if_neg Bool.false_ne_true,
        OrderState.sweep_of_pending_nil (by simpa using hpend)]
    simp only [List.foldlM_cons, hnext, bind, Except.bind]
    exact OrderState.foldlM_of_depsBefore hdeps hsorted (done ++ [vs]) rest (s.add vs)
      (by simp [hc]) (by simp [hord]) (by simpa using hpend) (by simp [hadded, or_comm])

/-- An input whose dependencies all name var sources of it, listed before their dependents, is
returned as it is. -/
theorem orderByDependency_of_depsBefore
    (hdeps : ∀ v ∈ c, ∃ deps, v.dependencies isLetter marshal = .ok deps ∧
      ∀ d ∈ deps, ∃ y ∈ c, y.name = d)
    (hsorted : DepsBefore (DependsOn isLetter marshal c) c) :
    VarSourceConfigs.orderByDependency isLetter marshal c = .ok c := by
  obtain ⟨s', hrun, hord, hpend⟩ :=
    OrderState.foldlM_of_depsBefore hdeps hsorted [] c ⟨[], [], []⟩ rfl rfl rfl (by simp)
  simp [VarSourceConfigs.orderByDependency, hrun, bind, Except.bind, hord, hpend, pure,
    Except.pure]

end InOrder

/-! ## A chain declared against its order -/

section Chain

variable {α : Type} {isLetter : Char → Bool} {marshal : α → Except String String}

theorem mem_of_dependsOn {c : List (VarSourceConfig α)} {x y : VarSourceConfig α}
    {deps : List String} (hx : x.dependencies isLetter marshal = .ok deps)
    (h : DependsOn isLetter marshal c x y) : y ∈ c ∧ y.name ∈ deps := by
  obtain ⟨hy, deps', hdeps', hname⟩ := h
  rw [hx] at hdeps'
  cases hdeps'
  exact ⟨hy, hname⟩

/-- Var sources `a`, `b`, `c` where `a` reads from `b` and `b` from `c`, declared in that order:
the graph has no cycle, yet `OrderByDependency` refuses it.  `a` and `b` wait on the pending
list; after `c` is added the one sweep looks at `a` before `b` is added, and adds only `b`. -/
theorem orderByDependency_reverse_chain {a b c : VarSourceConfig α}
    (hab : a.name ≠ b.name) (hac : a.name ≠ c.name) (hbc : b.name ≠ c.name)
    (ha : a.dependencies isLetter marshal = .ok [b.name])
    (hb : b.dependencies isLetter marshal = .ok [c.name])
    (hc : c.dependencies isLetter marshal = .ok []) :
    Acyclic (DependsOn isLetter marshal [a, b, c]) ∧
      VarSourceConfigs.orderByDependency isLetter marshal [a, b, c] =
        .error ("could not resolve inter-dependent var sources: " ++ a.name) := by
  constructor
  · -- `[c, b, a]` lists every var source after what it depends on
    have hc' : ∀ y, DependsOn isLetter marshal [a, b, c] c y → y ∈ ([] : List _) := by
      intro y hy
      simpa using (mem_of_dependsOn hc hy).2
    have hb' : ∀ y, DependsOn isLetter marshal [a, b, c] b y → y ∈ [c] := by
      intro y hy
      obtain ⟨hmem, hname⟩ := mem_of_dependsOn hb hy
      simp only [List.mem_cons, List.not_mem_nil, or_false] at hmem hname ⊢
      rcases hmem with rfl | rfl | rfl
      · exact absurd hname hac
      · exact absurd hname hbc
      · rfl
    have ha' : ∀ y, DependsOn isLetter marshal [a, b, c] a y → y ∈ [c] ++ [b] := by
      intro y hy
      obtain ⟨hmem, hname⟩ := mem_of_dependsOn ha hy
      simp only [List.mem_cons, List.not_mem_nil, or_false, List.singleton_append] at hmem hname ⊢
      rcases hmem with rfl | rfl | rfl
      · exact absurd hname hab
      · exact .inr rfl
      · exact absurd hname.symm hbc
    have hsorted : DepsBefore (DependsOn isLetter marshal [a, b, c]) ([c] ++ [b] ++ [a]) :=
      ((depsBefore_nil.snoc hc').snoc hb').snoc ha'
    have hnodup : ([c] ++ [b] ++ [a]).Nodup := by
      simp only [List.cons_append, List.nodup_cons, List.mem_cons, List.not_mem_nil, or_false,
        List.nil_append, List.nodup_nil, not_false_eq_true, and_true]
      refine ⟨?_, fun h => hab (congrArg VarSourceConfig.name h).symm⟩
      rintro (h | h)
      · exact hbc (congrArg VarSourceConfig.name h).symm
      · exact hac (congrArg VarSourceConfig.name h).symm
    refine hsorted.acyclic hnodup fun x y hxy => ?_
    have hy := hxy.1
    simp only [List.mem_cons, List.not_mem_nil, or_false] at hy
    rcases hy with rfl | rfl | rfl <;> simp
  · -- `a` and `b` wait; `c` is added, and the sweep adds `b` only
    have h₁ : (⟨[], [], []⟩ : OrderState α).orderNext isLetter marshal a =
        .ok ⟨[], [⟨a, [b.name]⟩], []⟩ := by
      rw [OrderState.orderNext_of_dependencies ha]
      simp [missesDependency]
    have h₂ : (⟨[], [⟨a, [b.name]⟩], []⟩ : OrderState α).orderNext isLetter marshal b =
        .ok ⟨[], [⟨a, [b.name]⟩, ⟨b, [c.name]⟩], []⟩ := by
      rw [OrderState.orderNext_of_dependencies hb]
      simp [missesDependency]
    have h₃ : (⟨[], [⟨a, [b.name]⟩, ⟨b, [c.name]⟩], []⟩ : OrderState α).orderNext isLetter
        marshal c = .ok ⟨[c, b], [⟨a, [b.name]⟩], [b.name, c.name]⟩ := by
      rw [OrderState.orderNext_of_dependencies hc]
      simp [OrderState.sweep, OrderState.retry, OrderState.add, missesDependency, hbc]
    simp [VarSourceConfigs.orderByDependency, h₁, h₂, h₃, bind, Except.bind, pure, Except.pure,
      throw, throwThe, MonadExceptOf.throw]

end Chain

/-- The reverse chain of three var sources whose configs are the YAML texts `((b:k))`, `((c:k))`
and `v`. -/
theorem orderByDependency_reverse_chain_yaml :
    Acyclic (DependsOn (fun _ => false) Except.ok
        [⟨"a", "((b:k))"⟩, ⟨"b", "((c:k))"⟩, ⟨"c", "v"⟩]) ∧
      VarSourceConfigs.orderByDependency (fun _ => false) Except.ok
          [⟨"a", "((b:k))"⟩, ⟨"b", "((c:k))"⟩, ⟨"c", "v"⟩] =
        .error "could not resolve inter-dependent var sources: a" :=
  orderByDependency_reverse_chain (by decide) (by decide) (by decide) (by decide +kernel)
    (by decide +kernel) (by decide +kernel)

end Atc
end Concourse
