import Mathlib.Data.List.Nodup
import Concourse.Engine.AcrossSubsteps

/-!
# IDs and links of the substeps

What `ConstructAcrossSubsteps` makes of a template whose IDs are distinct: the `i`-th substep is
the template renamed plan by plan (`Substep`).  The `k`-th plan `Each` visits in it is named
`<acrossID>/<i>/<k>` and keeps its kind, and its link goes through a renaming that sends the ID
of the template's `j`-th plan to `<acrossID>/<i>/<j>`, so that a link to the template's `j`-th
plan becomes a link to the substep's `j`-th plan (`Substep.remapped`).

The substeps' IDs are then distinct from one another (`substeps_ids`), and from every ID the
planner makes, which is named after the plan factory's counter (`PlanID.root`); so are the
strings, as rendering is injective.  `create_planIdsSound` puts this together with
`visit_numbered`.
-/

namespace Concourse
namespace Engine

open Atc Builds GoJson Renumber

variable {interpolate : List (String × Value) → Plan → Except TemplateError Plan}

/-! ## One substep -/

/-- A substep is its interpolated template walked twice. -/
theorem constructSubstep_eq_ok {planID : PlanID} {template : Plan} {acrossVars : List String}
    {i : Nat} {values : List Value} {step : Plan}
    (h : constructSubstep interpolate planID template acrossVars i values = .ok step) :
    ∃ localVars subPlan renamed, interpolate localVars template = .ok subPlan ∧
      subPlan.each (renameSubplan planID i) ([], 0) = renamed ∧
      step = (renamed.1.each (fun _ p => (remapVersionFrom renamed.2.1 p, ())) ()).1 := by
  unfold constructSubstep at h
  cases hl : localVarsOf acrossVars values with
  | error e => simp [hl, bind, Except.bind] at h
  | ok localVars =>
    cases hi : interpolate localVars template with
    | error e =>
      cases e <;> simp [hl, hi, bind, Except.bind, throw, throwThe, MonadExceptOf.throw] at h
    | ok subPlan =>
      simp only [hl, hi, bind, Except.bind, pure, Except.pure, Except.ok.injEq] at h
      exact ⟨localVars, subPlan, _, hi, rfl, h.symm⟩

/-- The two walks, plan by plan: the `k`-th plan is renamed `<planID>/<i>/<k>`, and its link
goes through the table of the first walk. -/
theorem renumbered_getElem? (planID : PlanID) (i : Nat) (subPlan : Plan)
    (renamed : Plan × List (PlanID × PlanID) × Nat)
    (hrenamed : subPlan.each (renameSubplan planID i) ([], 0) = renamed) (k : Nat) :
    ((renamed.1.each (fun _ p => (remapVersionFrom renamed.2.1 p, ())) ()).1.nodes.map
        Plan.label)[k]? =
      subPlan.nodes[k]?.map fun q => (PlanID.substep planID i k,
        q.versionFrom.map fun v => (renamed.2.1.lookup v).getD v, q.isPutOrCheck) := by
  have hrename := (Plan.each_nodes (children_renameSubplan planID i) subPlan ([], 0)).1
  have hremapKids : ∀ (s : Unit) (q : Plan),
      ((fun (_ : Unit) p => (remapVersionFrom renamed.2.1 p, ())) s q).1.children.length =
        q.children.length :=
    fun _ q => congrArg List.length (children_remapVersionFrom renamed.2.1 q)
  have hremap := (Plan.each_nodes hremapKids renamed.1 ()).1
  rw [walk_const_state] at hremap
  rw [hrenamed, renameSubplan_eq_numberStep, walk_numberStep_fst] at hrename
  -- the second walk changes the label of a plan through its label only
  have hcomp : Plan.label ∘ remapVersionFrom renamed.2.1 =
      (fun l : PlanID × Option PlanID × Bool =>
        (l.1, l.2.1.map fun v => (renamed.2.1.lookup v).getD v, l.2.2)) ∘ Plan.label :=
    funext fun p => label_remapVersionFrom _ p
  rw [hremap]
  dsimp only
  rw [List.map_map, hcomp, ← List.map_map, hrename]
  simp [List.getElem?_mapIdx, Function.comp_def]

/-- The `i`-th substep of the `across` plan `planID` is its template renamed plan by plan: the
`k`-th plan `Each` visits is named `<planID>/<i>/<k>` and keeps its kind, and its link goes
through `rename`, which sends the ID of the template's `j`-th plan to `<planID>/<i>/<j>`. -/
structure Substep (planID : PlanID) (i : Nat) (rename : PlanID → PlanID) (template step : Plan) :
    Prop where
  rename_id : ∀ (j : Nat) (t : Plan), template.nodes[j]? = some t → rename t.id = .substep planID i j
  label : ∀ k : Nat, step.nodes[k]?.map Plan.label = template.nodes[k]?.map fun q =>
    (.substep planID i k, q.versionFrom.map rename, q.isPutOrCheck)

/-- The substep's renaming is the table of the first walk, which names each old ID after its
position as the template's IDs are distinct. -/
theorem constructSubstep_substep {planID : PlanID} {template : Plan} {acrossVars : List String}
    {i : Nat} {values : List Value} {step : Plan} (hlaw : TemplateLaw interpolate)
    (hunique : template.IdsUnique)
    (h : constructSubstep interpolate planID template acrossVars i values = .ok step) :
    ∃ rename, Substep planID i rename template step := by
  obtain ⟨localVars, subPlan, renamed, hinterp, hrenamed, rfl⟩ := constructSubstep_eq_ok h
  have hlabels := hlaw.labels _ _ _ hinterp
  have hlabel : ∀ k : Nat, subPlan.nodes[k]?.map Plan.label = template.nodes[k]?.map Plan.label :=
    fun k => by
      simpa only [List.getElem?_map] using
        congrArg (fun l : List (PlanID × Option PlanID × Bool) => l[k]?) hlabels
  have hnodup : (subPlan.nodes.map Plan.id).Nodup := by
    have hids := congrArg (List.map Prod.fst) hlabels
    simp only [List.map_map, Function.comp_def, Plan.label] at hids
    rw [hids]
    exact hunique
  have htable : renamed.2.1 = (walk (numberStep (PlanID.substep planID i) Plan.id
      fun id p => p.withId id) subPlan.nodes ([], 0)).2.1 := by
    rw [← hrenamed, ← renameSubplan_eq_numberStep]
    exact congrArg Prod.fst (Plan.each_nodes (children_renameSubplan planID i) subPlan ([], 0)).2
  refine ⟨fun v => (renamed.2.1.lookup v).getD v, ⟨?_, fun k => ?_⟩⟩
  · -- the template's `j`-th plan has the ID of the interpolated plan's `j`-th
    intro j t ht
    obtain ⟨s, hs, hst⟩ := Option.map_eq_some_iff.mp ((hlabel j).trans (by rw [ht]; rfl))
    obtain ⟨hj, rfl⟩ := List.getElem?_eq_some_iff.mp hs
    have hid : subPlan.nodes[j].id = t.id := congrArg Prod.fst hst
    rw [htable, ← hid, lookup_walk_numberStep _ _ _ _ _ _ hnodup hj, Nat.zero_add]
    rfl
  · rw [← List.getElem?_map, renumbered_getElem? planID i subPlan renamed hrenamed k]
    have hfactor : (fun q : Plan => (PlanID.substep planID i k,
        q.versionFrom.map fun v => (renamed.2.1.lookup v).getD v, q.isPutOrCheck)) =
        (fun l : PlanID × Option PlanID × Bool => (PlanID.substep planID i k,
          l.2.1.map fun v => (renamed.2.1.lookup v).getD v, l.2.2)) ∘ Plan.label := rfl
    rw [hfactor, ← Option.map_map, hlabel k, Option.map_map]

namespace Substep

variable {planID : PlanID} {i : Nat} {rename : PlanID → PlanID} {template step : Plan}

theorem getElem?_of_template (h : Substep planID i rename template step) {k : Nat} {q : Plan}
    (hq : template.nodes[k]? = some q) :
    ∃ q', step.nodes[k]? = some q' ∧ q'.id = .substep planID i k ∧
      q'.versionFrom = q.versionFrom.map rename ∧ q'.isPutOrCheck = q.isPutOrCheck := by
  obtain ⟨q', hq', hlabel⟩ := Option.map_eq_some_iff.mp ((h.label k).trans (by rw [hq]; rfl))
  simp only [Plan.label, Prod.mk.injEq] at hlabel
  exact ⟨q', hq', hlabel⟩

theorem getElem?_of_step (h : Substep planID i rename template step) {k : Nat} {q' : Plan}
    (hq' : step.nodes[k]? = some q') :
    ∃ q, template.nodes[k]? = some q ∧ q'.id = .substep planID i k ∧
      q'.versionFrom = q.versionFrom.map rename ∧ q'.isPutOrCheck = q.isPutOrCheck := by
  obtain ⟨q, hq, hlabel⟩ :=
    Option.map_eq_some_iff.mp ((h.label k).symm.trans (by rw [hq']; rfl))
  simp only [Plan.label, Prod.mk.injEq] at hlabel
  exact ⟨q, hq, hlabel.1.symm, hlabel.2.1.symm, hlabel.2.2.symm⟩

/-- The substep's IDs, in the order `Each` visits its plans. -/
theorem ids (h : Substep planID i rename template step) :
    step.nodes.map Plan.id = (List.range template.nodes.length).map (PlanID.substep planID i) := by
  apply List.ext_getElem?
  intro k
  rw [List.getElem?_map, List.getElem?_map]
  cases hq' : step.nodes[k]? with
  | none =>
    -- then the template has no `k`-th plan either
    have hq : template.nodes[k]? = none := by simpa [hq'] using (h.label k).symm
    rw [List.getElem?_eq_none (by simpa using List.getElem?_eq_none_iff.mp hq)]
    rfl
  | some q' =>
    obtain ⟨q, hq, hid, -, -⟩ := h.getElem?_of_step hq'
    obtain ⟨hk, -⟩ := List.getElem?_eq_some_iff.mp hq
    rw [List.getElem?_range hk, Option.map_some, hid]
    rfl

/-- A link to the template's `n`-th plan is, in the substep, a link to its `n`-th plan, which is
named `<planID>/<i>/<n>`. -/
theorem remapped (h : Substep planID i rename template step) {m n : Nat} {t u : Plan}
    (ht : template.nodes[m]? = some t) (hu : template.nodes[n]? = some u)
    (hlink : t.versionFrom = some u.id) :
    ∃ t' u', step.nodes[m]? = some t' ∧ step.nodes[n]? = some u' ∧
      t'.versionFrom = some u'.id ∧ u'.id = .substep planID i n := by
  obtain ⟨t', ht', -, hfrom, -⟩ := h.getElem?_of_template ht
  obtain ⟨u', hu', hid, -, -⟩ := h.getElem?_of_template hu
  refine ⟨t', u', ht', hu', ?_, hid⟩
  rw [hfrom, hlink, hid, Option.map_some, h.rename_id n u hu]

/-- The links of a substep resolve within it when those of its template do. -/
theorem linksResolve (h : Substep planID i rename template step) (hres : template.LinksResolve) :
    step.LinksResolve := by
  intro t' ht' w hw
  obtain ⟨m, hm⟩ := List.mem_iff_getElem?.mp ht'
  obtain ⟨t, ht, -, hfrom, -⟩ := h.getElem?_of_step hm
  -- `t'` links where its plan `t` of the template links, renamed
  cases hv : t.versionFrom with
  | none => simp [hfrom, hv] at hw
  | some v =>
    obtain ⟨u, hu, rfl, hkind⟩ := hres t (List.mem_of_getElem? ht) v hv
    obtain ⟨n, hn⟩ := List.mem_iff_getElem?.mp hu
    obtain ⟨u', hu', hid, -, hkind'⟩ := h.getElem?_of_template hn
    rw [hfrom, hv, Option.map_some, h.rename_id n u hn, Option.some.injEq] at hw
    exact ⟨u', List.mem_of_getElem? hu', hid.trans hw, hkind'.trans hkind⟩

end Substep

/-! ## The loop over the value combinations -/

/-- Every substep the loop makes from the index `i` is its template renamed. -/
theorem constructSubsteps_substep {planID : PlanID} {template : Plan} {acrossVars : List String}
    (hlaw : TemplateLaw interpolate) (hunique : template.IdsUnique) :
    ∀ (i : Nat) (valueCombinations : List (List Value)) (substeps : List (Plan × List Value)),
      constructSubsteps interpolate planID template acrossVars i valueCombinations =
        .ok substeps →
        ∀ k s, substeps[k]? = some s → ∃ rename, Substep planID (i + k) rename template s.1
  | i, [], substeps, h => by
    simp only [constructSubsteps, Except.ok.injEq] at h
    subst h
    simp
  | i, values :: valueCombinations, substeps, h => by
    simp only [constructSubsteps, bind, Except.bind] at h
    cases hstep : constructSubstep interpolate planID template acrossVars i values with
    | error e => simp [hstep] at h
    | ok step =>
      cases hrest : constructSubsteps interpolate planID template acrossVars (i + 1)
          valueCombinations with
      | error e => simp [hstep, hrest] at h
      | ok steps =>
        simp only [hstep, hrest, pure, Except.pure, Except.ok.injEq] at h
        subst h
        intro k s hs
        cases k with
        | zero =>
          cases hs
          exact constructSubstep_substep hlaw hunique hstep
        | succ k =>
          rw [show i + (k + 1) = i + 1 + k by omega]
          exact constructSubsteps_substep hlaw hunique (i + 1) valueCombinations steps hrest k s
            (by simpa using hs)

theorem constructAcrossSubsteps_eq_ok
    {saveEvent : List (Plan × List Value) → Except String Unit} {planID : PlanID}
    {template : Plan} {acrossVars : List String} {valueCombinations : List (List Value)}
    {substeps : List (Plan × List Value)}
    (h : constructAcrossSubsteps interpolate saveEvent planID template acrossVars
      valueCombinations = .ok substeps) :
    constructSubsteps interpolate planID template acrossVars 0 valueCombinations =
      .ok substeps := by
  unfold constructAcrossSubsteps at h
  cases hsteps : constructSubsteps interpolate planID template acrossVars 0 valueCombinations with
  | error e => simp [hsteps, bind, Except.bind] at h
  | ok steps =>
    cases hsave : saveEvent steps with
    | error e => simp [hsteps, hsave, bind, Except.bind, throw, throwThe, MonadExceptOf.throw] at h
    | ok u => simpa [hsteps, hsave, bind, Except.bind, pure, Except.pure] using h

/-- The IDs of substeps from the index `i` on are distinct, and each has an index past `i`. -/
theorem substeps_ids {planID : PlanID} {n : Nat} :
    ∀ {i : Nat} {steps : List Plan}, (∀ k step, steps[k]? = some step →
      step.nodes.map Plan.id = (List.range n).map (PlanID.substep planID (i + k))) →
      ((steps.flatMap Plan.nodes).map Plan.id).Nodup ∧
        ∀ q ∈ steps.flatMap Plan.nodes, ∃ k c, i ≤ k ∧ q.id = .substep planID k c
  | i, [], _ => by simp
  | i, step :: steps, h => by
    have hids : step.nodes.map Plan.id = (List.range n).map (PlanID.substep planID i) :=
      h 0 step rfl
    obtain ⟨hnodup, hlater⟩ := @substeps_ids planID n (i + 1) steps fun k s hs => by
      rw [h (k + 1) s hs, show i + (k + 1) = i + 1 + k by omega]
    have hinj : Function.Injective (PlanID.substep planID i) := fun _ _ hc =>
      (PlanID.substep.inj hc).2.2
    -- the first substep's IDs have the index `i`, the others' a larger one
    have hfirst : ∀ q ∈ step.nodes, ∃ c, q.id = .substep planID i c := by
      intro q hq
      have hmem : q.id ∈ step.nodes.map Plan.id := List.mem_map_of_mem hq
      rw [hids] at hmem
      obtain ⟨c, -, hc⟩ := List.mem_map.mp hmem
      exact ⟨c, hc.symm⟩
    rw [List.flatMap_cons, List.map_append, List.nodup_append]
    refine ⟨⟨by rw [hids]; exact List.nodup_range.map hinj, hnodup, ?_⟩, ?_⟩
    · rintro _ ha _ hb rfl
      obtain ⟨q, hq, rfl⟩ := List.mem_map.mp ha
      obtain ⟨q', hq', hid⟩ := List.mem_map.mp hb
      obtain ⟨c, hc⟩ := hfirst q hq
      obtain ⟨k, c', hk, hc'⟩ := hlater q' hq'
      rw [hc, hc'] at hid
      have := (PlanID.substep.inj hid).2.1
      omega
    · intro q hq
      rcases List.mem_append.mp hq with hq | hq
      · obtain ⟨c, hc⟩ := hfirst q hq
        exact ⟨i, c, Nat.le_refl i, hc⟩
      · obtain ⟨k, c, hk, hc⟩ := hlater q hq
        exact ⟨k, c, by omega, hc⟩

/-! ## The plans of a build and their substeps -/

/-- Distinct IDs render to distinct strings. -/
theorem nodup_render {plans : List Plan} (h : (plans.map Plan.id).Nodup) :
    (plans.map fun q => q.id.render).Nodup := by
  have hrender : ((plans.map Plan.id).map PlanID.render).Nodup :=
    h.map fun _ _ hr => PlanID.render_injective hr
  simpa only [List.map_map, Function.comp_def] using hrender

/-- IDs named after the plan factory's counter and substep IDs are different. -/
theorem nodup_append_substeps (planID : PlanID) {plans steps : List Plan}
    (hplans : (plans.map Plan.id).Nodup) (hroot : ∀ q ∈ plans, q.id.root ≠ none)
    (hsteps : (steps.map Plan.id).Nodup)
    (hsubstep : ∀ q ∈ steps, ∃ k c, q.id = .substep planID k c) :
    ((plans ++ steps).map Plan.id).Nodup := by
  rw [List.map_append, List.nodup_append]
  refine ⟨hplans, hsteps, ?_⟩
  rintro _ ha _ hb rfl
  obtain ⟨p, hp, rfl⟩ := List.mem_map.mp ha
  obtain ⟨p', hp', hid⟩ := List.mem_map.mp hb
  obtain ⟨k, c, hc⟩ := hsubstep p' hp'
  exact hroot p hp (by rw [← hid, hc]; rfl)

/-- The substeps of the `across` plan `across` of template `template`, in the build of plan
`plan`: the IDs of the build's plans and of the substeps' plans are distinct strings, the links
of each substep resolve within it, and a link to the template's `n`-th plan becomes, in the
`k`-th substep, a link to its `n`-th plan, named `<acrossID>/<k>/<n>`. -/
structure SubstepsSound (plan across template : Plan) (substeps : List (Plan × List Value)) :
    Prop where
  idsDistinct : ((plan.nodes ++ (substeps.map Prod.fst).flatMap Plan.nodes).map
    fun q => q.id.render).Nodup
  linksResolve : ∀ s ∈ substeps, s.1.LinksResolve
  remapped : ∀ (k : Nat) (s : Plan × List Value), substeps[k]? = some s →
    ∀ (m : Nat) (t : Plan) (n : Nat) (u : Plan), template.nodes[m]? = some t →
    template.nodes[n]? = some u → t.versionFrom = some u.id →
      ∃ t' u', s.1.nodes[m]? = some t' ∧ s.1.nodes[n]? = some u' ∧
        t'.versionFrom = some u'.id ∧ u'.id = .substep across.id k n

/-- A build plan whose plans have distinct IDs as strings and whose links resolve within it,
and whose `across` plans make sound substeps from any value combinations. -/
structure PlanIdsSound (interpolate : List (String × Value) → Plan → Except TemplateError Plan)
    (saveEvent : List (Plan × List Value) → Except String Unit) (plan : Plan) : Prop where
  idsDistinct : (plan.nodes.map fun q => q.id.render).Nodup
  linksResolve : plan.LinksResolve
  substeps : ∀ q ∈ plan.nodes, ∀ template, q.template? = some template →
    ∀ acrossVars valueCombinations substeps,
      constructAcrossSubsteps interpolate saveEvent q.id template acrossVars valueCombinations =
        .ok substeps → SubstepsSound plan q template substeps

/-- The planner's plans, with the substeps of their `across` plans, are sound, whatever the
resources, the resource types and the plan factory's counter. -/
theorem create_planIdsSound (ctx : PlannerContext) (planConfig : StepConfig) (tags : List String)
    (num num' : Int) (plan : Plan) (h : create ctx planConfig tags num = (.ok plan, num'))
    (hlaw : TemplateLaw interpolate) (saveEvent : List (Plan × List Value) → Except String Unit) :
    PlanIdsSound interpolate saveEvent plan := by
  have hnum := visit_numbered ctx tags planConfig num num' plan h
  have hnodes : [plan].flatMap Plan.nodes = plan.nodes := List.flatMap_singleton _ _
  obtain ⟨hunique, hresolve⟩ := hnum.sound
  -- the planner's IDs are named after the counter, the substeps' are not
  have hroot : ∀ q ∈ plan.nodes, q.id.root ≠ none := by
    intro q hq
    obtain ⟨n, -, -, hext⟩ := hnum.root q (hnodes ▸ hq)
    rw [hext.root_eq]
    simp [PlanID.root]
  refine ⟨nodup_render hunique, hresolve, ?_⟩
  intro q hq template htemplate acrossVars valueCombinations substeps hsubsteps
  obtain ⟨htunique, htresolve⟩ := hnum.templates q (hnodes ▸ hq) template htemplate
  have hloop := constructSubsteps_substep hlaw htunique 0 valueCombinations substeps
    (constructAcrossSubsteps_eq_ok hsubsteps)
  obtain ⟨hnodup, hsubIds⟩ := @substeps_ids q.id template.nodes.length 0
    (substeps.map Prod.fst) fun k step hk => by
      obtain ⟨s, hs, rfl⟩ := Option.map_eq_some_iff.mp (List.getElem?_map ▸ hk)
      obtain ⟨rename, hsub⟩ := hloop k s hs
      exact hsub.ids
  refine ⟨nodup_render ?_, fun s hs => ?_, fun k s hs m t n u ht hu hlink => ?_⟩
  · refine nodup_append_substeps q.id hunique hroot hnodup fun p hp => ?_
    obtain ⟨k, c, -, hc⟩ := hsubIds p hp
    exact ⟨k, c, hc⟩
  · obtain ⟨k, hk⟩ := List.mem_iff_getElem?.mp hs
    obtain ⟨rename, hsub⟩ := hloop k s hk
    exact hsub.linksResolve htresolve
  · obtain ⟨rename, hsub⟩ := hloop k s hs
    simpa using hsub.remapped ht hu hlink

theorem create_planIdsSound_acrossPut :
    create ⟨[⟨"r", "git"⟩], [], [], [], false, 0⟩ (.across ["x"] (.put "r" "" [] false) false) []
        0 =
      (.ok (.across (.num 4) ["x"] (.onSuccess (.num 3)
        (.put (.num 1) ⟨"r", "git", "r", []⟩ (.mk "git" false none none))
        (.get (.num 2) ⟨"r", "git", "r", none, []⟩ (.mk "git" false none none)
          (some (.num 1)))) false), 4) ∧
    TemplateLaw (fun _ template => .ok template) ∧
    PlanIdsSound (fun _ template => .ok template) (fun _ => .ok ())
      (.across (.num 4) ["x"] (.onSuccess (.num 3)
        (.put (.num 1) ⟨"r", "git", "r", []⟩ (.mk "git" false none none))
        (.get (.num 2) ⟨"r", "git", "r", none, []⟩ (.mk "git" false none none)
          (some (.num 1)))) false) := by
  refine ⟨?hcreate, ?hlaw, create_planIdsSound _ _ _ _ _ _ ?hcreate ?hlaw _⟩
  case hcreate =>
    simp [create, visit, andThen, resourceName, effectiveTags, imageForType, ResourceTypes.lookup]
  case hlaw =>
    exact ⟨fun _ _ _ h => by cases h; rfl⟩

end Engine
end Concourse
