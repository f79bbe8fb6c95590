import Concourse.Builds.Planner

/-!
# The planner's plan IDs

What `Planner.Create` makes while the plan factory's counter goes from `lo` to `hi`
(`Numbered`): every plan `Each` visits is named after a number in `(lo, hi]`, with image
suffixes for image plans; the names are distinct; every `VersionFrom` names a put or a check
plan among the plans of the build; and the template of every `across` plan is a plan whose IDs
are distinct and whose links resolve within it.

One lemma per way the visitor makes plans (`Numbered.parent` for a plan around the plans of
its steps, `Numbered.imagePlan` for a get or put plan and its image, `Numbered.append` for
plans made one after the other), and `visit_numbered` by induction over the step config.
-/

namespace Concourse
namespace Builds

open Atc

/-- Plans made while the plan factory's counter went from `lo` to `hi`, whose links resolve
within `within`. -/
structure Numbered (lo hi : Int) (within plans : List Plan) : Prop where
  le : lo ≤ hi
  root : ∀ q ∈ plans.flatMap Plan.nodes, ∃ n, lo < n ∧ n ≤ hi ∧ (PlanID.num n).Extends q.id
  nodup : ((plans.flatMap Plan.nodes).map Plan.id).Nodup
  resolves : Plan.Resolves within (plans.flatMap Plan.nodes)
  templates : ∀ q ∈ plans.flatMap Plan.nodes, ∀ t, q.template? = some t →
    t.IdsUnique ∧ t.LinksResolve

namespace Numbered

variable {lo mid hi : Int} {within : List Plan}

/-- Two plans named after different numbers have different IDs. -/
theorem id_ne_of_root_ne {q q' : Plan} {n n' : Int} (hq : (PlanID.num n).Extends q.id)
    (hq' : (PlanID.num n').Extends q'.id) (hne : n ≠ n') : q.id ≠ q'.id := by
  intro hid
  have hroot := hq.root_eq
  rw [hid, hq'.root_eq] at hroot
  exact hne (Option.some.inj hroot).symm

/-- `Numbered` from its fields, over the list of the plans `Each` visits. -/
theorem of_nodes {plans nodes : List Plan} (hnodes : plans.flatMap Plan.nodes = nodes)
    (hle : lo ≤ hi)
    (hroot : ∀ q ∈ nodes, ∃ n, lo < n ∧ n ≤ hi ∧ (PlanID.num n).Extends q.id)
    (hnodup : (nodes.map Plan.id).Nodup) (hresolves : Plan.Resolves within nodes)
    (htemplates : ∀ q ∈ nodes, ∀ t, q.template? = some t → t.IdsUnique ∧ t.LinksResolve) :
    Numbered lo hi within plans := by
  subst hnodes
  exact ⟨hle, hroot, hnodup, hresolves, htemplates⟩

theorem nil (h : lo ≤ hi) : Numbered lo hi within [] :=
  ⟨h, by simp, by simp, by simp [Plan.Resolves], by simp⟩

theorem mono {within' plans : List Plan} (h : Numbered lo hi within plans)
    (hsub : within ⊆ within') : Numbered lo hi within' plans :=
  ⟨h.le, h.root, h.nodup, h.resolves.mono hsub, h.templates⟩

/-- Plans made one after the other. -/
theorem append {ps qs : List Plan} (h₁ : Numbered lo mid within ps)
    (h₂ : Numbered mid hi within qs) : Numbered lo hi within (ps ++ qs) := by
  refine of_nodes (List.flatMap_append ..) (Int.le_trans h₁.le h₂.le) ?_ ?_
    (h₁.resolves.append h₂.resolves) ?_
  · intro q hq
    rcases List.mem_append.mp hq with hq | hq
    · obtain ⟨n, hlo, hhi, hext⟩ := h₁.root q hq
      exact ⟨n, hlo, by have := h₂.le; omega, hext⟩
    · obtain ⟨n, hlo, hhi, hext⟩ := h₂.root q hq
      exact ⟨n, by have := h₁.le; omega, hhi, hext⟩
  · rw [List.map_append, List.nodup_append]
    refine ⟨h₁.nodup, h₂.nodup, ?_⟩
    -- the plans made first are named after numbers up to `mid`, the others after larger ones
    rintro _ ha _ hb rfl
    obtain ⟨q, hq, rfl⟩ := List.mem_map.mp ha
    obtain ⟨q', hq', hid⟩ := List.mem_map.mp hb
    obtain ⟨n, -, hn, hext⟩ := h₁.root q hq
    obtain ⟨n', hn', -, hext'⟩ := h₂.root q' hq'
    exact id_ne_of_root_ne hext hext' (by omega) hid.symm
  · intro q hq
    rcases List.mem_append.mp hq with hq | hq
    · exact h₁.templates q hq
    · exact h₂.templates q hq

/-- Plans made one after the other, the first alone. -/
theorem cons {plan : Plan} {rest : List Plan} (h₁ : Numbered lo mid plan.nodes [plan])
    (h₂ : Numbered mid hi (rest.flatMap Plan.nodes) rest) :
    Numbered lo hi ((plan :: rest).flatMap Plan.nodes) (plan :: rest) :=
  (h₁.mono fun q hq => by rw [List.flatMap_cons]; exact List.mem_append_left _ hq).append
    (h₂.mono fun q hq => by rw [List.flatMap_cons]; exact List.mem_append_right _ hq)

/-- A plan that `NewPlan` makes after the plans of its steps, as the number `n`. -/
theorem parent {plan : Plan} {n : Int} (hkids : Numbered lo hi within plan.children)
    (hsub : within ⊆ plan.nodes) (hid : plan.id = .num n) (hlt : hi < n)
    (hfrom : plan.versionFrom = none)
    (htemplate : ∀ t, plan.template? = some t → t.IdsUnique ∧ t.LinksResolve) :
    Numbered lo n plan.nodes [plan] := by
  have hle := hkids.le
  have hnodes : [plan].flatMap Plan.nodes = plan :: plan.children.flatMap Plan.nodes := by
    rw [List.flatMap_singleton, Plan.nodes_eq]
  refine of_nodes hnodes (by omega) ?_ ?_
    ((hkids.resolves.mono hsub).cons (by simp [hfrom])) ?_
  · intro q hq
    rcases List.mem_cons.mp hq with rfl | hq
    · exact ⟨n, by omega, Int.le_refl _, hid ▸ .refl⟩
    · obtain ⟨m, hlo, hhi, hext⟩ := hkids.root q hq
      exact ⟨m, hlo, by omega, hext⟩
  · rw [List.map_cons, List.nodup_cons]
    refine ⟨fun hmem => ?_, hkids.nodup⟩
    obtain ⟨q, hq, hqid⟩ := List.mem_map.mp hmem
    obtain ⟨m, -, hm, hext⟩ := hkids.root q hq
    have hplan : (PlanID.num n).Extends plan.id := hid ▸ .refl
    exact id_ne_of_root_ne hext hplan (by omega) hqid
  · intro q hq
    rcases List.mem_cons.mp hq with rfl | hq
    · exact htemplate
    · exact hkids.templates q hq

/-- A plan with no plans under it. -/
theorem leaf {plan : Plan} {n : Int} (hkids : plan.children = []) (hid : plan.id = .num n)
    (hlt : lo < n) (hfrom : plan.versionFrom = none) (htemplate : plan.template? = none) :
    Numbered lo n plan.nodes [plan] :=
  parent (hkids ▸ (nil (Int.le_refl lo) : Numbered lo lo [] [])) (List.nil_subset _) hid hlt hfrom
    (by simp [htemplate])

/-- A get or put plan that `NewPlan` makes as the number `n`, with the image plans named
after it. -/
theorem imagePlan {plan : Plan} {n : Int} (hid : plan.id = .num n) (hlt : lo < n)
    (himage : ImageForest plan.id plan.children) (htemplate : plan.template? = none)
    (hfrom : ∀ v, plan.versionFrom = some v →
      ∃ t ∈ within, t.id = v ∧ t.isPutOrCheck = true)
    (hsub : plan.nodes ⊆ within) : Numbered lo n within [plan] := by
  have hnode : ImageForest.Node plan.id plan := ⟨rfl, htemplate, himage⟩
  refine of_nodes (List.flatMap_singleton ..) (by omega) ?_ hnode.nodup
    (Plan.Resolves.nodes hfrom (hnode.resolves_image.mono hsub)) ?_
  · intro q hq
    exact ⟨n, hlt, Int.le_refl _, hid ▸ hnode.extends_ q hq⟩
  · intro q hq t ht
    rw [hnode.noTemplate q hq] at ht
    cases ht

/-- A plan made alone is sound: its IDs are distinct and its links resolve within it. -/
theorem sound {plan : Plan} (h : Numbered lo hi plan.nodes [plan]) :
    plan.IdsUnique ∧ plan.LinksResolve := by
  have hnodes : [plan].flatMap Plan.nodes = plan.nodes := List.flatMap_singleton _ _
  have hnodup := h.nodup
  have hresolves := h.resolves
  rw [hnodes] at hnodup hresolves
  exact ⟨hnodup, hresolves⟩

end Numbered

section Visit

variable (ctx : PlannerContext)

open Numbered

/-- The put plan and the dependent get plan of a put step. -/
theorem numbered_putThenGet {num : Int} {within : List Plan} {put get : Plan}
    (hput : put.id = .num (num + 1)) (hputImage : ImageForest put.id put.children)
    (hputTemplate : put.template? = none) (hputFrom : put.versionFrom = none)
    (hputKind : put.isPutOrCheck = true)
    (hget : get.id = .num (num + 2)) (hgetImage : ImageForest get.id get.children)
    (hgetTemplate : get.template? = none) (hgetFrom : get.versionFrom = some put.id)
    (hsub : [put, get].flatMap Plan.nodes ⊆ within) :
    Numbered num (num + 2) within [put, get] := by
  have hput' : Numbered num (num + 1) within [put] :=
    imagePlan hput (by omega) hputImage hputTemplate (by simp [hputFrom])
      (fun q hq => hsub (by simp [hq]))
  -- the dependent get's link is the put, made just before it
  have hget' : Numbered (num + 1) (num + 2) within [get] :=
    imagePlan hget (by omega) hgetImage hgetTemplate
      (fun v hv => ⟨put, hsub (by simp), Option.some.inj (hgetFrom.symm.trans hv), hputKind⟩)
      (fun q hq => hsub (by simp [hq]))
  exact hput'.append hget'

/-- The attempts of a retry, each numbered by its run of the counter. -/
theorem retryAttempts_numbered (attempt : Int → Visit Plan)
    (hattempt : ∀ num plan num', attempt num = (.ok plan, num') →
      Numbered num num' plan.nodes [plan]) :
    ∀ (attempts : Nat) (num num' : Int) (plans : List Plan),
      retryAttempts attempt attempts num = (.ok plans, num') →
        Numbered num num' (plans.flatMap Plan.nodes) plans
  | 0, num, num', plans, h => by
    simp only [retryAttempts, Prod.mk.injEq, Except.ok.injEq] at h
    obtain ⟨rfl, rfl⟩ := h
    exact nil (Int.le_refl _)
  | attempts + 1, num, num', plans, h => by
    obtain ⟨plan, n, hfirst, h⟩ := andThen_eq_ok h
    obtain ⟨rest, n', hrest, h⟩ := andThen_eq_ok h
    simp only [Prod.mk.injEq, Except.ok.injEq] at h
    obtain ⟨rfl, rfl⟩ := h
    exact cons (hattempt num plan n hfirst)
      (retryAttempts_numbered attempt hattempt attempts n n' rest hrest)

mutual
/-- Every plan the visitor makes is numbered by the counter's run. -/
theorem visit_numbered (tags : List String) :
    ∀ (config : StepConfig) (num num' : Int) (plan : Plan),
      visit ctx tags config num = (.ok plan, num') → Numbered num num' plan.nodes [plan]
  | .task name stepTags, num, num', plan, h => by
    simp only [visit, Prod.mk.injEq, Except.ok.injEq] at h
    obtain ⟨rfl, rfl⟩ := h
    exact leaf rfl rfl (by omega) rfl rfl
  | .run message type stepTags, num, num', plan, h => by
    obtain ⟨rfl, rfl⟩ := visit_run_eq_ok ctx h
    exact leaf rfl rfl (by omega) rfl rfl
  | .get name resource stepTags, num, num', plan, h => by
    obtain ⟨r, version, rfl, rfl⟩ := visit_get_eq_ok ctx h
    exact imagePlan rfl (by omega) (imageForType_forest ..) rfl (by simp [Plan.versionFrom])
      (List.Subset.refl _)
  | .put name resource stepTags noGet, num, num', plan, h => by
    simp only [visit] at h
    split at h
    · cases h
    · split at h
      · simp only [Prod.mk.injEq, Except.ok.injEq] at h
        obtain ⟨rfl, rfl⟩ := h
        exact imagePlan rfl (by omega) (imageForType_forest ..) rfl (by simp [Plan.versionFrom])
          (List.Subset.refl _)
      · simp only [Prod.mk.injEq, Except.ok.injEq] at h
        obtain ⟨rfl, rfl⟩ := h
        -- the put and the dependent get, then the `on_success` around them
        exact parent (numbered_putThenGet rfl (imageForType_forest ..) rfl rfl rfl rfl
          (imageForType_forest ..) rfl rfl (List.Subset.refl _))
          (Plan.nodes_subset_of_children_eq rfl)
          rfl (by omega) rfl (by simp [Plan.template?])
  | .doStep steps stepTags, num, num', plan, h
  | .inParallel steps _ _ stepTags, num, num', plan, h => by
    obtain ⟨plans, n, hsteps, rfl, rfl⟩ := andThen_eq_ok_plan h
    exact parent (visitSteps_numbered _ steps num n plans hsteps)
      (Plan.nodes_subset_of_children_eq rfl) rfl (by omega) rfl (by simp [Plan.template?])
  | .across vars step failFast, num, num', plan, h => by
    obtain ⟨template, n, hstep, rfl, rfl⟩ := andThen_eq_ok_plan h
    -- the template is planned once, and `Each` does not visit it
    have htemplate := visit_numbered tags step num n template hstep
    exact parent (nil htemplate.le : Numbered num n [] []) (List.nil_subset _) rfl (by omega) rfl
      fun t ht => by cases ht; exact htemplate.sound
  | .setPipeline name, num, num', plan, h
  | .loadVar name, num, num', plan, h => by
    simp only [visit, Prod.mk.injEq, Except.ok.injEq] at h
    obtain ⟨rfl, rfl⟩ := h
    exact leaf rfl rfl (by omega) rfl rfl
  | .tryStep step, num, num', plan, h
  | .timeout step _, num, num', plan, h => by
    obtain ⟨inner, n, hstep, rfl, rfl⟩ := andThen_eq_ok_plan h
    exact parent (visit_numbered tags step num n inner hstep)
      (Plan.nodes_subset_of_mem_children (by simp [Plan.children])) rfl (by omega) rfl
      (by simp [Plan.template?])
  | .retry step attempts, num, num', plan, h => by
    simp only [visit] at h
    split at h
    · cases h
    · obtain ⟨plans, n, hattempts, rfl, rfl⟩ := andThen_eq_ok_plan h
      have hplans := retryAttempts_numbered (visit ctx tags step)
        (fun num plan num' h => visit_numbered tags step num num' plan h) attempts.toNat num n plans
        hattempts
      exact parent hplans (Plan.nodes_subset_of_children_eq rfl) rfl (by omega) rfl
        (by simp [Plan.template?])
  | .onSuccess step hook, num, num', plan, h
  | .onFailure step hook, num, num', plan, h
  | .onAbort step hook, num, num', plan, h
  | .onError step hook, num, num', plan, h
  | .ensure step hook, num, num', plan, h => by
    obtain ⟨inner, n, hstep, h⟩ := andThen_eq_ok h
    obtain ⟨next, n', hhook, rfl, rfl⟩ := andThen_eq_ok_plan h
    -- the step, then the hook, then the plan around them
    have hkids := cons (visit_numbered tags step num n inner hstep)
      (cons (visit_numbered tags hook n n' next hhook) (nil (Int.le_refl n')))
    exact parent hkids (Plan.nodes_subset_of_children_eq rfl) rfl (by omega) rfl
      (by simp [Plan.template?])

/-- Every list of plans the loop over steps makes is numbered by the counter's run. -/
theorem visitSteps_numbered (tags : List String) :
    ∀ (steps : List StepConfig) (num num' : Int) (plans : List Plan),
      visitSteps ctx tags steps num = (.ok plans, num') →
        Numbered num num' (plans.flatMap Plan.nodes) plans
  | [], num, num', plans, h => by
    simp only [visitSteps, Prod.mk.injEq, Except.ok.injEq] at h
    obtain ⟨rfl, rfl⟩ := h
    exact nil (Int.le_refl _)
  | step :: steps, num, num', plans, h => by
    obtain ⟨plan, n, hstep, h⟩ := andThen_eq_ok h
    obtain ⟨rest, n', hsteps, h⟩ := andThen_eq_ok h
    simp only [Prod.mk.injEq, Except.ok.injEq] at h
    obtain ⟨rfl, rfl⟩ := h
    exact cons (visit_numbered tags step num n plan hstep)
      (visitSteps_numbered tags steps n n' rest hsteps)
end

end Visit

end Builds
end Concourse
