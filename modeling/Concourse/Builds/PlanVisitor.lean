import Concourse.Builds.Planner

/-!
# The planner's visitor and the tags it hands down

`Planner.Create` (`atc/builds/planner.go`) visits the step config with one `planVisitor`,
whose field `tags` holds the tags a step inherits: `Create` sets it to the job's tags, and
`VisitDo` and `VisitInParallel` of a step with tags set it to the step's tags for the steps
inside and put back the tags they found with a `defer`, on every return.  A get, put, task or
run step's plan takes its own tags, else `visitor.tags` (`effectiveTags`).

`PlanVisitor.visit` is that visitor, with `tags` and the plan factory's counter as a state that
each visit changes and the plan it leaves in `visitor.plan` as its result; a leaf step's visit
is `Builds.visit` under the visitor's tags.  `PlanVisitor.visit_eq` says that the visitor is
`Builds.visit` with the tags as a parameter: each visit plans or fails as `Builds.visit` does
under the tags it finds, and leaves those tags behind.

`StepConfig.expectedTags` says which tags the get, put, task and run plans of a step should
carry, from the steps around it: a step's own tags, else those of the innermost `do` or
`in_parallel` step around it with tags, else the job's.  `Plan.stepTags` lists the tags of
those plans of a plan, in order, down into the template of an `across` plan.  The image plans
of a resource type are not among them: they take the type's own tags when it has some
(`FetchImagePlan`).  `visit_stepTags` says that `Builds.visit` gives each plan its expected
tags.
-/

namespace Concourse
namespace Builds

open Atc

/-! ## The visitor -/

/-- The fields of `planVisitor` that its visits write: `tags`, and the counter of its plan
factory. -/
structure PlanVisitor where
  tags : List String
  num : Int
  deriving DecidableEq, Repr

namespace PlanVisitor

/-- A visit's result: the plan it left in `visitor.plan`, or its error, and the visitor after
it. -/
abbrev Result (α : Type) := Except PlannerError α × PlanVisitor

/-- `if err != nil { return err }` after a visit. -/
def andThen {α β : Type} (r : Result α) (k : α → PlanVisitor → Result β) : Result β :=
  match r with
  | (.ok a, v) => k a v
  | (.error e, v) => (.error e, v)

/-- `visitor.planFactory.NewPlan`: the plan, with the next ID. -/
def newPlan (v : PlanVisitor) (plan : PlanID → Plan) : Result Plan :=
  (.ok (plan (.num (v.num + 1))), { v with num := v.num + 1 })

/-- The head of `VisitDo` and `VisitInParallel`: a step with tags sets `visitor.tags` to them
and, by a `defer`, puts back the tags it found when it returns, with or without an error. -/
def withTags {α : Type} (stepTags : List String) (body : PlanVisitor → Result α)
    (v : PlanVisitor) : Result α :=
  if stepTags.isEmpty then body v
  else
    let prev := v.tags
    match body { v with tags := stepTags } with
    | (r, v') => (r, { v' with tags := prev })

/-- A visit that reads the visitor's tags and moves the counter only. -/
def ofVisit {α : Type} (v : PlanVisitor) (r : Visit α) : Result α :=
  (r.1, { v with num := r.2 })

/-- The loop of `VisitRetry`: `attempts` visits of the step, in order. -/
def retryAttempts (attempt : PlanVisitor → Result Plan) : Nat → PlanVisitor → Result (List Plan)
  | 0, v => (.ok [], v)
  | attempts + 1, v =>
    andThen (attempt v) fun plan v =>
      andThen (retryAttempts attempt attempts v) fun plans v => (.ok (plan :: plans), v)

section Visit

variable (ctx : PlannerContext)

mutual
/-- `step.Visit(visitor)`. -/
def visit : StepConfig → PlanVisitor → Result Plan
  -- `VisitTask`, `VisitRun`, `VisitGet`, `VisitPut`, `VisitSetPipeline` and `VisitLoadVar`
  -- read `visitor.tags` and write the plan and the counter
  | step@(.task ..), v | step@(.run ..), v | step@(.get ..), v | step@(.put ..), v
  | step@(.setPipeline _), v | step@(.loadVar _), v =>
    ofVisit v (Builds.visit ctx v.tags step v.num)
  | .doStep steps stepTags, v =>
    withTags stepTags (fun v =>
      andThen (visitSteps steps v) fun plans v => v.newPlan (.doPlan · plans)) v
  | .inParallel steps limit failFast stepTags, v =>
    withTags stepTags (fun v =>
      andThen (visitSteps steps v) fun plans v =>
        v.newPlan (.inParallel · plans limit failFast)) v
  | .across vars step failFast, v =>
    andThen (visit step v) fun template v => v.newPlan (.across · vars template failFast)
  | .tryStep step, v => andThen (visit step v) fun plan v => v.newPlan (.tryPlan · plan)
  | .timeout step duration, v =>
    andThen (visit step v) fun plan v => v.newPlan (.timeout · duration plan)
  | .retry step attempts, v =>
    -- `make(atc.RetryPlan, step.Attempts)` panics on a negative length
    if attempts < 0 then (.error .makesliceLenOutOfRange, v)
    else
      andThen (retryAttempts (visit step) attempts.toNat v) fun plans v =>
        v.newPlan (.retry · plans)
  | .onSuccess step hook, v =>
    andThen (visit step v) fun plan v =>
      andThen (visit hook v) fun next v => v.newPlan (.onSuccess · plan next)
  | .onFailure step hook, v =>
    andThen (visit step v) fun plan v =>
      andThen (visit hook v) fun next v => v.newPlan (.onFailure · plan next)
  | .onAbort step hook, v =>
    andThen (visit step v) fun plan v =>
      andThen (visit hook v) fun next v => v.newPlan (.onAbort · plan next)
  | .onError step hook, v =>
    andThen (visit step v) fun plan v =>
      andThen (visit hook v) fun next v => v.newPlan (.onError · plan next)
  | .ensure step hook, v =>
    andThen (visit step v) fun plan v =>
      andThen (visit hook v) fun next v => v.newPlan (.ensure · plan next)

/-- The loop of `VisitDo` and `VisitInParallel` over the steps, in order. -/
def visitSteps : List StepConfig → PlanVisitor → Result (List Plan)
  | [], v => (.ok [], v)
  | step :: steps, v =>
    andThen (visit step v) fun plan v =>
      andThen (visitSteps steps v) fun plans v => (.ok (plan :: plans), v)
end

/-- `Planner.Create`: a visitor with the job's tags and the factory's counter visits the step
config. -/
def create (planConfig : StepConfig) (tags : List String) (num : Int) : Result Plan :=
  visit ctx planConfig ⟨tags, num⟩

end Visit

/-! ## The visitor is the visit with the tags as a parameter -/

variable {α β : Type} {v : PlanVisitor}

@[simp] theorem ofVisit_tags (r : Visit α) : (ofVisit v r).2.tags = v.tags := rfl

/-- `if err != nil { return err }` on the visitor is `Builds.andThen` on what it computes. -/
theorem andThen_ofVisit {r : Visit α} {k : α → PlanVisitor → Result β}
    {k' : α → Int → Visit β} (hk : ∀ a n, k a { v with num := n } = ofVisit v (k' a n)) :
    andThen (ofVisit v r) k = ofVisit v (Builds.andThen r k') := by
  obtain ⟨r, n⟩ := r
  cases r with
  | ok a => exact hk a n
  | error e => rfl

/-- A `do` or `in_parallel` step's visit runs under its tags, if it has some, and leaves the
visitor's own tags behind. -/
theorem withTags_ofVisit (stepTags : List String) {body : PlanVisitor → Result α}
    {f : List String → Visit α}
    (hbody : ∀ tags, body { v with tags } = ofVisit { v with tags } (f tags)) :
    withTags stepTags body v =
      ofVisit v (f (if stepTags.isEmpty then v.tags else stepTags)) := by
  unfold withTags
  split
  · exact hbody v.tags
  · rw [hbody]
    rfl

/-- The loop of `VisitRetry` is `Builds.retryAttempts` under the visitor's tags. -/
theorem retryAttempts_eq {attempt : PlanVisitor → Result Plan} {f : Int → Visit Plan}
    (hattempt : ∀ n, attempt { v with num := n } = ofVisit v (f n)) :
    ∀ (attempts : Nat) (n : Int),
      retryAttempts attempt attempts { v with num := n } =
        ofVisit v (Builds.retryAttempts f attempts n)
  | 0, n => rfl
  | attempts + 1, n => by
    simp only [retryAttempts, Builds.retryAttempts, hattempt]
    refine andThen_ofVisit fun plan n' => ?_
    rw [retryAttempts_eq hattempt attempts n']
    exact andThen_ofVisit fun plans n'' => rfl

section Visit

variable (ctx : PlannerContext)

mutual
/-- Each visit plans or fails as `Builds.visit` does under the visitor's tags, moves the counter
as it does, and leaves the visitor's tags as it found them. -/
theorem visit_eq : ∀ (step : StepConfig) (v : PlanVisitor),
    visit ctx step v = ofVisit v (Builds.visit ctx v.tags step v.num)
  | .task .., _ | .run .., _ | .get .., _ | .put .., _ | .setPipeline _, _ | .loadVar _, _ =>
    by simp only [visit]
  | .doStep steps stepTags, v | .inParallel steps _ _ stepTags, v => by
    simp only [visit, Builds.visit]
    refine withTags_ofVisit stepTags
      (f := fun tags => Builds.andThen (Builds.visitSteps ctx tags steps v.num) _) fun tags => ?_
    rw [visitSteps_eq steps]
    exact andThen_ofVisit fun plans n => rfl
  | .across _ step _, v | .tryStep step, v | .timeout step _, v => by
    simp only [visit, Builds.visit]
    rw [visit_eq step v]
    exact andThen_ofVisit fun plan n => rfl
  | .retry step attempts, v => by
    simp only [visit, Builds.visit]
    split
    · rfl
    · -- every attempt runs under the tags the retry found
      have hattempt : ∀ n, visit ctx step { v with num := n } =
          ofVisit v (Builds.visit ctx v.tags step n) := fun n => visit_eq step _
      rw [retryAttempts_eq hattempt attempts.toNat v.num]
      exact andThen_ofVisit fun plans n => rfl
  | .onSuccess step hook, v | .onFailure step hook, v | .onAbort step hook, v
  | .onError step hook, v | .ensure step hook, v => by
    simp only [visit, Builds.visit]
    rw [visit_eq step v]
    refine andThen_ofVisit fun plan n => ?_
    -- the hook runs under the tags the step left behind, the visitor's own
    rw [visit_eq hook]
    exact andThen_ofVisit fun next n' => rfl

/-- The loop over a `do` or `in_parallel` step's steps is `Builds.visitSteps` under the
visitor's tags. -/
theorem visitSteps_eq : ∀ (steps : List StepConfig) (v : PlanVisitor),
    visitSteps ctx steps v = ofVisit v (Builds.visitSteps ctx v.tags steps v.num)
  | [], _ => rfl
  | step :: steps, v => by
    simp only [visitSteps, Builds.visitSteps]
    rw [visit_eq step v]
    refine andThen_ofVisit fun plan n => ?_
    rw [visitSteps_eq steps]
    exact andThen_ofVisit fun plans n' => rfl
end

end Visit

end PlanVisitor

/-! ## The tags each plan should carry -/

namespace StepConfig

/-- The tags a `do` or `in_parallel` step hands to the steps in it, when it has some. -/
def groupTags : StepConfig → Option (List String)
  | .doStep _ tags | .inParallel _ _ _ tags => if tags.isEmpty then none else some tags
  | _ => none

/-- The tags that steps under `ancestors` (the innermost first) inherit in a job with tags
`jobTags`: those of the innermost `do` or `in_parallel` step with tags, else the job's. -/
def enclosingTags (jobTags : List String) (ancestors : List StepConfig) : List String :=
  ((ancestors.filterMap groupTags).head?).getD jobTags

/-- The tags a get, put, task or run step with tags `own` should give its plans. -/
def inheritedTags (jobTags : List String) (ancestors : List StepConfig) (own : List String) :
    List String :=
  if own.isEmpty then enclosingTags jobTags ancestors else own

mutual
/-- The tags the get, put, task and run plans of a step should carry, in the order of its plan,
under the steps `ancestors` of a job with tags `jobTags`. -/
def expectedTags (jobTags : List String) (ancestors : List StepConfig) :
    StepConfig → List (List String)
  | .task _ tags | .run _ _ tags | .get _ _ tags => [inheritedTags jobTags ancestors tags]
  | .put _ _ tags noGet =>
    -- the put, then the get of what it put
    if noGet then [inheritedTags jobTags ancestors tags]
    else [inheritedTags jobTags ancestors tags, inheritedTags jobTags ancestors tags]
  | step@(.doStep steps _) | step@(.inParallel steps ..) =>
    expectedTagsList jobTags (step :: ancestors) steps
  | step@(.across _ inner _) | step@(.tryStep inner) | step@(.timeout inner _) =>
    expectedTags jobTags (step :: ancestors) inner
  | step@(.retry inner attempts) =>
    (List.replicate attempts.toNat (expectedTags jobTags (step :: ancestors) inner)).flatten
  | step@(.onSuccess inner hook) | step@(.onFailure inner hook) | step@(.onAbort inner hook)
  | step@(.onError inner hook) | step@(.ensure inner hook) =>
    expectedTags jobTags (step :: ancestors) inner ++ expectedTags jobTags (step :: ancestors) hook
  | .setPipeline _ | .loadVar _ => []

/-- The tags the plans of a list of steps should carry, in order. -/
def expectedTagsList (jobTags : List String) (ancestors : List StepConfig) :
    List StepConfig → List (List String)
  | [] => []
  | step :: steps => expectedTags jobTags ancestors step ++ expectedTagsList jobTags ancestors steps
end

variable {jobTags : List String} {ancestors : List StepConfig} {step : StepConfig}

/-- Under a step that hands down no tags, steps inherit what they inherit around it. -/
theorem enclosingTags_cons_of_groupTags_none (h : step.groupTags = none) :
    enclosingTags jobTags (step :: ancestors) = enclosingTags jobTags ancestors := by
  simp [enclosingTags, h]

/-- Under a `do` or `in_parallel` step, steps inherit its tags when it has some. -/
theorem enclosingTags_cons_of_groupTags {stepTags : List String}
    (h : step.groupTags = if stepTags.isEmpty then none else some stepTags) :
    enclosingTags jobTags (step :: ancestors) =
      if stepTags.isEmpty then enclosingTags jobTags ancestors else stepTags := by
  by_cases hempty : stepTags.isEmpty
  · rw [if_pos hempty] at h ⊢
    exact enclosingTags_cons_of_groupTags_none h
  · rw [if_neg hempty] at h ⊢
    simp [enclosingTags, h]

end StepConfig

end Builds

namespace Atc
namespace Plan

mutual
/-- The tags of the get, put, task and run plans of a plan, in order, down into the template of
an `across` plan but not into the images of resource types. -/
def stepTags : Plan → List (List String)
  | get _ fields _ _ => [fields.tags]
  | put _ fields _ => [fields.tags]
  | task _ _ tags | run _ _ _ tags => [tags]
  | inParallel _ steps _ _ | doPlan _ steps | retry _ steps => stepTagsList steps
  | across _ _ template _ => template.stepTags
  | onAbort _ step next | onError _ step next | ensure _ step next | onSuccess _ step next
  | onFailure _ step next => step.stepTags ++ next.stepTags
  | tryPlan _ step | timeout _ _ step => step.stepTags
  | setPipeline .. | loadVar .. | check .. => []

/-- The tags of the get, put, task and run plans of a list of plans, in order. -/
def stepTagsList : List Plan → List (List String)
  | [] => []
  | plan :: plans => plan.stepTags ++ stepTagsList plans
end

end Plan
end Atc

namespace Builds

open Atc StepConfig

/-- The attempts of a retry carry, each, the tags its step's plan should carry. -/
theorem retryAttempts_stepTags {attempt : Int → Visit Plan} {expected : List (List String)}
    (hattempt : ∀ num plan num', attempt num = (.ok plan, num') → plan.stepTags = expected) :
    ∀ (attempts : Nat) (num num' : Int) (plans : List Plan),
      retryAttempts attempt attempts num = (.ok plans, num') →
        Plan.stepTagsList plans = (List.replicate attempts expected).flatten
  | 0, num, num', plans, h => by
    simp only [retryAttempts, Prod.mk.injEq, Except.ok.injEq] at h
    obtain ⟨rfl, rfl⟩ := h
    rfl
  | attempts + 1, num, num', plans, h => by
    obtain ⟨plan, n, hfirst, h⟩ := andThen_eq_ok h
    obtain ⟨rest, n', hrest, h⟩ := andThen_eq_ok h
    simp only [Prod.mk.injEq, Except.ok.injEq] at h
    obtain ⟨rfl, rfl⟩ := h
    rw [Plan.stepTagsList, hattempt num plan n hfirst,
      retryAttempts_stepTags hattempt attempts n n' rest hrest, List.replicate_succ,
      List.flatten_cons]

section Visit

variable (ctx : PlannerContext) (jobTags : List String)

mutual
/-- Under the tags that steps inherit from `ancestors`, every plan the visit makes gives its get,
put, task and run plans the tags they should carry. -/
theorem visit_stepTags :
    ∀ (step : StepConfig) (ancestors : List StepConfig) (num num' : Int) (plan : Plan),
      visit ctx (enclosingTags jobTags ancestors) step num = (.ok plan, num') →
        plan.stepTags = step.expectedTags jobTags ancestors
  | .task name stepTags, ancestors, num, num', plan, h
  | .setPipeline name, ancestors, num, num', plan, h
  | .loadVar name, ancestors, num, num', plan, h => by
    simp only [visit, Prod.mk.injEq, Except.ok.injEq] at h
    obtain ⟨rfl, rfl⟩ := h
    rfl
  | .run message type stepTags, ancestors, num, num', plan, h => by
    obtain ⟨rfl, rfl⟩ := visit_run_eq_ok ctx h
    rfl
  | .get name resource stepTags, ancestors, num, num', plan, h => by
    obtain ⟨r, version, rfl, rfl⟩ := visit_get_eq_ok ctx h
    rfl
  | .put name resource stepTags noGet, ancestors, num, num', plan, h => by
    simp only [visit] at h
    split at h
    · cases h
    · -- the put alone, or the put and the get of what it put, under the same tags
      cases noGet <;> simp only [Bool.false_eq_true, if_true, if_false, Prod.mk.injEq,
        Except.ok.injEq] at h <;> obtain ⟨rfl, rfl⟩ := h <;> rfl
  | .doStep steps stepTags, ancestors, num, num', plan, h
  | .inParallel steps _ _ stepTags, ancestors, num, num', plan, h => by
    obtain ⟨plans, n, hsteps, rfl, rfl⟩ := andThen_eq_ok_plan h
    refine visitSteps_stepTags steps _ num n plans ?_
    -- the steps inside inherit the group's tags, when it has some
    rwa [enclosingTags_cons_of_groupTags rfl]
  | .across vars step failFast, ancestors, num, num', plan, h
  | .tryStep step, ancestors, num, num', plan, h
  | .timeout step _, ancestors, num, num', plan, h => by
    obtain ⟨inner, n, hstep, rfl, rfl⟩ := andThen_eq_ok_plan h
    refine visit_stepTags step _ num n inner ?_
    rwa [enclosingTags_cons_of_groupTags_none rfl]
  | .retry step attempts, ancestors, num, num', plan, h => by
    simp only [visit] at h
    split at h
    · cases h
    · obtain ⟨plans, n, hattempts, rfl, rfl⟩ := andThen_eq_ok_plan h
      -- every attempt is a plan of the same step, under the same tags
      have hattempt : ∀ num plan num',
          visit ctx (enclosingTags jobTags (.retry step attempts :: ancestors)) step num =
            (.ok plan, num') →
          plan.stepTags = step.expectedTags jobTags (.retry step attempts :: ancestors) :=
        fun num plan num' h => visit_stepTags step _ num num' plan h
      rw [enclosingTags_cons_of_groupTags_none rfl] at hattempt
      exact retryAttempts_stepTags hattempt attempts.toNat num n plans hattempts
  | .onSuccess step hook, ancestors, num, num', plan, h
  | .onFailure step hook, ancestors, num, num', plan, h
  | .onAbort step hook, ancestors, num, num', plan, h
  | .onError step hook, ancestors, num, num', plan, h
  | .ensure step hook, ancestors, num, num', plan, h => by
    obtain ⟨inner, n, hstep, h⟩ := andThen_eq_ok h
    obtain ⟨next, n', hhook, rfl, rfl⟩ := andThen_eq_ok_plan h
    refine congrArg₂ (· ++ ·) (visit_stepTags step _ num n inner ?_)
      (visit_stepTags hook _ n n' next ?_)
    · rwa [enclosingTags_cons_of_groupTags_none rfl]
    · rwa [enclosingTags_cons_of_groupTags_none rfl]

/-- The same, for the loop over a `do` or `in_parallel` step's steps. -/
theorem visitSteps_stepTags :
    ∀ (steps : List StepConfig) (ancestors : List StepConfig) (num num' : Int)
      (plans : List Plan),
      visitSteps ctx (enclosingTags jobTags ancestors) steps num = (.ok plans, num') →
        Plan.stepTagsList plans = expectedTagsList jobTags ancestors steps
  | [], ancestors, num, num', plans, h => by
    simp only [visitSteps, Prod.mk.injEq, Except.ok.injEq] at h
    obtain ⟨rfl, rfl⟩ := h
    rfl
  | step :: steps, ancestors, num, num', plans, h => by
    obtain ⟨plan, n, hstep, h⟩ := andThen_eq_ok h
    obtain ⟨rest, n', hsteps, h⟩ := andThen_eq_ok h
    simp only [Prod.mk.injEq, Except.ok.injEq] at h
    obtain ⟨rfl, rfl⟩ := h
    exact congrArg₂ (· ++ ·) (visit_stepTags step ancestors num n plan hstep)
      (visitSteps_stepTags steps ancestors n n' rest hsteps)
end

end Visit

/-- `Planner.Create` with a job's tags: every visit leaves the visitor's tags as it found them,
whether it plans or fails, and every get, put, task and run plan of the plan carries the step's
own tags, else those of the innermost `do` or `in_parallel` step around it with tags, else the
job's. -/
theorem create_stepTags (ctx : PlannerContext) :
    (∀ (step : StepConfig) (v : PlanVisitor), (PlanVisitor.visit ctx step v).2.tags = v.tags) ∧
      ∀ (planConfig : StepConfig) (tags : List String) (num : Int) (plan : Plan),
        (PlanVisitor.create ctx planConfig tags num).1 = .ok plan →
          plan.stepTags = planConfig.expectedTags tags [] := by
  refine ⟨fun step v => by rw [PlanVisitor.visit_eq, PlanVisitor.ofVisit_tags],
    fun planConfig tags num plan h => ?_⟩
  rw [PlanVisitor.create, PlanVisitor.visit_eq] at h
  -- the visitor is the visit under the job's tags, which the steps inherit with no step around
  have hvisit : visit ctx (enclosingTags tags []) planConfig num =
      (.ok plan, (visit ctx tags planConfig num).2) := Prod.ext h rfl
  exact visit_stepTags ctx tags planConfig [] num _ plan hvisit

/-- A `do` with tags around a task without tags and an untagged `in_parallel`: both tasks take
the `do`'s tags, and the visitor ends with the job's. -/
theorem create_stepTags_doGroup :
    PlanVisitor.create ⟨[], [], [], [], false, 0⟩
        (.doStep [.task "a" [], .inParallel [.task "b" []] 1 false []] ["group"]) ["job"] 0 =
      (.ok (.doPlan (.num 4) [.task (.num 1) "a" ["group"],
        .inParallel (.num 3) [.task (.num 2) "b" ["group"]] 1 false]), ⟨["job"], 4⟩) ∧
      (Plan.doPlan (.num 4) [.task (.num 1) "a" ["group"],
        .inParallel (.num 3) [.task (.num 2) "b" ["group"]] 1 false]).stepTags =
        (StepConfig.doStep [.task "a" [], .inParallel [.task "b" []] 1 false []] ["group"]).expectedTags
          ["job"] [] := by
  have hcreate : PlanVisitor.create ⟨[], [], [], [], false, 0⟩
      (.doStep [.task "a" [], .inParallel [.task "b" []] 1 false []] ["group"]) ["job"] 0 =
    (.ok (.doPlan (.num 4) [.task (.num 1) "a" ["group"],
      .inParallel (.num 3) [.task (.num 2) "b" ["group"]] 1 false]), ⟨["job"], 4⟩) := rfl
  exact ⟨hcreate, (create_stepTags ⟨[], [], [], [], false, 0⟩).2 _ _ _ _ (by rw [hcreate])⟩

end Builds
end Concourse
