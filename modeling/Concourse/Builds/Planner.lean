import Concourse.Atc.ResourceTypes

/-!
# The build planner

`atc/builds/planner.go`: `Planner.Create` turns a job's step config into a build plan.  A
visitor walks the config; each step asks the plan factory for a new plan
(`PlanFactory.NewPlan`, `atc/plan_factory.go`), whose ID is the factory's counter after an
increment, so that a wrapper gets its ID after the steps it wraps.  A get or put plan also gets
the image plans of its resource type (`ImageForType`), named after its own ID; a put is
followed by a get of what it put, whose `VersionFrom` is the put's ID; the step of an `across`
is planned once, as the template of its substeps.

The factory is shared by the planner's builds, so that the counter is a state passed along
with each result, and it keeps its increments when a step fails.  Go's
`if err != nil { return err }` after a visit is `andThen`.

Of each step the model keeps the fields the planner reads to make plans and IDs: names,
resources, types, tags and the fields of the wrappers.  Sources, params, timeouts and the
other fields it only copies are left out.
-/

namespace Concourse
namespace Builds

open Atc

/-- The step configs of `atc/steps.go`, with the fields the planner reads. -/
inductive StepConfig where
  | task (name : String) (tags : List String)
  | run (message type : String) (tags : List String)
  | get (name resource : String) (tags : List String)
  | put (name resource : String) (tags : List String) (noGet : Bool)
  | doStep (steps : List StepConfig) (tags : List String)
  | inParallel (steps : List StepConfig) (limit : Int) (failFast : Bool) (tags : List String)
  | across (vars : List String) (step : StepConfig) (failFast : Bool)
  | setPipeline (name : String)
  | loadVar (name : String)
  | tryStep (step : StepConfig)
  | timeout (step : StepConfig) (duration : String)
  | retry (step : StepConfig) (attempts : Int)
  | onSuccess (step hook : StepConfig)
  | onFailure (step hook : StepConfig)
  | onAbort (step hook : StepConfig)
  | onError (step hook : StepConfig)
  | ensure (step hook : StepConfig)
  deriving Repr

/-- The errors of `atc/builds/errors.go`, and the panic of `make` with a negative length. -/
inductive PlannerError where
  | unknownResource (resource : String)
  | unknownPrototype (prototype : String)
  | versionNotProvided (input : String)
  | makesliceLenOutOfRange
  deriving DecidableEq, Repr

/-- The message of an error. -/
def PlannerError.error : PlannerError → String
  | unknownResource resource => "unknown resource: " ++ resource
  | unknownPrototype prototype => "unknown prototype: " ++ prototype
  | versionNotProvided input => "version for input " ++ input ++ " not provided"
  | makesliceLenOutOfRange => "runtime error: makeslice: len out of range"

/-- `db.SchedulerResource`: its name and type. -/
structure SchedulerResource where
  name : String
  type : String
  deriving DecidableEq, Repr

/-- `db.BuildInput`: its name and version, `none` for a nil version. -/
structure BuildInput where
  name : String
  version : Option (List (String × String))
  deriving DecidableEq, Repr

/-- What `Planner.Create` is given besides the step config and the job's tags. -/
structure PlannerContext where
  resources : List SchedulerResource
  resourceTypes : List ResourceType
  prototypes : List String
  inputs : List BuildInput
  manuallyTriggered : Bool
  defaultCheckInterval : Nat

/-- A visit's result: the plan or the error, and the plan factory's counter after it. -/
abbrev Visit (α : Type) := Except PlannerError α × Int

/-- Go's `if err != nil { return err }` after a visit: the rest runs on the result and the
counter; an error stops there, the counter as it is. -/
def andThen {α β : Type} (r : Visit α) (k : α → Int → Visit β) : Visit β :=
  match r with
  | (.ok a, num) => k a num
  | (.error e, num) => (.error e, num)

theorem andThen_eq_ok {α β : Type} {r : Visit α} {k : α → Int → Visit β} {b : β}
    {num' : Int} (h : andThen r k = (.ok b, num')) :
    ∃ a num, r = (.ok a, num) ∧ k a num = (.ok b, num') := by
  match r, h with
  | (.ok a, num), h => exact ⟨a, num, rfl, h⟩
  | (.error _, _), h => cases h

/-- A visit that ends by making one plan from its result: that plan, with the counter's next
number. -/
theorem andThen_eq_ok_plan {α : Type} {r : Visit α} {mk : α → Int → Plan} {plan : Plan}
    {num' : Int} (h : andThen r (fun a num => (.ok (mk a num), num + 1)) = (.ok plan, num')) :
    ∃ a num, r = (.ok a, num) ∧ plan = mk a num ∧ num' = num + 1 := by
  obtain ⟨a, num, hr, h⟩ := andThen_eq_ok h
  simp only [Prod.mk.injEq, Except.ok.injEq] at h
  exact ⟨a, num, hr, h.1.symm, h.2.symm⟩

/-- `visitor.effectiveTags`: the step's own tags when set, else the enclosing tags. -/
def effectiveTags (visitorTags stepTags : List String) : List String :=
  if stepTags.isEmpty then visitorTags else stepTags

/-- The loop of `VisitRetry`: `attempts` visits of the step, in order. -/
def retryAttempts (attempt : Int → Visit Plan) : Nat → Int → Visit (List Plan)
  | 0, num => (.ok [], num)
  | attempts + 1, num =>
    andThen (attempt num) fun plan num =>
      andThen (retryAttempts attempt attempts num) fun plans num => (.ok (plan :: plans), num)

section Visit

variable (ctx : PlannerContext)

/-- The resource a get or put step names: its `resource`, else its name. -/
def resourceName (name resource : String) : String :=
  if resource = "" then name else resource

mutual
/-- `planVisitor`'s `Visit` of a step, with `visitor.tags` the enclosing tags; each new plan's
ID is `NewPlan`'s next number, `num + 1`. -/
def visit (tags : List String) : StepConfig → Int → Visit Plan
  | .task name stepTags, num =>
    (.ok (.task (.num (num + 1)) name (effectiveTags tags stepTags)), num + 1)
  | .run message type stepTags, num =>
    if type ∈ ctx.prototypes then
      (.ok (.run (.num (num + 1)) message type (effectiveTags tags stepTags)), num + 1)
    else (.error (.unknownPrototype type), num)
  | .get name resource stepTags, num =>
    let resourceName := resourceName name resource
    match ctx.resources.find? (·.name == resourceName) with
    | none => (.error (.unknownResource resourceName), num)
    | some resource =>
      match (ctx.inputs.find? (·.name == name)).bind (·.version) with
      | none => (.error (.versionNotProvided name), num)
      | some version =>
        let tags := effectiveTags tags stepTags
        let id := PlanID.num (num + 1)
        (.ok (.get id ⟨name, resource.type, resourceName, some version, tags⟩
          (imageForType ctx.defaultCheckInterval ctx.resourceTypes id resource.type tags false)
          none), num + 1)
  | .put name resource stepTags noGet, num =>
    let resourceName := resourceName name resource
    match ctx.resources.find? (·.name == resourceName) with
    | none => (.error (.unknownResource resourceName), num)
    | some resource =>
      let tags := effectiveTags tags stepTags
      let putID := PlanID.num (num + 1)
      let plan := Plan.put putID ⟨name, resource.type, resourceName, tags⟩
        (imageForType ctx.defaultCheckInterval ctx.resourceTypes putID resource.type tags
          ctx.manuallyTriggered)
      if noGet then (.ok plan, num + 1)
      else
        let getID := PlanID.num (num + 2)
        -- the dependent get takes its version from the put
        let dependentGetPlan := Plan.get getID ⟨name, resource.type, resourceName, none, tags⟩
          (imageForType ctx.defaultCheckInterval ctx.resourceTypes getID resource.type tags
            ctx.manuallyTriggered) (some putID)
        (.ok (.onSuccess (.num (num + 3)) plan dependentGetPlan), num + 3)
  | .doStep steps stepTags, num =>
    let tags := if stepTags.isEmpty then tags else stepTags
    andThen (visitSteps tags steps num) fun plans num =>
      (.ok (.doPlan (.num (num + 1)) plans), num + 1)
  | .inParallel steps limit failFast stepTags, num =>
    let tags := if stepTags.isEmpty then tags else stepTags
    andThen (visitSteps tags steps num) fun plans num =>
      (.ok (.inParallel (.num (num + 1)) plans limit failFast), num + 1)
  | .across vars step failFast, num =>
    andThen (visit tags step num) fun template num =>
      (.ok (.across (.num (num + 1)) vars template failFast), num + 1)
  | .setPipeline name, num => (.ok (.setPipeline (.num (num + 1)) name), num + 1)
  | .loadVar name, num => (.ok (.loadVar (.num (num + 1)) name), num + 1)
  | .tryStep step, num =>
    andThen (visit tags step num) fun plan num => (.ok (.tryPlan (.num (num + 1)) plan), num + 1)
  | .timeout step duration, num =>
    andThen (visit tags step num) fun plan num =>
      (.ok (.timeout (.num (num + 1)) duration plan), num + 1)
  | .retry step attempts, num =>
    -- `make(atc.RetryPlan, step.Attempts)` panics on a negative length
    if attempts < 0 then (.error .makesliceLenOutOfRange, num)
    else
      andThen (retryAttempts (visit tags step) attempts.toNat num) fun plans num =>
        (.ok (.retry (.num (num + 1)) plans), num + 1)
  | .onSuccess step hook, num =>
    andThen (visit tags step num) fun plan num =>
      andThen (visit tags hook num) fun next num =>
        (.ok (.onSuccess (.num (num + 1)) plan next), num + 1)
  | .onFailure step hook, num =>
    andThen (visit tags step num) fun plan num =>
      andThen (visit tags hook num) fun next num =>
        (.ok (.onFailure (.num (num + 1)) plan next), num + 1)
  | .onAbort step hook, num =>
    andThen (visit tags step num) fun plan num =>
      andThen (visit tags hook num) fun next num =>
        (.ok (.onAbort (.num (num + 1)) plan next), num + 1)
  | .onError step hook, num =>
    andThen (visit tags step num) fun plan num =>
      andThen (visit tags hook num) fun next num =>
        (.ok (.onError (.num (num + 1)) plan next), num + 1)
  | .ensure step hook, num =>
    andThen (visit tags step num) fun plan num =>
      andThen (visit tags hook num) fun next num =>
        (.ok (.ensure (.num (num + 1)) plan next), num + 1)

/-- The loop of `VisitDo` and `VisitInParallel` over the steps, in order. -/
def visitSteps (tags : List String) : List StepConfig → Int → Visit (List Plan)
  | [], num => (.ok [], num)
  | step :: steps, num =>
    andThen (visit tags step num) fun plan num =>
      andThen (visitSteps tags steps num) fun plans num => (.ok (plan :: plans), num)
end

/-- `Planner.Create`: the plan of the step config, with the job's tags, from the counter
`num` of the plan factory. -/
def create (planConfig : StepConfig) (tags : List String) (num : Int) : Visit Plan :=
  visit ctx tags planConfig num

/-! ## What a visit that plans has made -/

section Inversion

variable {tags stepTags : List String} {num num' : Int} {plan : Plan}

theorem visit_run_eq_ok {message type : String}
    (h : visit ctx tags (.run message type stepTags) num = (.ok plan, num')) :
    plan = .run (.num (num + 1)) message type (effectiveTags tags stepTags) ∧ num' = num + 1 := by
  simp only [visit] at h
  split at h
  · simp only [Prod.mk.injEq, Except.ok.injEq] at h
    exact ⟨h.1.symm, h.2.symm⟩
  · cases h

/-- A get plans when its resource and its version are there: the get of that version, with the
image of the resource's type. -/
theorem visit_get_eq_ok {name resource : String}
    (h : visit ctx tags (.get name resource stepTags) num = (.ok plan, num')) :
    ∃ (r : SchedulerResource) (version : List (String × String)),
      plan = .get (.num (num + 1))
        ⟨name, r.type, resourceName name resource, some version, effectiveTags tags stepTags⟩
        (imageForType ctx.defaultCheckInterval ctx.resourceTypes (.num (num + 1)) r.type
          (effectiveTags tags stepTags) false) none ∧
      num' = num + 1 := by
  simp only [visit] at h
  split at h
  · cases h
  · split at h
    · cases h
    · simp only [Prod.mk.injEq, Except.ok.injEq] at h
      exact ⟨_, _, h.1.symm, h.2.symm⟩

end Inversion

/-! ## When the planner plans -/

mutual
/-- What the planner needs of a step to plan it: its gets' and puts' resources, its runs'
prototypes and its gets' versions are there, and no `retry` has a negative number of
attempts. -/
def StepConfig.Plannable : StepConfig → Prop
  | .task _ _ => True
  | .run _ type _ => type ∈ ctx.prototypes
  | .get name resource _ =>
    (ctx.resources.find? (·.name == resourceName name resource)).isSome ∧
      ((ctx.inputs.find? (·.name == name)).bind (·.version)).isSome
  | .put name resource _ _ => (ctx.resources.find? (·.name == resourceName name resource)).isSome
  | .doStep steps _ => StepConfig.PlannableList steps
  | .inParallel steps _ _ _ => StepConfig.PlannableList steps
  | .across _ step _ => step.Plannable
  | .setPipeline _ => True
  | .loadVar _ => True
  | .tryStep step => step.Plannable
  | .timeout step _ => step.Plannable
  | .retry step attempts => 0 ≤ attempts ∧ step.Plannable
  | .onSuccess step hook => step.Plannable ∧ hook.Plannable
  | .onFailure step hook => step.Plannable ∧ hook.Plannable
  | .onAbort step hook => step.Plannable ∧ hook.Plannable
  | .onError step hook => step.Plannable ∧ hook.Plannable
  | .ensure step hook => step.Plannable ∧ hook.Plannable

/-- Every step of the list is plannable. -/
def StepConfig.PlannableList : List StepConfig → Prop
  | [] => True
  | step :: steps => step.Plannable ∧ StepConfig.PlannableList steps
end

/-- A visit that plans from every counter, repeated, plans from every counter. -/
theorem retryAttempts_ok {attempt : Int → Visit Plan}
    (h : ∀ num, ∃ plan num', attempt num = (.ok plan, num')) :
    ∀ (attempts : Nat) (num : Int),
      ∃ plans num', retryAttempts attempt attempts num = (.ok plans, num')
  | 0, num => ⟨[], num, rfl⟩
  | attempts + 1, num => by
    obtain ⟨plan, num₁, h₁⟩ := h num
    obtain ⟨plans, num₂, h₂⟩ := retryAttempts_ok h attempts num₁
    exact ⟨plan :: plans, num₂, by simp [retryAttempts, andThen, h₁, h₂]⟩

/-- Two visits that plan, one after the other, plan. -/
theorem andThen_ok {α β : Type} {r : Visit α} {k : α → Int → Visit β}
    (hr : ∃ a num, r = (.ok a, num)) (hk : ∀ a num, ∃ b num', k a num = (.ok b, num')) :
    ∃ b num', andThen r k = (.ok b, num') := by
  obtain ⟨a, num, rfl⟩ := hr
  exact hk a num

mutual
/-- The planner plans a plannable step, from every counter and under every tags. -/
theorem visit_ok (tags : List String) :
    ∀ (step : StepConfig) (num : Int), step.Plannable ctx →
      ∃ plan num', visit ctx tags step num = (.ok plan, num')
  | .task _ _, num, _ => ⟨_, _, rfl⟩
  | .run _ type _, num, h => by
    have h : type ∈ ctx.prototypes := h
    simp only [visit, if_pos h]
    exact ⟨_, _, rfl⟩
  | .get name resource _, num, h => by
    obtain ⟨hres, hver⟩ := h
    obtain ⟨r, hr⟩ := Option.isSome_iff_exists.mp hres
    obtain ⟨version, hv⟩ := Option.isSome_iff_exists.mp hver
    simp only [visit, hr, hv]
    exact ⟨_, _, rfl⟩
  | .put name resource _ noGet, num, h => by
    obtain ⟨r, hr⟩ := Option.isSome_iff_exists.mp h
    cases noGet <;> exact ⟨_, _, by simp only [visit, hr]; rfl⟩
  | .doStep steps _, num, h | .inParallel steps _ _ _, num, h =>
    andThen_ok (visitSteps_ok _ steps num h) fun _ _ => ⟨_, _, rfl⟩
  | .across _ step _, num, h | .tryStep step, num, h | .timeout step _, num, h =>
    andThen_ok (visit_ok tags step num h) fun _ _ => ⟨_, _, rfl⟩
  | .setPipeline _, num, _ | .loadVar _, num, _ => ⟨_, _, rfl⟩
  | .retry step attempts, num, h => by
    obtain ⟨hattempts, hstep⟩ := h
    have hnot : ¬ attempts < 0 := by omega
    simp only [visit, if_neg hnot]
    exact andThen_ok (retryAttempts_ok (fun num => visit_ok tags step num hstep) _ num)
      fun _ _ => ⟨_, _, rfl⟩
  | .onSuccess step hook, num, h | .onFailure step hook, num, h | .onAbort step hook, num, h
  | .onError step hook, num, h | .ensure step hook, num, h =>
    andThen_ok (visit_ok tags step num h.1) fun _ num =>
      andThen_ok (visit_ok tags hook num h.2) fun _ _ => ⟨_, _, rfl⟩

/-- The planner plans a list of plannable steps. -/
theorem visitSteps_ok (tags : List String) :
    ∀ (steps : List StepConfig) (num : Int), StepConfig.PlannableList ctx steps →
      ∃ plans num', visitSteps ctx tags steps num = (.ok plans, num')
  | [], num, _ => ⟨[], num, rfl⟩
  | step :: steps, num, h =>
    andThen_ok (visit_ok tags step num h.1) fun _ num =>
      andThen_ok (visitSteps_ok tags steps num h.2) fun _ _ => ⟨_, _, rfl⟩
end

end Visit

end Builds
end Concourse
