import Concourse.Atc.StepValidator
import Concourse.Builds.Planner

/-!
# Validated jobs plan

Before a pipeline is saved, `configvalidate.validateJobs` runs a `StepValidator` over each
job's plan; later the scheduler hands the job's plan to `Planner.Create`, with the pipeline's
resources and prototypes and the build's inputs (`buildstarter.go`).  The two are visitors of
their own over the same step configs.  `plannerConfig` keeps of a step config what the planner
reads, and a validation that records no error leaves the planner nothing to fail on: each get
and put the planner visits names a resource of the config, each run a prototype, and no retry
has a negative number of attempts.  The versions of the gets are the build inputs', which the
validator does not see.
-/

namespace Concourse

namespace Atc.Config

mutual
/-- The step config as the planner reads it. -/
def StepConfig.plannerConfig : StepConfig → Builds.StepConfig
  | .task name _ _ _ _ tags => .task name tags
  | .run message type tags => .run message type tags
  | .get name resource _ tags => .get name resource tags
  | .put name resource tags noGet => .put name resource tags noGet
  | .setPipeline name _ => .setPipeline name
  | .loadVar name _ => .loadVar name
  | .tryStep (.mk config _) => .tryStep config.plannerConfig
  | .doStep steps tags => .doStep (Step.plannerConfigs steps) tags
  | .inParallel steps limit failFast tags =>
    .inParallel (Step.plannerConfigs steps) limit failFast tags
  | .across vars step failFast => .across (vars.map (·.var)) step.plannerConfig failFast
  | .timeout step duration => .timeout step.plannerConfig duration
  | .retry step attempts => .retry step.plannerConfig attempts
  | .onSuccess step (.mk hook _) => .onSuccess step.plannerConfig hook.plannerConfig
  | .onFailure step (.mk hook _) => .onFailure step.plannerConfig hook.plannerConfig
  | .onAbort step (.mk hook _) => .onAbort step.plannerConfig hook.plannerConfig
  | .onError step (.mk hook _) => .onError step.plannerConfig hook.plannerConfig
  | .ensure step (.mk hook _) => .ensure step.plannerConfig hook.plannerConfig

/-- The configs of the steps of a list, as the planner reads them. -/
def Step.plannerConfigs : List Step → List Builds.StepConfig
  | [] => []
  | .mk config _ :: steps => config.plannerConfig :: Step.plannerConfigs steps
end

/-- The get names of a wrapper and its hook: those of the step, then those of the hook. -/
theorem StepConfig.getNames_hook {step hook : StepConfig} {unknownFields : List String}
    {wrap : StepConfig → Step → StepConfig}
    (hwrap : (wrap step (.mk hook unknownFields)).recursorSteps =
      step.recursorSteps ++ hook.recursorSteps) :
    (wrap step (.mk hook unknownFields)).getNames = step.getNames ++ hook.getNames := by
  simp [getNames, hwrap]

end Atc.Config

namespace Builds

open Atc Atc.Config Atc.StepValidator

/-- The planner's and the validator's `ResourceName` agree. -/
theorem resourceName_eq_config (name resource : String) :
    resourceName name resource = Config.resourceName name resource := by
  by_cases h : resource = "" <;> simp [resourceName, Config.resourceName, h]

section Bridge

variable (isIdentifierLetter : Char → Bool) (pathMatch : String → String → Bool)
  (parseDuration : String → Bool) (quoteList : List String → String) (config : Atc.Config)
  (ctx : PlannerContext)

/-- The input of a name has a version. -/
def HasVersion (name : String) : Prop :=
  ((ctx.inputs.find? (·.name == name)).bind (·.version)).isSome

/-- The planner's resources are the config's: it finds a resource where the validator did. -/
theorem find_resource_isSome
    (hresources : ctx.resources = config.resources.map fun r => ⟨r.name, r.type⟩)
    {name resource : String}
    (h : (config.resources.find? (·.name == Config.resourceName name resource)).isSome) :
    (ctx.resources.find? (·.name == resourceName name resource)).isSome := by
  rw [hresources, List.find?_map, resourceName_eq_config]
  simpa [Function.comp_def] using h

mutual
/-- A step the validator records no error for is one the planner plans, when the inputs have
versions for its gets. -/
theorem plannable_of_visit
    (hresources : ctx.resources = config.resources.map fun r => ⟨r.name, r.type⟩)
    (hprototypes : ctx.prototypes = config.prototypes) :
    ∀ (v : StepValidator) (step : Config.StepConfig),
      (StepValidator.visit isIdentifierLetter pathMatch parseDuration quoteList config v step).errors =
        v.errors →
      (∀ name ∈ step.getNames, HasVersion ctx name) → step.plannerConfig.Plannable ctx
  | _, .task .., _, _ => trivial
  | _, .run _ type _, h, _ => by
    show type ∈ ctx.prototypes
    rw [hprototypes]
    exact visitRun_prototype_found isIdentifierLetter config h
  | _, .get name resource _ _, h, hnames =>
    ⟨find_resource_isSome config ctx hresources
        (visitGet_resource_found isIdentifierLetter pathMatch config h),
      hnames name (by simp [StepConfig.getNames, StepConfig.recursorSteps, StepConfig.getName?])⟩
  | _, .put name resource _ _, h, _ =>
    find_resource_isSome config ctx hresources
      (visitPut_resource_found isIdentifierLetter config h)
  | _, .setPipeline .., _, _ => trivial
  | _, .loadVar .., _, _ => trivial
  | v, .tryStep (.mk step unknownFields), h, hnames => by
    simp only [StepValidator.visit, popContext_errors] at h
    exact plannable_of_validate hresources hprototypes _ (.mk step unknownFields) h hnames
  | v, .doStep steps _, h, hnames | v, .inParallel steps _ _ _, h, hnames => by
    simp only [StepValidator.visit, popContext_errors] at h
    exact plannable_of_validateEach hresources hprototypes _ _ _ steps h hnames
  | v, .across vars step _, h, hnames => by
    simp only [StepValidator.visit, popContext_errors, popLocalVarScope_errors] at h
    -- the vars are checked before the sub-step: neither recorded an error
    have hvars := errors_eq_of_isPrefix v
      ((List.IsPrefix.trans (by simp) (visitAcrossVars_errors_grow _ vars)))
      (visit_errors_grow isIdentifierLetter pathMatch parseDuration quoteList config _ step) h
    exact plannable_of_visit hresources hprototypes _ step (h.trans hvars.symm) hnames
  | v, .timeout step _, h, hnames => by
    simp only [StepValidator.visit, popContext_errors] at h
    have hstep := errors_eq_of_isPrefix v
      (visit_errors_grow isIdentifierLetter pathMatch parseDuration quoteList config v step)
      (by simp) h
    exact plannable_of_visit hresources hprototypes v step hstep hnames
  | v, .retry step attempts, h, hnames => by
    simp only [StepValidator.visit, popContext_errors] at h
    have hstep := errors_eq_of_isPrefix v
      (visit_errors_grow isIdentifierLetter pathMatch parseDuration quoteList config v step)
      (by simp) h
    -- the attempts are checked after the step
    have hattempts := cond_eq_false_of_errors_eq v (by simp [hstep]) h
    refine ⟨?_, plannable_of_visit hresources hprototypes v step hstep hnames⟩
    simp at hattempts
    omega
  | v, .onSuccess step (.mk hook _), h, hnames | v, .onFailure step (.mk hook _), h, hnames
  | v, .onAbort step (.mk hook _), h, hnames | v, .onError step (.mk hook _), h, hnames
  | v, .ensure step (.mk hook _), h, hnames => by
    simp only [StepValidator.visit, popContext_errors] at h
    rw [StepConfig.getNames_hook rfl, List.forall_mem_append] at hnames
    obtain ⟨hstep, hhook⟩ := hook_errors_eq isIdentifierLetter pathMatch parseDuration quoteList
      config h
    exact ⟨plannable_of_visit hresources hprototypes v step hstep hnames.1,
      plannable_of_validate hresources hprototypes _ (.mk hook _) hhook hnames.2⟩

/-- A step whose validation records no error is planned. -/
theorem plannable_of_validate
    (hresources : ctx.resources = config.resources.map fun r => ⟨r.name, r.type⟩)
    (hprototypes : ctx.prototypes = config.prototypes) :
    ∀ (v : StepValidator) (step : Config.Step),
      (StepValidator.validate isIdentifierLetter pathMatch parseDuration quoteList config v step).errors =
        v.errors →
      (∀ name ∈ step.config.getNames, HasVersion ctx name) →
      step.config.plannerConfig.Plannable ctx
  | v, .mk stepConfig _, h, hnames => by
    simp only [StepValidator.validate] at h
    -- the unknown fields are checked before the config
    have hfields := errors_eq_of_isPrefix v (by simp)
      (visit_errors_grow isIdentifierLetter pathMatch parseDuration quoteList config _ stepConfig)
      h
    exact plannable_of_visit hresources hprototypes _ stepConfig (h.trans hfields.symm) hnames

/-- Sub-steps whose validation records no error are planned. -/
theorem plannable_of_validateEach
    (hresources : ctx.resources = config.resources.map fun r => ⟨r.name, r.type⟩)
    (hprototypes : ctx.prototypes = config.prototypes) :
    ∀ (index : Nat → String) (i : Nat) (v : StepValidator) (steps : List Config.Step),
      (StepValidator.validateEach isIdentifierLetter pathMatch parseDuration quoteList config index i v
        steps).errors = v.errors →
      (∀ name ∈ (Config.Step.recursorStepsList steps).filterMap Config.StepConfig.getName?,
        HasVersion ctx name) →
      Builds.StepConfig.PlannableList ctx (Config.Step.plannerConfigs steps)
  | _, _, _, [], _, _ => trivial
  | index, i, v, .mk sub unknownFields :: subs, h, hnames => by
    simp only [Config.Step.recursorStepsList, List.filterMap_append, List.forall_mem_append] at hnames
    simp only [StepValidator.validateEach] at h
    -- the first sub-step is validated before the others: neither recorded an error
    have hfirst := validate_errors_grow isIdentifierLetter pathMatch parseDuration quoteList
      config (v.pushContext (index i)) (.mk sub unknownFields)
    have hsub := errors_eq_of_isPrefix v (by simpa using hfirst)
      (validateEach_errors_grow isIdentifierLetter pathMatch parseDuration quoteList config
        index _ _ subs) h
    exact ⟨plannable_of_validate hresources hprototypes (v.pushContext (index i))
        (.mk sub unknownFields) (by simpa using hsub) hnames.1,
      plannable_of_validateEach hresources hprototypes index _ _ subs (h.trans hsub.symm)
        hnames.2⟩
end

end Bridge

/-- A job of a config whose jobs validate with no error is planned, with the config's resources
and prototypes and inputs that have a version for each of its gets, under every tags and from
every counter: `Planner.Create` answers no `UnknownResourceError`, `UnknownPrototypeError` or
`VersionNotProvidedError`. -/
theorem create_ok_of_validateJobs (isIdentifierLetter : Char → Bool)
    (pathMatch : String → String → Bool) (parseDuration : String → Bool)
    (quoteList : List String → String) (c : Atc.Config) (ctx : PlannerContext)
    (hresources : ctx.resources = c.resources.map fun r => ⟨r.name, r.type⟩)
    (hprototypes : ctx.prototypes = c.prototypes)
    (hvalid : (validateJobs isIdentifierLetter pathMatch parseDuration quoteList c).2 = [])
    (job : JobConfig) (hjob : job ∈ c.jobs)
    (hinputs : ∀ name ∈ job.stepConfig.getNames,
      ((ctx.inputs.find? (·.name == name)).bind (·.version)).isSome)
    (tags : List String) (num : Int) :
    ∃ plan num', create ctx job.stepConfig.plannerConfig tags num = (.ok plan, num') := by
  obtain ⟨context, hjobErrors⟩ :=
    validate_errors_nil_of_validateJobs isIdentifierLetter pathMatch parseDuration quoteList
      hvalid hjob
  have hplannable := plannable_of_validate isIdentifierLetter pathMatch parseDuration quoteList c
    ctx hresources hprototypes (StepValidator.new context) job.step hjobErrors hinputs
  exact visit_ok ctx tags _ num hplannable

/-- A job that gets its repository and runs a check of it. -/
def checkoutJob : JobConfig :=
  ⟨"unit", 0, none, none, none, none, none, none,
    [.mk (.get "repo" "" [] []) [], .mk (.run "check" "linter" []) []]⟩

/-- A pipeline of the job, with the repository and the prototype it uses. -/
def checkoutConfig : Atc.Config :=
  ⟨[⟨"repo", "git"⟩], ["linter"], [checkoutJob]⟩

/-- The planner's view of the pipeline, with a version of the repository. -/
def checkoutContext : PlannerContext :=
  ⟨[⟨"repo", "git"⟩], [], ["linter"], [⟨"repo", some [("ref", "abc")]⟩], false, 60⟩

theorem create_ok_of_validateJobs_checkout :
    ∃ plan num', create checkoutContext checkoutJob.stepConfig.plannerConfig [] 0 =
      (.ok plan, num') :=
  create_ok_of_validateJobs Char.isLower (fun _ _ => false) (fun _ => true) (fun _ => "")
    checkoutConfig checkoutContext rfl rfl (by decide +kernel) checkoutJob (by simp [checkoutConfig])
    (by decide +kernel) [] 0

end Builds
end Concourse
