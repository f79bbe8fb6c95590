import Mathlib.Data.List.Basic

/-!
# Pipeline configs as the validator reads them

`atc/steps.go` and `atc/config.go`: a pipeline config has resources, prototypes and jobs,
and a job's plan is a sequence of steps wrapped in its hooks (`JobConfig.StepConfig`).  A
`Step` is a step config with the unknown fields its JSON had; the wrappers hold the config
they wrap, and a hook or a sub-step of `do`, `in_parallel` and `try` is a whole `Step`.

Each step keeps the fields `StepValidator` and `planVisitor` read.  What `TaskConfig.Validate`
answers for a task's config is kept as a field of it: its checks of the platform, the image,
`run` and the inputs are not modelled.  `StepRecursor` calls its hooks on the leaf steps of a
config, in order, through every wrapper and hook (`recursorSteps`).
-/

namespace Concourse

namespace Atc

/-- `MaxInFlightConfig`: every step at once, or a limit. -/
structure MaxInFlightConfig where
  all : Bool
  limit : Int
  deriving DecidableEq, Repr

/-- `MaxInFlightConfig.EffectiveLimit` of a pointer to a config, for `numSteps` steps: a nil
config runs one at a time. -/
def MaxInFlightConfig.effectiveLimit : Option MaxInFlightConfig → Nat → Int
  | none, _ => 1
  | some c, numSteps => if c.all then numSteps else c.limit

namespace Config

/-- The parts of a `TaskConfig` the validator reads, and the messages of `TaskConfig.Validate`
on it. -/
structure TaskConfig where
  rootfsURI : String
  hasImageResource : Bool
  unknownFields : List String
  validateErrors : List String
  deriving DecidableEq, Repr

/-- `AcrossVarConfig`: the var and its `max_in_flight`; the values are not read. -/
structure AcrossVarConfig where
  var : String
  maxInFlight : Option MaxInFlightConfig
  deriving DecidableEq, Repr

mutual
/-- The step configs of `atc/steps.go`. -/
inductive StepConfig where
  | task (name configPath : String) (config : Option TaskConfig) (imageArtifactName : String)
      (hermetic : Bool) (tags : List String)
  | run (message type : String) (tags : List String)
  | get (name resource : String) (passed tags : List String)
  | put (name resource : String) (tags : List String) (noGet : Bool)
  | setPipeline (name file : String)
  | loadVar (name file : String)
  | tryStep (step : Step)
  | doStep (steps : List Step) (tags : List String)
  | inParallel (steps : List Step) (limit : Int) (failFast : Bool) (tags : List String)
  | across (vars : List AcrossVarConfig) (step : StepConfig) (failFast : Bool)
  | timeout (step : StepConfig) (duration : String)
  | retry (step : StepConfig) (attempts : Int)
  | onSuccess (step : StepConfig) (hook : Step)
  | onFailure (step : StepConfig) (hook : Step)
  | onAbort (step : StepConfig) (hook : Step)
  | onError (step : StepConfig) (hook : Step)
  | ensure (step : StepConfig) (hook : Step)

/-- `Step`: a step config, and the names of the unknown fields of its JSON. -/
inductive Step where
  | mk (config : StepConfig) (unknownFields : List String)
end

/-- `Step.Config`. -/
def Step.config : Step → StepConfig
  | .mk config _ => config

/-- `Step.UnknownFields`. -/
def Step.unknownFields : Step → List String
  | .mk _ unknownFields => unknownFields

/-- `ResourceName` of a get or a put: its `resource`, else its name. -/
def resourceName (name resource : String) : String :=
  if resource ≠ "" then resource else name

mutual
/-- The steps `StepRecursor` calls a hook on, in the order it visits them. -/
def StepConfig.recursorSteps : StepConfig → List StepConfig
  | .tryStep (.mk config _) => config.recursorSteps
  | .doStep steps _ => Step.recursorStepsList steps
  | .inParallel steps _ _ _ => Step.recursorStepsList steps
  | .across _ step _ => step.recursorSteps
  | .timeout step _ => step.recursorSteps
  | .retry step _ => step.recursorSteps
  | .onSuccess step (.mk hook _) => step.recursorSteps ++ hook.recursorSteps
  | .onFailure step (.mk hook _) => step.recursorSteps ++ hook.recursorSteps
  | .onAbort step (.mk hook _) => step.recursorSteps ++ hook.recursorSteps
  | .onError step (.mk hook _) => step.recursorSteps ++ hook.recursorSteps
  | .ensure step (.mk hook _) => step.recursorSteps ++ hook.recursorSteps
  | leaf => [leaf]

/-- The steps `StepRecursor` calls a hook on, in each step of a list. -/
def Step.recursorStepsList : List Step → List StepConfig
  | [] => []
  | .mk config _ :: steps => config.recursorSteps ++ Step.recursorStepsList steps
end

/-- The resources a `StepRecursor` with `OnGet` and `OnPut` hooks sees: each get's and put's
`ResourceName()`. -/
def StepConfig.resourcesTouched (config : StepConfig) : List String :=
  config.recursorSteps.filterMap fun
    | .get name resource _ _ => some (resourceName name resource)
    | .put name resource _ _ => some (resourceName name resource)
    | _ => none

/-- The name of a get, the input `JobConfig.Inputs` makes of it. -/
def StepConfig.getName? : StepConfig → Option String
  | .get name _ _ _ => some name
  | _ => none

/-- The names of the gets a `StepRecursor` with an `OnGet` hook sees, as `JobConfig.Inputs`
lists them. -/
def StepConfig.getNames (config : StepConfig) : List String :=
  config.recursorSteps.filterMap StepConfig.getName?

/-- `BuildLogRetention`. -/
structure BuildLogRetention where
  builds : Int
  minimumSucceededBuilds : Int
  days : Int
  deriving DecidableEq, Repr

/-- `JobConfig`, with the fields the validation of jobs reads. -/
structure JobConfig where
  name : String
  buildLogsToRetain : Int
  buildLogRetention : Option BuildLogRetention
  onSuccess : Option Step
  onFailure : Option Step
  onAbort : Option Step
  onError : Option Step
  ensure : Option Step
  planSequence : List Step

/-- `JobConfig.StepConfig`: the plan as a `do`, wrapped in the hooks that are set, the
`ensure` outermost. -/
def JobConfig.stepConfig (config : JobConfig) : StepConfig :=
  let step := StepConfig.doStep config.planSequence []
  let step := match config.onSuccess with
    | some hook => .onSuccess step hook
    | none => step
  let step := match config.onFailure with
    | some hook => .onFailure step hook
    | none => step
  let step := match config.onAbort with
    | some hook => .onAbort step hook
    | none => step
  let step := match config.onError with
    | some hook => .onError step hook
    | none => step
  match config.ensure with
  | some hook => .ensure step hook
  | none => step

/-- `JobConfig.Step`. -/
def JobConfig.step (config : JobConfig) : Step :=
  .mk config.stepConfig []

end Config

/-- `ResourceConfig`: its name and type. -/
structure ResourceConfig where
  name : String
  type : String
  deriving DecidableEq, Repr

/-- `Config`: the parts of a pipeline config the validation of jobs and the planner read. -/
structure Config where
  resources : List ResourceConfig
  prototypes : List String
  jobs : List Config.JobConfig

end Atc
end Concourse
