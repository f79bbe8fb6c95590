import Concourse.Lib.GoJson
import Concourse.Atc.StepConfig

/-!
# Step configuration as JSON

`atc/steps.go`: a step of a pipeline is one flat JSON object whose keys say what it is.
`Step.UnmarshalJSON` tries the step types of `StepPrecedence` in order.  A type whose key is
present decodes the whole object as its struct, and the JSON names of the struct's fields
are deleted from the object's map (`deleteKnownFields`).  A wrapper (`across`, `attempts`,
`timeout` and the hooks) goes on with what is left of the map, re-marshalled with its keys
sorted; a core step ends the chain.  The keys left over are the step's `UnknownFields`.
`Step.MarshalJSON` writes the chain back as one object: the unknown fields, then the fields of
each struct of the chain over them.

Go matches a key to a struct field up to case, while `deleteKnownFields` deletes the exact
JSON names only: a key that sets a field through its case-folded name stays among the unknown
fields and is written back beside the field's own name.  When the field's value is empty,
`omitempty` leaves the field's own name out, and the next decoding reads the folded key alone.

Nested steps (hooks, `try`, `do`, `in_parallel`, `across`) and the types with codecs of their
own (`VersionConfig`, `InputsConfig`, `ContainerLimits`, `TaskConfig`, `TaskEnv`) are held as
the JSON value given.
-/

namespace Concourse
namespace Atc

open GoJson

/-! ## Field types of the step structs -/

/-- `Tags.UnmarshalJSON`: a `[]string` without its empty strings; `null` leaves the tags as
they are. -/
def tagsType : GoType where
  zero := .null
  decode
    | _, .array elems =>
      (elems.mapM GoType.decodeStringElem).map fun tags => .array (tags.filter (· != .string ""))
    | current, .null => .ok current
    | _, v => .error ⟨v.kind, "[]string"⟩
  custom := true
  isEmpty := Value.isEmpty

/-- A type decoded by a codec of its own, held as the JSON value given; as a pointer, it is
empty when nil. -/
def codecType : GoType where
  zero := .null
  decode _ v := .ok v
  custom := true
  isEmpty v := v == .null

/-- A `string` field. -/
def stringField (name : String) (omitempty : Bool) : Field := ⟨name, omitempty, .string⟩

/-- A `bool` field, `omitempty`. -/
def boolField (name : String) : Field := ⟨name, true, .bool⟩

/-- An `atc.Params` field, `omitempty`. -/
def paramsField (name : String) : Field := ⟨name, true, .anyMap "atc.Params"⟩

/-- A field of a type with its own codec. -/
def codecField (name : String) (omitempty : Bool) : Field := ⟨name, omitempty, codecType⟩

/-- The `tags` field, `omitempty`. -/
def tagsField : Field := ⟨"tags", true, tagsType⟩

/-! ## Step types -/

/-- The step types of `StepPrecedence`, by their Go structs. -/
inductive StepType where
  | ensureStep
  | onErrorStep
  | onAbortStep
  | onFailureStep
  | onSuccessStep
  | acrossStep
  | retryStep
  | runStep
  | taskStep
  | putStep
  | getStep
  | timeoutStep
  | setPipelineStep
  | loadVarStep
  | tryStep
  | doStep
  | inParallelStep
  deriving DecidableEq, Repr

namespace StepType

/-- `StepDetector.Key`. -/
def key : StepType → String
  | ensureStep => "ensure"
  | onErrorStep => "on_error"
  | onAbortStep => "on_abort"
  | onFailureStep => "on_failure"
  | onSuccessStep => "on_success"
  | acrossStep => "across"
  | retryStep => "attempts"
  | runStep => "run"
  | taskStep => "task"
  | putStep => "put"
  | getStep => "get"
  | timeoutStep => "timeout"
  | setPipelineStep => "set_pipeline"
  | loadVarStep => "load_var"
  | tryStep => "try"
  | doStep => "do"
  | inParallelStep => "in_parallel"

/-- The name of the Go struct. -/
def structName : StepType → String
  | ensureStep => "EnsureStep"
  | onErrorStep => "OnErrorStep"
  | onAbortStep => "OnAbortStep"
  | onFailureStep => "OnFailureStep"
  | onSuccessStep => "OnSuccessStep"
  | acrossStep => "AcrossStep"
  | retryStep => "RetryStep"
  | runStep => "RunStep"
  | taskStep => "TaskStep"
  | putStep => "PutStep"
  | getStep => "GetStep"
  | timeoutStep => "TimeoutStep"
  | setPipelineStep => "SetPipelineStep"
  | loadVarStep => "LoadVarStep"
  | tryStep => "TryStep"
  | doStep => "DoStep"
  | inParallelStep => "InParallelStep"

/-- Whether the struct is a `StepWrapper`. -/
def isWrapper : StepType → Bool
  | ensureStep | onErrorStep | onAbortStep | onFailureStep | onSuccessStep | acrossStep
  | retryStep | timeoutStep => true
  | runStep | taskStep | putStep | getStep | setPipelineStep | loadVarStep | tryStep | doStep
  | inParallelStep => false

/-- The JSON fields of the struct, in order.  The wrapped step of a wrapper is tagged
`json:"-"` and is not one of them. -/
def fields : StepType → List Field
  | ensureStep => [codecField "ensure" false]
  | onErrorStep => [codecField "on_error" false]
  | onAbortStep => [codecField "on_abort" false]
  | onFailureStep => [codecField "on_failure" false]
  | onSuccessStep => [codecField "on_success" false]
  | acrossStep => [codecField "across" false, boolField "fail_fast"]
  | retryStep => [⟨"attempts", false, .int⟩]
  | runStep =>
    [stringField "run" false, stringField "type" false, paramsField "params",
      boolField "privileged", tagsField, codecField "container_limits" true,
      stringField "timeout" true]
  | taskStep =>
    [stringField "task" false, boolField "privileged", boolField "hermetic",
      stringField "file" true, codecField "container_limits" true, codecField "config" true,
      codecField "params" true, paramsField "vars", tagsField,
      ⟨"input_mapping", true, .stringMap⟩, ⟨"output_mapping", true, .stringMap⟩,
      stringField "image" true, stringField "timeout" true]
  | putStep =>
    [stringField "put" false, stringField "resource" true, paramsField "params",
      codecField "inputs" true, tagsField, paramsField "get_params",
      stringField "timeout" true, boolField "no_get"]
  | getStep =>
    [stringField "get" false, stringField "resource" true, codecField "version" true,
      paramsField "params", ⟨"passed", true, .strings⟩, boolField "trigger", tagsField,
      stringField "timeout" true]
  | timeoutStep => [stringField "timeout" false]
  | setPipelineStep =>
    [stringField "set_pipeline" false, stringField "file" true, stringField "team" true,
      paramsField "vars", ⟨"var_files", true, .strings⟩,
      ⟨"instance_vars", true, .anyMap "atc.InstanceVars"⟩]
  | loadVarStep =>
    [stringField "load_var" false, stringField "file" true, stringField "format" true,
      boolField "reveal"]
  | tryStep => [codecField "try" false]
  | doStep => [codecField "do" false, tagsField]
  | inParallelStep => [codecField "in_parallel" false, tagsField]

end StepType

/-- `StepPrecedence`. -/
def stepPrecedence : List StepType :=
  [.ensureStep, .onErrorStep, .onAbortStep, .onFailureStep, .onSuccessStep, .acrossStep,
    .retryStep, .runStep, .taskStep, .putStep, .getStep, .timeoutStep, .setPipelineStep,
    .loadVarStep, .tryStep, .doStep, .inParallelStep]

/-! ## Steps -/

/-- A step struct of a chain: its type and the values of its JSON fields. -/
structure StepLayer where
  type : StepType
  values : List Value
  deriving DecidableEq, Repr

/-- `Step`: `Config` as the chain from the outermost wrapper to the step it ends in, and
`UnknownFields`, `none` for the nil map. -/
structure Step where
  config : List StepLayer
  unknownFields : Option (List (String × Value))
  deriving DecidableEq, Repr

/-- `ErrNoStepConfigured`. -/
def errNoStepConfigured : String := "no step configured"

/-- `ErrNoCoreStepDeclared`. -/
def errNoCoreStepDeclared : String := "no core step type declared (e.g. get, put, task, etc.)"

/-- `deleteKnownFields`: the JSON names of the struct's fields are deleted from the map. -/
def deleteKnownFields (rawStepConfig : List (String × Value)) (stepType : StepType) :
    List (String × Value) :=
  stepType.fields.foldl (fun raw field => mapDelete raw field.name) rawStepConfig

/-- The loop of `Step.UnmarshalJSON` over the step types left in `StepPrecedence`, with the
object the structs are decoded from and the map of the keys not claimed yet: the structs
found, the keys left, and whether a core step ended the chain. -/
def unmarshalLoop (foldRune : Char → Char) :
    List StepType → List (String × Value) → List (String × Value) →
      Except String (List StepLayer × List (String × Value) × Bool)
  | [], _, rawStepConfig => .ok ([], rawStepConfig, false)
  | s :: rest, data, rawStepConfig =>
    if (rawStepConfig.lookup s.key).isNone then unmarshalLoop foldRune rest data rawStepConfig
    else
      match decodeStruct foldRune s.structName s.fields data with
      | .error err => .error ("malformed " ++ s.key ++ " step: " ++ err)
      | .ok values =>
        let rawStepConfig := deleteKnownFields rawStepConfig s
        if s.isWrapper then
          -- the wrapped step is decoded from the keys left, re-marshalled in key order
          (unmarshalLoop foldRune rest rawStepConfig rawStepConfig).map
            fun (layers, rawStepConfig, core) => (⟨s, values⟩ :: layers, rawStepConfig, core)
        else .ok ([⟨s, values⟩], rawStepConfig, true)

/-- `json.Unmarshal(data, &rawStepConfig)`: the members of an object and its map, none for
`null`. -/
def rawStepConfigOf : Value → Except String (List (String × Value) × List (String × Value))
  | .object members => .ok (members, mapAssign [] members)
  | .null => .ok ([], [])
  | v => .error ("json: cannot unmarshal " ++ v.kind ++
      " into Go value of type map[string]*json.RawMessage")

/-- `Step.UnmarshalJSON`. -/
def Step.unmarshalJSON (foldRune : Char → Char) (data : Value) : Except String Step :=
  match rawStepConfigOf data with
  | .error err => .error err
  | .ok (members, rawStepConfig) =>
    match unmarshalLoop foldRune stepPrecedence members rawStepConfig with
    | .error err => .error err
    | .ok ([], _, _) => .error errNoStepConfigured
    | .ok (_, _, false) => .error errNoCoreStepDeclared
    | .ok (config, rawStepConfig, true) =>
      .ok ⟨config, if rawStepConfig.isEmpty then none else some rawStepConfig⟩

/-- `json.Marshal` of a step struct. -/
def StepLayer.marshal (layer : StepLayer) : List (String × Value) :=
  encodeStruct layer.type.fields layer.values

/-- The loop of `Step.MarshalJSON`: each struct's fields are assigned into the map, down to
the first struct that is not a wrapper. -/
def marshalLayers : List StepLayer → List (String × Value) → List (String × Value)
  | [], fields => fields
  | layer :: layers, fields =>
    let fields := mapAssign fields layer.marshal
    if layer.type.isWrapper then marshalLayers layers fields else fields

/-- `Step.MarshalJSON`: the map of the unknown fields and the chain's fields, in key order;
the nil map of a step with neither is `null`. -/
def Step.marshalJSON (step : Step) : Value :=
  match step.config, step.unknownFields with
  | [], none => .null
  | config, unknownFields => .object (marshalLayers config (unknownFields.getD []))

/-- `{"get": "x", "Trigger": true, "trigger": false}`: `Trigger` sets the field `trigger`
through its folded name and `trigger` sets it back; `Trigger` stays an unknown field.  The
encoding leaves out the empty `trigger`, and decoding it sets `trigger` from `Trigger`. -/
theorem unmarshalJSON_marshalJSON_folded_key (foldRune : Char → Char) :
    let o : Value := .object [("get", .string "x"), ("Trigger", .bool true), ("trigger", .bool false)]
    let getValues (trigger : Bool) : List Value :=
      [.string "x", .string "", .null, .null, .null, .bool trigger, .null, .string ""]
    Step.unmarshalJSON foldRune o =
        .ok ⟨[⟨.getStep, getValues false⟩], some [("Trigger", .bool true)]⟩ ∧
      Step.marshalJSON ⟨[⟨.getStep, getValues false⟩], some [("Trigger", .bool true)]⟩ =
        .object [("Trigger", .bool true), ("get", .string "x")] ∧
      Step.unmarshalJSON foldRune (.object [("Trigger", .bool true), ("get", .string "x")]) =
        .ok ⟨[⟨.getStep, getValues true⟩], some [("Trigger", .bool true)]⟩ := by
  refine ⟨rfl, rfl, rfl⟩

end Atc
end Concourse
