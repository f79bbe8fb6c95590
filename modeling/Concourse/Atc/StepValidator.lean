import Concourse.Atc.StepConfig
import Concourse.Lib.GoText

/-!
# The validation of a pipeline's jobs

`configvalidate.validateJobs` checks each job's name and log retention, and runs a
`StepValidator` on the job's plan (`atc/step_validator.go`).  The validator walks the steps as
a visitor with a state: the warnings and errors it has recorded, a context of path segments
that prefixes every message (`jobs.main.plan.do[0].get(repo)`), the names of the gets seen so
far, and a stack of scopes of local vars.  Every visit answers `nil`, so that the visitor's
errors are the whole outcome; each check records at most one message, and the errors only
ever grow.

Of Go's libraries the validator calls `path.Match`, `time.ParseDuration`, the Unicode letter
classes of its identifier pattern and the `%+q` verb of `fmt`; they are the parameters
`pathMatch`, `parseDuration`, `isIdentifierLetter` and `quoteList`.
-/

namespace Concourse

namespace Atc

open Config

/-- `ConfigWarning`. -/
structure ConfigWarning where
  type : String
  message : String
  deriving DecidableEq, Repr

/-! ## Identifiers -/

section Identifier

variable (isIdentifierLetter : Char → Bool)

/-- `[\p{Ll}\p{Lt}\p{Lm}\p{Lo}\d]`: the characters an identifier may start with. -/
def isIdentifierStart (c : Char) : Bool :=
  isIdentifierLetter c || c.isDigit

/-- `[\p{Ll}\p{Lt}\p{Lm}\p{Lo}\d\-_.]`: the characters an identifier may hold. -/
def isIdentifierChar (c : Char) : Bool :=
  isIdentifierStart isIdentifierLetter c || c == '-' || c == '_' || c == '.'

/-- The contexts `ValidateIdentifier` skips: a `set_pipeline` or a `task` right under an
`across`. -/
def skipsIdentifier (context : List String) : Bool :=
  match context.reverse with
  | last :: previous :: _ =>
    (GoText.contains last.toList "set_pipeline".toList ||
        GoText.contains last.toList "task".toList) &&
      previous == ".across"
  | _ => false

/-- `ValidateIdentifier`: a warning for an identifier of the wrong shape, and an error for the
empty one.  Of an identifier that starts well, the first character after the first that it
may not hold is named.  The identifier is read by characters, not by bytes. -/
def validateIdentifier (identifier : String) (context : List String) :
    Option ConfigWarning × Option String :=
  let ctx := String.join context
  let chars := identifier.toList
  if identifier = "" then (none, some (ctx ++ ": identifier cannot be an empty string"))
  else if skipsIdentifier context then (none, none)
  else if chars.all Char.isDigit then
    (some ⟨"invalid_identifier",
      ctx ++ ": '" ++ identifier ++ "' is not a valid identifier: cannot be just numbers"⟩, none)
  else if !(chars.head?.all (isIdentifierStart isIdentifierLetter) &&
      (chars.drop 1).all (isIdentifierChar isIdentifierLetter)) then
    let reason :=
      if !chars.head?.all (isIdentifierStart isIdentifierLetter) then
        "must start with a lowercase letter or a number"
      else
        match (chars.drop 1).find? (fun c => !isIdentifierChar isIdentifierLetter c) with
        | some c => "illegal character '" ++ c.toString ++ "'"
        | none => ""
    (some ⟨"invalid_identifier",
      ctx ++ ": '" ++ identifier ++ "' is not a valid identifier: " ++ reason⟩, none)
  else (none, none)

end Identifier

/-! ## The validator's state -/

/-- `StepValidator`: its outcome, its context, and its scopes; `seenGetName` and each scope
are sets of names. -/
structure StepValidator where
  warnings : List ConfigWarning
  errors : List String
  context : List String
  seenGetName : List String
  localVarScopes : List (List String)

namespace StepValidator

/-- `NewStepValidator`. -/
def new (context : List String) : StepValidator :=
  ⟨[], [], context, [], [[]]⟩

/-- `annotate`: the message after the context. -/
def annotate (v : StepValidator) (message : String) : String :=
  String.join v.context ++ ": " ++ message

/-- `recordWarning`. -/
def recordWarning (v : StepValidator) (warning : ConfigWarning) : StepValidator :=
  { v with warnings := v.warnings ++ [warning] }

/-- `recordError`, with the message annotated. -/
def recordError (v : StepValidator) (message : String) : StepValidator :=
  { v with errors := v.errors ++ [v.annotate message] }

/-- `if cond { validator.recordError(message) }`. -/
def recordErrorIf (v : StepValidator) (cond : Bool) (message : String) : StepValidator :=
  if cond then v.recordError message else v

/-- A warning recorded when there is one. -/
def recordWarningIf (v : StepValidator) (warning : Option ConfigWarning) : StepValidator :=
  match warning with
  | some w => v.recordWarning w
  | none => v

/-- `pushContext` and `pushContextf`. -/
def pushContext (v : StepValidator) (ctx : String) : StepValidator :=
  { v with context := v.context ++ [ctx] }

/-- `popContext`. -/
def popContext (v : StepValidator) : StepValidator :=
  { v with context := v.context.dropLast }

/-- `pushLocalVarScope`. -/
def pushLocalVarScope (v : StepValidator) : StepValidator :=
  { v with localVarScopes := v.localVarScopes ++ [[]] }

/-- `popLocalVarScope`. -/
def popLocalVarScope (v : StepValidator) : StepValidator :=
  { v with localVarScopes := v.localVarScopes.dropLast }

/-- `localVarIsDeclared`: in any scope. -/
def localVarIsDeclared (v : StepValidator) (name : String) : Bool :=
  v.localVarScopes.any fun scope => scope.contains name

/-- `declareLocalVar`: an error when the innermost scope has the name, a warning when an
outer one has it; the name joins the innermost scope. -/
def declareLocalVar (v : StepValidator) (name : String) : StepValidator :=
  let current := v.localVarScopes.getLastD []
  let v :=
    if current.contains name then v.recordError "repeated var name"
    else if v.localVarIsDeclared name then
      v.recordWarning ⟨"var_shadowed", v.annotate ("shadows local var '" ++ name ++ "'")⟩
    else v
  { v with localVarScopes := v.localVarScopes.dropLast ++ [name :: current] }

/-- The outcome of `ValidateIdentifier` recorded: its error, annotated once more, and its
warning. -/
def recordIdentifier (v : StepValidator) (result : Option ConfigWarning × Option String) :
    StepValidator :=
  let v := match result.2 with
    | some err => v.recordError err
    | none => v
  v.recordWarningIf result.1

/-! ### The errors each operation records

A check appends at most one message, and nothing else touches the errors: each operation's
errors are those it was given, followed by what it recorded. -/

section Errors

variable (v : StepValidator)

@[simp] theorem recordWarning_errors (warning : ConfigWarning) :
    (v.recordWarning warning).errors = v.errors := rfl

@[simp] theorem recordError_errors (message : String) :
    (v.recordError message).errors = v.errors ++ [v.annotate message] := rfl

@[simp] theorem recordError_context (message : String) :
    (v.recordError message).context = v.context := rfl

@[simp] theorem recordErrorIf_errors (cond : Bool) (message : String) :
    (v.recordErrorIf cond message).errors =
      v.errors ++ if cond then [v.annotate message] else [] := by
  cases cond <;> simp [recordErrorIf]

@[simp] theorem recordWarningIf_errors (warning : Option ConfigWarning) :
    (v.recordWarningIf warning).errors = v.errors := by
  cases warning <;> rfl

@[simp] theorem pushContext_errors (ctx : String) : (v.pushContext ctx).errors = v.errors := rfl

@[simp] theorem popContext_errors : v.popContext.errors = v.errors := rfl

@[simp] theorem pushLocalVarScope_errors : v.pushLocalVarScope.errors = v.errors := rfl

@[simp] theorem popLocalVarScope_errors : v.popLocalVarScope.errors = v.errors := rfl

@[simp] theorem declareLocalVar_errors (name : String) :
    (v.declareLocalVar name).errors =
      v.errors ++ if (v.localVarScopes.getLastD []).contains name
        then [v.annotate "repeated var name"] else [] := by
  unfold declareLocalVar
  split_ifs <;> simp_all

@[simp] theorem recordIdentifier_errors (result : Option ConfigWarning × Option String) :
    (v.recordIdentifier result).errors = v.errors ++ (result.2.map v.annotate).toList := by
  obtain ⟨warning, _ | err⟩ := result <;> simp [recordIdentifier]

/-- Messages recorded one after the other all follow the errors there were. -/
theorem foldl_recordError_errors (messages : List String) :
    (messages.foldl recordError v).errors = v.errors ++ messages.map v.annotate := by
  induction messages generalizing v with
  | nil => simp
  | cons message messages ih =>
    rw [List.foldl_cons, ih]
    simp [annotate]

/-- Errors that only grow, and end as they began, never grew in between. -/
theorem errors_eq_of_isPrefix {w u : StepValidator} (h₁ : v.errors <+: w.errors)
    (h₂ : w.errors <+: u.errors) (h : u.errors = v.errors) : w.errors = v.errors :=
  (h₁.eq_of_length (Nat.le_antisymm h₁.length_le (h ▸ h₂.length_le))).symm

/-- A check made in a run that records no error failed: its condition was false. -/
theorem cond_eq_false_of_errors_eq {w : StepValidator} {cond : Bool} {message : String}
    (hw : v.errors <+: w.errors) (h : (w.recordErrorIf cond message).errors = v.errors) :
    cond = false := by
  have hlen := congrArg List.length h
  have hw := hw.length_le
  cases cond
  · rfl
  · simp at hlen
    omega

end Errors

/-! ## The visits -/

section Visit

variable (isIdentifierLetter : Char → Bool) (pathMatch : String → String → Bool)
  (parseDuration : String → Bool) (quoteList : List String → String) (config : Config)

/-- The `passed` constraints of a get of `resourceName`: each glob matches a job, and each job
it matches has a get or a put of the resource. -/
def validatePassed (resourceName : String) (v : StepValidator) (passed : List String) :
    StepValidator :=
  passed.foldl
    (fun v jobGlob =>
      let (v, foundJob) := config.jobs.foldl
        (fun (acc : StepValidator × Bool) jobConfig =>
          if pathMatch jobGlob jobConfig.name then
            (acc.1.recordErrorIf (!(jobConfig.stepConfig.resourcesTouched.contains resourceName))
              ("job '" ++ jobConfig.name ++ "' does not interact with resource '" ++
                resourceName ++ "'"), true)
          else acc)
        (v, false)
      v.recordErrorIf (!foundJob) ("no matching job(s) for '" ++ jobGlob ++ "'"))
    v

/-- `VisitTask`. -/
def visitTask (v : StepValidator) (name configPath : String) (taskConfig : Option TaskConfig)
    (imageArtifactName : String) (hermetic : Bool) : StepValidator :=
  let v := v.pushContext (".task(" ++ name ++ ")")
  let v := v.recordIdentifier (validateIdentifier isIdentifierLetter name v.context)
  let v := v.recordErrorIf (taskConfig.isNone && configPath == "")
    "must specify either `file:` or `config:`"
  let v := v.recordErrorIf (taskConfig.isSome && configPath != "")
    "must specify one of `file:` or `config:`, not both"
  let v := match taskConfig with
    | some c =>
      if (c.rootfsURI != "" || c.hasImageResource) && imageArtifactName != "" then
        v.recordWarning ⟨"pipeline", v.annotate ("specifies image: on the step but also " ++
          "specifies an image under config: - the image: on the step takes precedence")⟩
      else v
    | none => v
  let v := if hermetic then
      v.recordWarning ⟨"pipeline",
        v.annotate "specifies `hermetic:` only works against worker containerd runtime"⟩
    else v
  let v := match taskConfig with
    | some c =>
      let v := v.pushContext ".config"
      let v := v.recordErrorIf (!c.unknownFields.isEmpty) ("unknown fields " ++ quoteList c.unknownFields)
      let v := c.validateErrors.foldl recordError v
      v.popContext
    | none => v
  v.popContext

/-- `VisitGet`. -/
def visitGet (v : StepValidator) (name resource : String) (passed : List String) :
    StepValidator :=
  let v := v.pushContext (".get(" ++ name ++ ")")
  let v := v.recordIdentifier (validateIdentifier isIdentifierLetter name v.context)
  let v := v.recordErrorIf (v.seenGetName.contains name) "repeated name"
  let v := { v with seenGetName := name :: v.seenGetName }
  let resourceName := resourceName name resource
  let v := v.recordErrorIf (config.resources.find? (·.name == resourceName)).isNone
    ("unknown resource '" ++ resourceName ++ "'")
  let v := v.pushContext ".passed"
  let v := validatePassed pathMatch config resourceName v passed
  let v := v.popContext
  v.popContext

/-- `VisitPut`. -/
def visitPut (v : StepValidator) (name resource : String) : StepValidator :=
  let v := v.pushContext (".put(" ++ name ++ ")")
  let v := v.recordIdentifier (validateIdentifier isIdentifierLetter name v.context)
  let resourceName := resourceName name resource
  let v := v.recordErrorIf (config.resources.find? (·.name == resourceName)).isNone
    ("unknown resource '" ++ resourceName ++ "'")
  v.popContext

/-- `VisitRun`: a warning about the message is an error here. -/
def visitRun (v : StepValidator) (message type : String) : StepValidator :=
  let v := v.pushContext (".run(" ++ type ++ "." ++ message ++ ")")
  let result := validateIdentifier isIdentifierLetter message v.context
  let v := match result.2 with
    | some err => v.recordError err
    | none => v
  let v := match result.1 with
    | some warning => v.recordError warning.message
    | none => v
  let v := v.recordErrorIf (!config.prototypes.contains type) ("unknown prototype '" ++ type ++ "'")
  v.popContext

/-- `VisitSetPipeline`. -/
def visitSetPipeline (v : StepValidator) (name file : String) : StepValidator :=
  let v := v.pushContext (".set_pipeline(" ++ name ++ ")")
  let v := v.recordIdentifier (validateIdentifier isIdentifierLetter name v.context)
  let v := v.recordErrorIf (file == "") "no file specified"
  v.popContext

/-- `VisitLoadVar`. -/
def visitLoadVar (v : StepValidator) (name file : String) : StepValidator :=
  let v := v.pushContext (".load_var(" ++ name ++ ")")
  let v := v.recordIdentifier (validateIdentifier isIdentifierLetter name v.context)
  let v := v.declareLocalVar name
  let v := v.recordErrorIf (file == "") "no file specified"
  v.popContext

/-- The vars of `VisitAcross`: each declared, with its `max_in_flight` checked. -/
def visitAcrossVars (v : StepValidator) (vars : List AcrossVarConfig) : StepValidator :=
  (vars.zipIdx.foldl
    (fun v vi =>
      let v := v.pushContext ("[" ++ toString vi.2 ++ "]")
      let v := v.declareLocalVar vi.1.var
      let v := v.pushContext ".max_in_flight"
      let v := v.recordErrorIf
        (match vi.1.maxInFlight with
          | some m => !m.all && decide (m.limit ≤ 0)
          | none => false)
        "must be greater than 0"
      v.popContext.popContext)
    v)

mutual
/-- `Visit` of the validator on a step config. -/
def visit (v : StepValidator) : StepConfig → StepValidator
  | .task name configPath taskConfig imageArtifactName hermetic _ =>
    visitTask isIdentifierLetter quoteList v name configPath taskConfig imageArtifactName hermetic
  | .run message type _ => visitRun isIdentifierLetter config v message type
  | .get name resource passed _ => visitGet isIdentifierLetter pathMatch config v name resource passed
  | .put name resource _ _ => visitPut isIdentifierLetter config v name resource
  | .setPipeline name file => visitSetPipeline isIdentifierLetter v name file
  | .loadVar name file => visitLoadVar isIdentifierLetter v name file
  | .tryStep step => (validate (v.pushContext ".try") step).popContext
  | .doStep steps _ => (validateEach (fun i => "[" ++ toString i ++ "]") 0 (v.pushContext ".do") steps).popContext
  | .inParallel steps _ _ _ =>
    (validateEach (fun i => ".steps[" ++ toString i ++ "]") 0 (v.pushContext ".in_parallel")
      steps).popContext
  | .across vars step _ =>
    -- the sub-step is visited in the scope of the vars, and under `.across`
    let v := (v.pushContext ".across").pushLocalVarScope
    let v := v.recordErrorIf vars.isEmpty "no vars specified"
    let v := visitAcrossVars v vars
    (visit v step).popLocalVarScope.popContext
  | .timeout step duration =>
    let v := (visit v step).pushContext ".timeout"
    (v.recordErrorIf (!parseDuration duration) ("invalid duration '" ++ duration ++ "'")).popContext
  | .retry step attempts =>
    let v := (visit v step).pushContext ".attempts"
    (v.recordErrorIf (decide (attempts ≤ 0)) "must be greater than 0").popContext
  | .onSuccess step hook => (validate ((visit v step).pushContext ".on_success") hook).popContext
  | .onFailure step hook => (validate ((visit v step).pushContext ".on_failure") hook).popContext
  | .onAbort step hook => (validate ((visit v step).pushContext ".on_abort") hook).popContext
  | .onError step hook => (validate ((visit v step).pushContext ".on_error") hook).popContext
  | .ensure step hook => (validate ((visit v step).pushContext ".ensure") hook).popContext

/-- `Validate`: the step's unknown fields, then its config. -/
def validate (v : StepValidator) : Step → StepValidator
  | .mk stepConfig unknownFields =>
    visit (v.recordErrorIf (!unknownFields.isEmpty) ("unknown fields " ++ quoteList unknownFields))
      stepConfig

/-- The loops of `VisitDo` and `VisitInParallel`: each sub-step validated under its index,
from index `i`. -/
def validateEach (ctx : Nat → String) (i : Nat) (v : StepValidator) : List Step → StepValidator
  | [] => v
  | sub :: subs => validateEach ctx (i + 1) (validate (v.pushContext (ctx i)) sub).popContext subs
end

/-! ### The errors only grow -/

/-- A fold of steps that only add errors only adds errors. -/
theorem foldl_errors_grow {σ α : Type} (errors : σ → List String) (f : σ → α → σ)
    (hf : ∀ s a, errors s <+: errors (f s a)) :
    ∀ (s : σ) (as : List α), errors s <+: errors (as.foldl f s)
  | _, [] => List.prefix_refl _
  | s, a :: as => (hf s a).trans (foldl_errors_grow errors f hf (f s a) as)

/-- A fold that appends what each step records ends with nothing recorded only if some state
had each step record nothing. -/
theorem foldl_errors_nil {σ α : Type} (errors : σ → List String) (f : σ → α → σ)
    (recorded : σ → α → List String) (hf : ∀ s a, errors (f s a) = errors s ++ recorded s a) :
    ∀ (s : σ) (as : List α), errors (as.foldl f s) = [] → ∀ a ∈ as, ∃ s', recorded s' a = []
  | _, [], _ => by simp
  | s, a :: as, h => by
    have hgrow : ∀ s a, errors s <+: errors (f s a) := fun s a => by simp [hf]
    have hrest := foldl_errors_grow errors f hgrow (f s a) as
    rw [List.foldl_cons] at h
    rw [h] at hrest
    have hnil : errors (f s a) = [] := List.prefix_nil.mp hrest
    intro b hb
    rcases List.mem_cons.mp hb with rfl | hb
    · exact ⟨s, (List.append_eq_nil_iff.mp ((hf s b).symm.trans hnil)).2⟩
    · exact foldl_errors_nil errors f recorded hf (f s a) as h b hb

theorem validatePassed_errors_grow (resourceName : String) (v : StepValidator)
    (passed : List String) :
    v.errors <+: (validatePassed pathMatch config resourceName v passed).errors := by
  refine foldl_errors_grow StepValidator.errors _ (fun v jobGlob => ?_) v passed
  -- the jobs the glob matches are checked one after the other, then the glob itself
  split
  next w found hfold =>
    have hw : (config.jobs.foldl _ (v, false)).1.errors = w.errors :=
      congrArg (fun acc : StepValidator × Bool => acc.1.errors) hfold
    have hjobs : v.errors <+: w.errors := by
      rw [← hw]
      exact foldl_errors_grow (fun acc : StepValidator × Bool => acc.1.errors) _
        (fun acc jobConfig => by split <;> simp) (v, false) config.jobs
    exact hjobs.trans (by simp)

theorem visitAcrossVars_errors_grow (v : StepValidator) (vars : List AcrossVarConfig) :
    v.errors <+: (visitAcrossVars v vars).errors :=
  foldl_errors_grow StepValidator.errors _ (fun _ _ => by simp) v vars.zipIdx

theorem visitTask_errors_grow (v : StepValidator) (name configPath : String)
    (taskConfig : Option TaskConfig) (imageArtifactName : String) (hermetic : Bool) :
    v.errors <+: (visitTask isIdentifierLetter quoteList v name configPath taskConfig
      imageArtifactName hermetic).errors := by
  cases taskConfig <;> cases hermetic <;> simp [visitTask, apply_ite StepValidator.errors,
    foldl_recordError_errors]

theorem visitGet_errors_grow (v : StepValidator) (name resource : String)
    (passed : List String) :
    v.errors <+: (visitGet isIdentifierLetter pathMatch config v name resource passed).errors := by
  simp only [visitGet, popContext_errors]
  exact List.IsPrefix.trans (by simp) (validatePassed_errors_grow pathMatch config _ _ passed)

theorem visitPut_errors_grow (v : StepValidator) (name resource : String) :
    v.errors <+: (visitPut isIdentifierLetter config v name resource).errors := by
  simp [visitPut]

theorem visitRun_errors_grow (v : StepValidator) (message type : String) :
    v.errors <+: (visitRun isIdentifierLetter config v message type).errors := by
  simp only [visitRun]
  split <;> split <;> simp

theorem visitSetPipeline_errors_grow (v : StepValidator) (name file : String) :
    v.errors <+: (visitSetPipeline isIdentifierLetter v name file).errors := by
  simp [visitSetPipeline]

theorem visitLoadVar_errors_grow (v : StepValidator) (name file : String) :
    v.errors <+: (visitLoadVar isIdentifierLetter v name file).errors := by
  simp [visitLoadVar]

mutual
/-- The visit of a step only adds errors. -/
theorem visit_errors_grow : ∀ (v : StepValidator) (step : StepConfig),
    v.errors <+:
      (visit isIdentifierLetter pathMatch parseDuration quoteList config v step).errors
  | v, .task .. => visitTask_errors_grow isIdentifierLetter quoteList v ..
  | v, .run .. => visitRun_errors_grow isIdentifierLetter config v ..
  | v, .get .. => visitGet_errors_grow isIdentifierLetter pathMatch config v ..
  | v, .put .. => visitPut_errors_grow isIdentifierLetter config v ..
  | v, .setPipeline .. => visitSetPipeline_errors_grow isIdentifierLetter v ..
  | v, .loadVar .. => visitLoadVar_errors_grow isIdentifierLetter v ..
  | v, .tryStep step => by
    simp only [visit, popContext_errors]
    exact validate_errors_grow (StepValidator.pushContext _ _) step
  | v, .doStep steps _ | v, .inParallel steps _ _ _ => by
    simp only [visit, popContext_errors]
    exact validateEach_errors_grow _ 0 (StepValidator.pushContext _ _) steps
  | v, .across vars step _ => by
    simp only [visit, popContext_errors, popLocalVarScope_errors]
    exact List.IsPrefix.trans
      ((List.IsPrefix.trans (by simp) (visitAcrossVars_errors_grow _ vars)))
      (visit_errors_grow _ step)
  | v, .timeout step _ | v, .retry step _ => by
    simpa [visit] using (visit_errors_grow v step).trans (List.prefix_append _ _)
  | v, .onSuccess step hook | v, .onFailure step hook | v, .onAbort step hook
  | v, .onError step hook | v, .ensure step hook => by
    simp only [visit, popContext_errors]
    exact (visit_errors_grow v step).trans
      (validate_errors_grow (StepValidator.pushContext _ _) hook)

/-- The validation of a step only adds errors. -/
theorem validate_errors_grow : ∀ (v : StepValidator) (step : Step),
    v.errors <+:
      (validate isIdentifierLetter pathMatch parseDuration quoteList config v step).errors
  | v, .mk stepConfig _ =>
    List.IsPrefix.trans (by simp) (visit_errors_grow _ stepConfig)

/-- The validation of the sub-steps only adds errors. -/
theorem validateEach_errors_grow (ctx : Nat → String) : ∀ (i : Nat) (v : StepValidator)
    (steps : List Step), v.errors <+:
      (validateEach isIdentifierLetter pathMatch parseDuration quoteList config ctx i v steps).errors
  | _, _, [] => List.prefix_refl _
  | i, v, sub :: subs =>
    List.IsPrefix.trans (by simpa using validate_errors_grow (v.pushContext (ctx i)) sub)
      (validateEach_errors_grow ctx (i + 1) _ subs)
end

/-! ### What a visit that records no error has checked -/

/-- A get that records no error names a resource of the config. -/
theorem visitGet_resource_found {v : StepValidator} {name resource : String}
    {passed : List String}
    (h : (visitGet isIdentifierLetter pathMatch config v name resource passed).errors = v.errors) :
    (config.resources.find? (·.name == resourceName name resource)).isSome := by
  simp only [visitGet, popContext_errors] at h
  -- the checks of `passed` come after that of the resource
  have hpassed := errors_eq_of_isPrefix v (by simp)
    (validatePassed_errors_grow pathMatch config _ _ passed) h
  simpa using cond_eq_false_of_errors_eq v (by simp) hpassed

/-- A put that records no error names a resource of the config. -/
theorem visitPut_resource_found {v : StepValidator} {name resource : String}
    (h : (visitPut isIdentifierLetter config v name resource).errors = v.errors) :
    (config.resources.find? (·.name == resourceName name resource)).isSome := by
  simp only [visitPut, popContext_errors] at h
  simpa using cond_eq_false_of_errors_eq v (by simp) h

/-- A step and its hook that record no error: neither the step nor the hook recorded one. -/
theorem hook_errors_eq {v : StepValidator} {step : StepConfig} {hook : Step} {ctx : String}
    (h : (validate isIdentifierLetter pathMatch parseDuration quoteList config
      ((visit isIdentifierLetter pathMatch parseDuration quoteList config v step).pushContext ctx)
      hook).errors = v.errors) :
    (visit isIdentifierLetter pathMatch parseDuration quoteList config v step).errors =
        v.errors ∧
      (validate isIdentifierLetter pathMatch parseDuration quoteList config
        ((visit isIdentifierLetter pathMatch parseDuration quoteList config v step).pushContext ctx)
        hook).errors =
      ((visit isIdentifierLetter pathMatch parseDuration quoteList config v step).pushContext
        ctx).errors := by
  have hstep := errors_eq_of_isPrefix v
    (visit_errors_grow isIdentifierLetter pathMatch parseDuration quoteList config v step)
    (validate_errors_grow isIdentifierLetter pathMatch parseDuration quoteList config
      (StepValidator.pushContext _ ctx) hook) h
  exact ⟨hstep, by simpa [hstep] using h⟩

/-- A run that records no error names a prototype of the config. -/
theorem visitRun_prototype_found {v : StepValidator} {message type : String}
    (h : (visitRun isIdentifierLetter config v message type).errors = v.errors) :
    type ∈ config.prototypes := by
  simp only [visitRun, popContext_errors] at h
  simpa using cond_eq_false_of_errors_eq v (by split <;> split <;> simp) h

end Visit

end StepValidator

/-! ## `configvalidate.validateJobs` -/

section Jobs

variable (isIdentifierLetter : Char → Bool) (pathMatch : String → String → Bool)
  (parseDuration : String → Bool) (quoteList : List String → String)

/-- The checks of a job's log retention. -/
def buildLogRetentionErrors (identifier : String) (job : JobConfig) : List String :=
  let fmt (n : Int) : String := String.ofList (GoText.fmtInt n)
  let logs :=
    if job.buildLogRetention.isSome && job.buildLogsToRetain != 0 then
      [identifier ++ " can't use both build_log_retention and build_logs_to_retain"]
    else if job.buildLogsToRetain < 0 then
      [identifier ++ " has negative build_logs_to_retain: " ++ fmt job.buildLogsToRetain]
    else []
  let retention := match job.buildLogRetention with
    | some r =>
      (if r.builds < 0 then
        [identifier ++ " has negative build_log_retention.builds: " ++ fmt r.builds] else []) ++
      (if r.days < 0 then
        [identifier ++ " has negative build_log_retention.days: " ++ fmt r.days] else []) ++
      (if r.minimumSucceededBuilds < 0 then
        [identifier ++ " has negative build_log_retention.min_success_builds: " ++
          fmt r.minimumSucceededBuilds] else []) ++
      (if r.builds > 0 && r.minimumSucceededBuilds > r.builds then
        [identifier ++ " has build_log_retention.min_success_builds: " ++
          fmt r.minimumSucceededBuilds ++
          " greater than build_log_retention.min_success_builds: " ++ fmt r.builds] else [])
    | none => []
  logs ++ retention

/-- The warnings and errors of one job, with the locations of the named jobs before it; the
locations with the job's. -/
def validateJob (c : Config) (names : List (String × String)) (i : Nat) (job : JobConfig) :
    List ConfigWarning × List String × List (String × String) :=
  let location := "jobs[" ++ toString i ++ "]"
  let identifier := if job.name = "" then location else "jobs." ++ job.name
  let (warning, err) := validateIdentifier isIdentifierLetter job.name [identifier]
  let (nameErrors, names) :=
    match names.lookup job.name with
    | some other =>
      ([other ++ " and " ++ location ++ " have the same name ('" ++ job.name ++ "')"], names)
    | none => ([], if job.name ≠ "" then names ++ [(job.name, location)] else names)
  let deprecated :=
    if job.buildLogsToRetain != 0 then
      [⟨"deprecated_field", identifier ++
        ".build_logs_to_retain is deprecated. Use build_log_retention instead."⟩]
    else []
  let validator := StepValidator.validate isIdentifierLetter pathMatch parseDuration quoteList c
    (StepValidator.new [identifier, ".plan"]) job.step
  (warning.toList ++ deprecated ++ validator.warnings,
    err.toList ++ nameErrors ++ (if job.name = "" then [identifier ++ " has no name"] else []) ++
      buildLogRetentionErrors identifier job ++ validator.errors,
    names)

/-- `validateJobs`: the warnings, and the messages of its error. -/
def validateJobs (c : Config) : List ConfigWarning × List String :=
  if c.jobs.isEmpty then ([], ["jobs: pipeline must contain at least one job"])
  else
    let (warnings, errors, _) := c.jobs.zipIdx.foldl
      (fun (acc : List ConfigWarning × List String × List (String × String)) ji =>
        let (w, e, names) := validateJob isIdentifierLetter pathMatch parseDuration quoteList c acc.2.2 ji.2 ji.1
        (acc.1 ++ w, acc.2.1 ++ e, names))
      ([], [], [])
    (warnings, errors)

/-- A job whose validation records no error has a plan the validator finds no error in. -/
theorem validate_errors_nil_of_validateJob {c : Config} {names : List (String × String)}
    {i : Nat} {job : JobConfig}
    (h : (validateJob isIdentifierLetter pathMatch parseDuration quoteList c names i job).2.1 = []) :
    ∃ context, (StepValidator.validate isIdentifierLetter pathMatch parseDuration quoteList c
      (StepValidator.new context) job.step).errors = [] := by
  simp only [validateJob] at h
  -- the plan's errors come last
  exact ⟨_, (List.append_eq_nil_iff.mp h).2⟩

/-- A validation of the jobs with no error found no error in any job's plan. -/
theorem validate_errors_nil_of_validateJobs {c : Config}
    (h : (validateJobs isIdentifierLetter pathMatch parseDuration quoteList c).2 = [])
    {job : JobConfig} (hjob : job ∈ c.jobs) :
    ∃ context, (StepValidator.validate isIdentifierLetter pathMatch parseDuration quoteList c
      (StepValidator.new context) job.step).errors = [] := by
  unfold validateJobs at h
  split at h
  next => simp at h
  next =>
    obtain ⟨i, hi⟩ := List.mem_iff_getElem?.mp hjob
    have hmem : (job, i) ∈ c.jobs.zipIdx := List.mk_mem_zipIdx_iff_getElem?.mpr hi
    -- the jobs' errors are appended in order: none of them recorded one
    obtain ⟨acc, hacc⟩ := StepValidator.foldl_errors_nil
      (fun acc : List ConfigWarning × List String × List (String × String) => acc.2.1) _
      (fun acc (ji : JobConfig × Nat) => (validateJob isIdentifierLetter pathMatch parseDuration quoteList c acc.2.2
        ji.2 ji.1).2.1) (fun _ _ => rfl) _ _ h _ hmem
    exact validate_errors_nil_of_validateJob isIdentifierLetter pathMatch parseDuration quoteList hacc


end Jobs

end Atc
end Concourse
