import Concourse.Builds.PlanIds
import Concourse.Lib.GoJson
import Concourse.Vars.Template
import Concourse.Lib.ExceptFold
import Mathlib.Data.List.Forall2

/-!
# The substeps of an `across` step

`atc/engine/build_step_delegate.go`: when an `across` step runs, `ConstructAcrossSubsteps`
builds one substep for each combination of values of its vars.  It interpolates the
substep template (the plan the planner made for the step under the `across`) with the
combination's local vars and decodes the result into a `Plan`; then it walks the plan twice
with `Plan.Each`.  The first walk renames each plan `<acrossID>/<index>/<counter>` and
records, in a map from old IDs, the new ID; the second sends each `GetPlan.VersionFrom`
through that map, and leaves an ID the map does not hold as it is.

Interpolation and decoding are `vars.Template.Evaluate` and `yaml.Unmarshal` over the
template's JSON: the results take them as one parameter, `interpolate`, with `TemplateLaw`, the
fact they use: they keep the plans `Each` visits with their IDs, links and kinds.  The model of
the two, `interpolateSubstep`, interpolates each string field of the plan with
`Template.interpolateString` and decodes it back into the field, and keeps the IDs, whose text
holds no `((`; it meets the law (`templateLaw_interpolateSubstep`).  Saving the
`AcrossSubsteps` event is the parameter `saveEvent`.

The first walk is a `Renumber.numberStep` pass over the plans `Each` visits (`each_nodes`),
so that `constructSubstep_label` reads off the plans of a substep from those of its template.
-/

namespace Concourse
namespace Engine

open Atc GoJson Renumber

/-- Where interpolating or decoding a substep's template failed. -/
inductive TemplateError where
  | evaluate (err : String)
  | unmarshal (err : String)
  deriving DecidableEq, Repr

/-- What `template.Evaluate` and `yaml.Unmarshal` keep of a template: the plans `Each` visits,
with their IDs, links and kinds. -/
structure TemplateLaw (interpolate : List (String × Value) → Plan → Except TemplateError Plan) :
    Prop where
  labels : ∀ vars template plan, interpolate vars template = .ok plan →
    plan.nodes.map Plan.label = template.nodes.map Plan.label

/-- The local vars of a substep, `localVars[v.Var] = values[j]` for each var in order; an index
past the values panics. -/
def localVarsOf (acrossVars : List String) (values : List Value) :
    Except String (List (String × Value)) :=
  acrossVars.zipIdx.foldlM (fun localVars var =>
    match values[var.2]? with
    | some value => .ok (mapInsert localVars var.1 value)
    | none => .error ("runtime error: index out of range [" ++ toString var.2 ++ "] with length " ++
        toString values.length)) []

/-- A fold in `Except` whose step succeeds on every element succeeds. -/
theorem foldlM_except_ok {ε σ α : Type} (f : σ → α → Except ε σ) :
    ∀ (l : List α) (init : σ), (∀ a ∈ l, ∀ s, ∃ s', f s a = .ok s') →
      ∃ r, l.foldlM f init = .ok r
  | [], init, _ => ⟨init, rfl⟩
  | a :: l, init, hstep => by
    obtain ⟨s, hs⟩ := hstep a List.mem_cons_self init
    obtain ⟨r, hr⟩ := foldlM_except_ok f l s fun b hb => hstep b (List.mem_cons_of_mem a hb)
    exact ⟨r, by simp [List.foldlM_cons, hs, bind, Except.bind, hr]⟩

/-- Values at least as many as the vars give every var its local var. -/
theorem localVarsOf_ok {acrossVars : List String} {values : List Value}
    (hlen : acrossVars.length ≤ values.length) :
    ∃ scope, localVarsOf acrossVars values = .ok scope := by
  refine foldlM_except_ok _ _ _ fun var hvar localVars => ?_
  have hlt : var.2 < values.length := by
    have := List.mem_zipIdx hvar
    omega
  simp [List.getElem?_eq_getElem hlt]

/-- The first callback: the plan is renamed `<planID>/<i>/<counter>`, the map records its old
ID with the new one (the latest first, as a Go map keeps the last write), and the counter goes
up. -/
def renameSubplan (planID : PlanID) (i : Nat) (st : List (PlanID × PlanID) × Nat) (p : Plan) :
    Plan × (List (PlanID × PlanID) × Nat) :=
  let mappedID := PlanID.substep planID i st.2
  (p.withId mappedID, ((p.id, mappedID) :: st.1, st.2 + 1))

/-- The second callback: a `VersionFrom` the map holds is sent to its new ID. -/
def remapVersionFrom (mappedSubplanIDs : List (PlanID × PlanID)) (p : Plan) : Plan :=
  match p.versionFrom with
  | some versionFrom =>
    match mappedSubplanIDs.lookup versionFrom with
    | some mappedID => p.withVersionFrom (some mappedID)
    | none => p
  | none => p

theorem renameSubplan_eq_numberStep (planID : PlanID) (i : Nat) :
    renameSubplan planID i = numberStep (PlanID.substep planID i) Plan.id fun id p => p.withId id :=
  rfl

theorem children_renameSubplan (planID : PlanID) (i : Nat) (st : List (PlanID × PlanID) × Nat)
    (p : Plan) : (renameSubplan planID i st p).1.children.length = p.children.length := by
  simp [renameSubplan]

theorem children_remapVersionFrom (mappedSubplanIDs : List (PlanID × PlanID)) (p : Plan) :
    (remapVersionFrom mappedSubplanIDs p).children = p.children := by
  unfold remapVersionFrom
  split
  · split <;> simp
  · rfl

/-- The second callback changes a plan's label through its label only. -/
theorem label_remapVersionFrom (mappedSubplanIDs : List (PlanID × PlanID)) (p : Plan) :
    (remapVersionFrom mappedSubplanIDs p).label =
      (p.id, p.versionFrom.map fun v => (mappedSubplanIDs.lookup v).getD v, p.isPutOrCheck) := by
  unfold remapVersionFrom
  cases hv : p.versionFrom with
  | none => simp [Plan.label, hv]
  | some v =>
    cases hl : mappedSubplanIDs.lookup v with
    | none => simp [Plan.label, hv, hl]
    | some m => simp [Plan.label, hl, Plan.versionFrom_withVersionFrom_of_eq_some hv]

section Construct

variable (interpolate : List (String × Value) → Plan → Except TemplateError Plan)

/-- The `i`-th substep of the `across` plan `planID`, for the values `values`. -/
def constructSubstep (planID : PlanID) (template : Plan) (acrossVars : List String) (i : Nat)
    (values : List Value) : Except String Plan := do
  let localVars ← localVarsOf acrossVars values
  let subPlan ← match interpolate localVars template with
    | .ok subPlan => pure subPlan
    | .error (.evaluate err) => throw ("failed to interpolate template: " ++ err)
    | .error (.unmarshal err) => throw ("invalid template bytes: " ++ err)
  let renamed := subPlan.each (renameSubplan planID i) ([], 0)
  pure (renamed.1.each (fun _ p => (remapVersionFrom renamed.2.1 p, ())) ()).1

/-- The loop of `ConstructAcrossSubsteps` over the value combinations, from the index `i`. -/
def constructSubsteps (planID : PlanID) (template : Plan) (acrossVars : List String) :
    Nat → List (List Value) → Except String (List (Plan × List Value))
  | _, [] => .ok []
  | i, values :: valueCombinations => do
    let step ← constructSubstep interpolate planID template acrossVars i values
    let steps ← constructSubsteps planID template acrossVars (i + 1) valueCombinations
    pure ((step, values) :: steps)

/-- `ConstructAcrossSubsteps`: the substeps, each with its values, once the event that lists
them is saved. -/
def constructAcrossSubsteps (saveEvent : List (Plan × List Value) → Except String Unit)
    (planID : PlanID) (template : Plan) (acrossVars : List String)
    (valueCombinations : List (List Value)) : Except String (List (Plan × List Value)) := do
  let substeps ← constructSubsteps interpolate planID template acrossVars 0 valueCombinations
  match saveEvent substeps with
  | .ok () => pure substeps
  | .error err => throw ("save across substeps event: " ++ err)

/-- The substeps carry the value combinations, in order. -/
theorem map_snd_constructSubsteps {planID : PlanID} {template : Plan} {acrossVars : List String} :
    ∀ {i : Nat} {valueCombinations : List (List Value)} {steps : List (Plan × List Value)},
      constructSubsteps interpolate planID template acrossVars i valueCombinations = .ok steps →
      steps.map (·.2) = valueCombinations
  | _, [], steps, h => by
    cases h
    rfl
  | i, values :: valueCombinations, steps, h => by
    simp only [constructSubsteps, bind, Except.bind] at h
    split at h
    · cases h
    · split at h
      · cases h
      · rename_i rest hrest
        cases h
        simp [map_snd_constructSubsteps hrest]

theorem map_snd_constructAcrossSubsteps
    {saveEvent : List (Plan × List Value) → Except String Unit} {planID : PlanID}
    {template : Plan} {acrossVars : List String} {valueCombinations : List (List Value)}
    {steps : List (Plan × List Value)}
    (h : constructAcrossSubsteps interpolate saveEvent planID template acrossVars
      valueCombinations = .ok steps) :
    steps.map (·.2) = valueCombinations := by
  simp only [constructAcrossSubsteps, bind, Except.bind] at h
  split at h
  · cases h
  · rename_i substeps hsubsteps
    split at h
    · cases h
      exact map_snd_constructSubsteps interpolate hsubsteps
    · cases h

end Construct

/-! ## Interpolating a substep's template -/

/-- `Traverse`: the value at the fields under `val`, where `name` is the reference's text. -/
def traverse (name : String) (val : Value) : List String → Except String Value
  | [] => .ok val
  | seg :: fields =>
    match val with
    | .object members =>
      match members.lookup seg with
      | some v => traverse name v fields
      | none => .error ("missing field '" ++ seg ++ "' in var: " ++ name)
    | v => .error ("cannot access field '" ++ seg ++ "' of non-map value ('" ++
        Vars.decodedGoType v ++ "') from var: " ++ name)

/-- A value `encoding/json` decoded, as `Interpolate`'s type switch sees it: a string, or a
`float64`, a `bool`, `nil`, a slice or a map, which it does not let through as text. -/
def varValueOf : Value → Vars.Value
  | .string s => .string s
  | v => .other v

/-- `ignoreMissingSourceVars{NamedVariables{".": localVars}}.Get`: a reference to the source
`.` is `StaticVariables.Get` of the local vars; a reference with no source, or to another
source, is not found. -/
def localVarsGet (isPrint : Char → Bool) (localVars : List (String × Value))
    (ref : Vars.Reference) : Except String (Option Vars.Value) :=
  if ref.source = "." then
    match localVars.lookup ref.path with
    | none => .ok none
    | some val =>
      (traverse (Vars.Reference.string isPrint { ref with source := "" }) val ref.fields).map
        fun v => some (varValueOf v)
  else .ok none

section Evaluate

variable (isLetter : Char → Bool) (get : Vars.Reference → Except String (Option Vars.Value))

/-- A string field of the template, interpolated by `Evaluate` and decoded back into the field
by `yaml.Unmarshal`: a value that replaced the whole field decodes into it only as a string, or
as `null`, which leaves the field empty. -/
def evaluateField (field : String) : Except TemplateError String :=
  match Vars.Template.interpolateString isLetter get field with
  | .error err => .error (.evaluate err.text)
  | .ok (.string s) | .ok (.other (.string s)) => .ok s
  | .ok (.other .null) => .ok ""
  | .ok value =>
    let kind := match value with
      | .other (.bool _) => "bool"
      | .other (.array _) => "array"
      | .other (.object _) => "object"
      | _ => "number"
    .error (.unmarshal ("error unmarshaling JSON: while decoding JSON: json: cannot unmarshal " ++
      kind ++ " into Go value of type string"))

/-- `Evaluate` and `Unmarshal` of a plan: its own string fields, then the plans under it. -/
def evaluatePlan (plan : Plan) : Except TemplateError Plan := do
  let ss ← plan.strings.mapM (evaluateField isLetter get)
  let kids ← plan.children.attach.mapM fun ⟨child, _⟩ => evaluatePlan child
  pure ((plan.withStrings ss).withChildren kids)
termination_by sizeOf plan
decreasing_by exact Plan.sizeOf_lt_of_mem_children ‹_›

theorem evaluatePlan_eq (plan : Plan) :
    evaluatePlan isLetter get plan =
      (plan.strings.mapM (evaluateField isLetter get)).bind fun ss =>
        (plan.children.mapM (evaluatePlan isLetter get)).bind fun kids =>
          .ok ((plan.withStrings ss).withChildren kids) := by
  rw [evaluatePlan]
  simp only [bind, pure, Except.pure]
  congr
  funext ss
  rw [List.mapM_subtype (g := evaluatePlan isLetter get) fun _ _ => rfl, List.unattach_attach]

/-- Interpolation keeps the plans `Each` visits with their labels: a plan's own fields change
only in their strings, and the plans under it are interpolated in their places. -/
theorem evaluatePlan_labels (plan : Plan) :
    ∀ plan', evaluatePlan isLetter get plan = .ok plan' →
      plan'.nodes.map Plan.label = plan.nodes.map Plan.label := by
  induction plan using Plan.children_induction with
  | step plan ih =>
    intro plan' h
    rw [evaluatePlan_eq] at h
    simp only [Except.bind] at h
    split at h
    · cases h
    rename_i ss _
    split at h
    · cases h
    rename_i kids hkids
    cases h
    -- each plan under it is interpolated in its place
    have hpairs := ExceptFold.mapM_ok hkids
    have hlen : kids.length = (plan.withStrings ss).children.length := by
      rw [Plan.children_withStrings, hpairs.length_eq]
    have hsub : ∀ (xs ys : List Plan), xs ⊆ plan.children →
        List.Forall₂ (fun x y => evaluatePlan isLetter get x = .ok y) xs ys →
        (ys.flatMap Plan.nodes).map Plan.label = (xs.flatMap Plan.nodes).map Plan.label := by
      intro xs ys hxs hxy
      induction hxy with
      | nil => rfl
      | @cons x y xs ys hy _ ihxy =>
        simp only [List.flatMap_cons, List.map_append]
        rw [ih x (hxs List.mem_cons_self) y hy,
          ihxy fun z hz => hxs (List.mem_cons_of_mem x hz)]
    rw [Plan.nodes_eq, Plan.nodes_eq plan, Plan.children_withChildren _ hlen]
    simp only [List.map_cons, Plan.label_withChildren, Plan.label_withStrings]
    rw [hsub plan.children kids (fun _ h => h) hpairs]

theorem templateLaw_evaluatePlan
    (getOf : List (String × Value) → Vars.Reference → Except String (Option Vars.Value)) :
    TemplateLaw fun vars => evaluatePlan isLetter (getOf vars) :=
  ⟨fun vars template plan h => evaluatePlan_labels isLetter (getOf vars) template plan h⟩

end Evaluate

/-- What `ConstructAcrossSubsteps` does to a substep's template with the local vars: `Evaluate`
with `localVarsGet`, then `Unmarshal`. -/
def interpolateSubstep (isLetter isPrint : Char → Bool) (localVars : List (String × Value))
    (template : Plan) : Except TemplateError Plan :=
  evaluatePlan isLetter (localVarsGet isPrint localVars) template

theorem templateLaw_interpolateSubstep (isLetter isPrint : Char → Bool) :
    TemplateLaw (interpolateSubstep isLetter isPrint) :=
  templateLaw_evaluatePlan isLetter (localVarsGet isPrint)

-- the var `x` is written into the task's name
example : (match interpolateSubstep Char.isAlpha (fun _ => true) [("x", .string "lint")]
    (.task (.num 1) "((.:x))" []) with
    | .ok plan => plan.strings
    | .error _ => []) = ["lint"] := by decide +kernel

end Engine
end Concourse
