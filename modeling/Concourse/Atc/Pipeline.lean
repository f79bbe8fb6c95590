import Mathlib.Data.List.Sort
import Concourse.Vars.StaticVars

/-!
# Pipeline references

`atc/pipeline.go`: a pipeline instance is named by its name and its instance vars.
`PipelineRef.String` writes `name/ref:value,ref:value`, the instance vars flattened into
pairs sorted by their printed references, each value as `json.Marshal` writes it, less its
quotes when `instanceVarValueRequiresQuoting` finds that YAML reads the bare text back as the
same string.  `QueryParams` writes the pairs as URL parameters `vars.ref=json`, and
`InstanceVarsFromQueryParams` parses them back and expands them.

An instance vars map is `none` when nil.  URL values are maps from keys to lists of values.
Go ranges over a map in a random order; the model ranges in key order, and sorts as `sort.Slice`
does for distinct keys.

YAML is not part of the repository: `yamlUnmarshal`, the decoding of `yaml.Unmarshal` into
`any`, is a parameter, and `YamlPlainLaw` is the fact about plain scalars the results use.
-/

namespace Concourse
namespace Atc

open GoJson Vars

/-- A text YAML reads as a plain string scalar: a letter, then letters, digits, `\` and `&`,
with at least one `\` or `&`, so that it is none of YAML's booleans, nulls or numbers. -/
def plainWord : List Char → Bool
  | c :: cs =>
    c.isAlpha && cs.all (fun d => d.isAlphanum || d = '\\' || d = '&') &&
      cs.any (fun d => d = '\\' || d = '&')
  | [] => false

/-- YAML reads a plain word as that string. -/
structure YamlPlainLaw (yamlUnmarshal : String → Except String Value) : Prop where
  plain : ∀ s : String, plainWord s.toList = true → yamlUnmarshal s = .ok (.string s)

/-- A reader that reads every text as a plain string scalar; it keeps `YamlPlainLaw`. -/
def plainScalarReader (s : String) : Except String Value :=
  .ok (.string s)

theorem yamlPlainLaw_plainScalarReader : YamlPlainLaw plainScalarReader :=
  ⟨fun _ _ => rfl⟩

/-- `PipelineRef`. -/
structure PipelineRef where
  name : String
  instanceVars : Option (List (String × Value))
  deriving DecidableEq, Repr

/-- `unquoteString`: one `"` trimmed from each end. -/
def unquoteString (s : List Char) : List Char :=
  let s := if s.getLast? = some '"' then s.dropLast else s
  match s with
  | '"' :: rest => rest
  | s => s

/-- `instanceVarValueRequiresQuoting`: a string value keeps its quotes unless YAML reads the
bare text as a string and it holds none of `,: /`. -/
def instanceVarValueRequiresQuoting (yamlUnmarshal : String → Except String Value) :
    Value → Bool
  | .string str =>
    match yamlUnmarshal str with
    | .error _ => true
    | .ok (.string _) => GoText.containsAny str.toList [',', ':', ' ', '/']
    | .ok _ => true
  | _ => false

section Print

variable (isPrint : Char → Bool) (yamlUnmarshal : String → Except String Value)

/-- Sorting by printed references, `kvPairs[i].Ref.String() < kvPairs[j].Ref.String()`. -/
def sortByRef (kvPairs : List KVPair) : List KVPair :=
  kvPairs.insertionSort fun a b => !decide (b.ref.string isPrint < a.ref.string isPrint)

/-- `InstanceVars.sortedKVPairs`. -/
def sortedKVPairs (iv : List (String × Value)) : List KVPair :=
  sortByRef isPrint (staticVariablesFlatten iv)

/-- A pair as `InstanceVars.String` writes it. -/
def kvPairString (kvPair : KVPair) : String :=
  let rawVal := kvPair.value.marshalChars
  let val :=
    if instanceVarValueRequiresQuoting yamlUnmarshal kvPair.value then rawVal
    else unquoteString rawVal
  kvPair.ref.string isPrint ++ ":" ++ String.ofList val

/-- `InstanceVars.String`. -/
def instanceVarsString (iv : List (String × Value)) : String :=
  ",".intercalate ((sortedKVPairs isPrint iv).map (kvPairString isPrint yamlUnmarshal))

/-- `PipelineRef.String`. -/
def PipelineRef.string (ref : PipelineRef) : String :=
  match ref.instanceVars with
  | some iv => ref.name ++ "/" ++ instanceVarsString isPrint yamlUnmarshal iv
  | none => ref.name

/-- `PipelineRef.QueryParams`: nil for no instance vars. -/
def PipelineRef.queryParams (ref : PipelineRef) : Option (List (String × List String)) :=
  match ref.instanceVars with
  | none | some [] => none
  | some iv =>
    some ((sortedKVPairs isPrint iv).foldl
      (fun params kvp => mapInsert params ("vars." ++ kvp.ref.string isPrint) [kvp.value.marshal])
      [])

/-- `InstanceVarsFromQueryParams`: the parameters `vars` and `vars.*` parsed as references
and JSON values, sorted and expanded; nil when there are none or when `vars` is not a map. -/
def instanceVarsFromQueryParams (q : List (String × List String)) :
    Except String (Option (List (String × Value))) :=
  let parsed := (q.filter fun param => param.1 == "vars" || "vars.".toList.isPrefixOf param.1.toList).mapM
    fun param => do
      let ref ← parseReference param.1
      let value ← unmarshal (param.2.headD "")
      pure (⟨ref, value⟩ : KVPair)
  match parsed with
  | .error err => .error err
  | .ok [] => .ok none
  | .ok kvPairs =>
    match (kvPairsExpand (sortByRef isPrint kvPairs)).lookup "vars" with
    | some (.object instanceVars) => .ok (some instanceVars)
    | _ => .ok none

/-- One `vars.` parameter whose reference has another path than `vars` gives no instance
vars, or the error of its value: the expanded map has no entry `vars`. -/
theorem instanceVarsFromQueryParams_single_of_path_ne {key value : String} {ref : Reference}
    (hkey : "vars.".toList.isPrefixOf key.toList = true) (href : parseReference key = .ok ref)
    (hpath : ref.path ≠ "vars") :
    instanceVarsFromQueryParams isPrint [(key, [value])] = (unmarshal value).map fun _ => none := by
  have hfilter : [(key, [value])].filter
      (fun param : String × List String =>
        param.1 == "vars" || "vars.".toList.isPrefixOf param.1.toList) = [(key, [value])] := by
    simp only [List.filter, hkey, Bool.or_true]
  have hlookup : ∀ v : Value, (mapInsert [] ref.path v).lookup "vars" = none := by
    intro v
    have hne : ("vars" == ref.path) = false := beq_false_of_ne (Ne.symm hpath)
    simp only [mapInsert, List.lookup_cons, List.lookup_nil, hne]
  simp only [instanceVarsFromQueryParams, hfilter, List.mapM_cons, List.mapM_nil, href,
    List.headD, bind_pure_comp]
  cases unmarshal value with
  | error err => rfl
  | ok v =>
    -- with nothing inserted before, the pair's path gets its value whatever its fields
    have hupsert : upsert [] ref.path ref.fields v = mapInsert [] ref.path (constructValue ref.fields v) := by
      cases ref.fields <;> rfl
    have hexpand : (kvPairsExpand (sortByRef isPrint [⟨ref, v⟩])).lookup "vars" = none := by
      simpa [kvPairsExpand, sortByRef, hupsert] using hlookup (constructValue ref.fields v)
    simp [bind, Except.bind, pure, Except.pure, Except.map, hexpand]

end Print

/-- A string that YAML reads back as itself keeps its quotes only for `,: /`. -/
theorem instanceVarValueRequiresQuoting_of_string {yamlUnmarshal : String → Except String Value}
    {str : String} (h : yamlUnmarshal str = .ok (.string str)) :
    instanceVarValueRequiresQuoting yamlUnmarshal (.string str) =
      GoText.containsAny str.toList [',', ':', ' ', '/'] := by
  simp [instanceVarValueRequiresQuoting, h]

/-- An instance var named `a"b`: its reference prints as it is, and parsing the parameter's
key deletes the quote. -/
theorem instanceVarsFromQueryParams_queryParams_quoted_key (isPrint : Char → Bool) :
    (PipelineRef.mk "p" (some [("a\"b", .bool true)])).queryParams isPrint =
        some [("vars.a\"b", ["true"])] ∧
      instanceVarsFromQueryParams isPrint [("vars.a\"b", ["true"])] =
        .ok (some [("ab", .bool true)]) :=
  ⟨rfl, rfl⟩

end Atc
end Concourse
