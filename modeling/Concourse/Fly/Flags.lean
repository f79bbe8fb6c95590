import Concourse.Atc.Pipeline

/-!
# Pipeline flags of `fly`

`fly/commands/internal/flaghelpers`: `PipelineFlag.UnmarshalFlag` reads `name/vars`, the
instance vars as `ref:value` pairs separated by commas.  A key ends at the first `:` outside
double quotes; a value ends at the first `,` outside double and single quotes and outside
YAML's brackets and braces, and is read by YAML.  The pairs are expanded into a map.

`findUnquoted` takes its stop condition as a function that may keep a state (the brace and
bracket counts of `nextOccurrenceOfOutsideOfYAML`): here a state and a step.
-/

namespace Concourse
namespace Fly

open GoJson Vars Atc

/-- A stop condition of `findUnquoted`: its state and its step on a rune. -/
structure StopFn (σ : Type) where
  init : σ
  step : σ → Char → Bool × σ

/-- `nextOccurrenceOf`. -/
def nextOccurrenceOf (r : Char) : StopFn Unit :=
  ⟨(), fun _ c => (c = r, ())⟩

/-- `nextOccurrenceOfOutsideOfYAML`: `r` outside YAML's braces and brackets. -/
def nextOccurrenceOfOutsideOfYAML (r : Char) : StopFn (Int × Int) where
  init := (0, 0)
  step
    | (braceCount, bracketCount), c =>
      if c = r then (braceCount = 0 ∧ bracketCount = 0, (braceCount, bracketCount))
      else if c = '\x7b' then (false, (braceCount + 1, bracketCount))
      else if c = '\x7d' then (false, (braceCount - 1, bracketCount))
      else if c = '[' then (false, (braceCount, bracketCount + 1))
      else if c = ']' then (false, (braceCount, bracketCount - 1))
      else (false, (braceCount, bracketCount))

/-- The loop of `findUnquoted` from rune `i`, inside the quote `quoteChar` if any. -/
def findUnquotedFrom {σ : Type} (quoteset : List Char) (step : σ → Char → Bool × σ) :
    Option Char → σ → Nat → List Char → Option Nat
  | _, _, _, [] => none
  | none, state, i, c :: s =>
    let (stop, state) := step state c
    if stop then some i
    else if c ∈ quoteset then findUnquotedFrom quoteset step (some c) state (i + 1) s
    else findUnquotedFrom quoteset step none state (i + 1) s
  | some quoteChar, state, i, c :: s =>
    if c = quoteChar then findUnquotedFrom quoteset step none state (i + 1) s
    else findUnquotedFrom quoteset step (some quoteChar) state (i + 1) s

/-- `findUnquoted`: the index of the first rune outside quotes at which `stop` stops. -/
def findUnquoted {σ : Type} (s : List Char) (quoteset : List Char) (stop : StopFn σ) :
    Option Nat :=
  findUnquotedFrom quoteset stop.step none stop.init 0 s

section Unmarshal

variable (yamlUnmarshal : String → Except String Value)

/-- The loop of `unmarshalInstanceVars` over the pairs, each costing a unit of fuel. -/
def unmarshalInstanceVarsLoop : Nat → List Char → List KVPair → Except String (List KVPair)
  | 0, _, kvPairs => .ok kvPairs
  | fuel + 1, s, kvPairs =>
    match findUnquoted s ['"'] (nextOccurrenceOf ':') with
    | none => .ok kvPairs
    | some colonIndex =>
      let rawKey := String.ofList (s.take colonIndex)
      match parseReference rawKey with
      | .error err => .error err
      | .ok ref =>
        let s := s.drop (colonIndex + 1)
        let commaIndex := findUnquoted s ['"', Char.ofNat 39] (nextOccurrenceOfOutsideOfYAML ',')
        let rawValue := match commaIndex with
          | some i => s.take i
          | none => s
        match yamlUnmarshal (String.ofList rawValue) with
        | .error err => .error ("invalid value for key '" ++ rawKey ++ "': " ++ err)
        | .ok value =>
          let kvPairs := kvPairs ++ [⟨ref, value⟩]
          match commaIndex with
          | some i => unmarshalInstanceVarsLoop fuel (s.drop (i + 1)) kvPairs
          | none => .ok kvPairs

/-- `unmarshalInstanceVars`. -/
def unmarshalInstanceVars (s : String) : Except String (List (String × Value)) :=
  match unmarshalInstanceVarsLoop yamlUnmarshal (s.length + 1) s.toList [] with
  | .error err => .error err
  | .ok [] => .error "instance vars should be formatted as <key1:value1>(,<key2:value2>)"
  | .ok kvPairs => .ok (kvPairsExpand kvPairs)

/-- `PipelineFlag`. -/
structure PipelineFlag where
  name : String
  instanceVars : Option (List (String × Value))
  deriving DecidableEq, Repr

/-- `PipelineFlag.UnmarshalFlag`: a value without `/` is a name; otherwise the name is what
comes before the first `/` and the instance vars what comes after it. -/
def PipelineFlag.unmarshalFlag (flag : PipelineFlag) (value : String) :
    Except String PipelineFlag :=
  if !value.toList.contains '/' then .ok { flag with name := value }
  else
    let name := value.toList.takeWhile (· != '/')
    let rest := (value.toList.dropWhile (· != '/')).drop 1
    match unmarshalInstanceVars yamlUnmarshal (String.ofList rest) with
    | .error err => .error err
    | .ok instanceVars => .ok ⟨String.ofList name, some instanceVars⟩

end Unmarshal

/-- The instance var `k: "R&D"`: `json.Marshal` writes `&` as `\u0026`, the quotes are
dropped since YAML reads `R&D` as a string, and YAML reads the printed `R\u0026D` as it is,
with no escape in a plain scalar. -/
theorem unmarshalFlag_string_escaped_value (isPrint : Char → Bool)
    {yamlUnmarshal : String → Except String Value} (hyaml : YamlPlainLaw yamlUnmarshal) :
    (PipelineRef.mk "p" (some [("k", .string "R&D")])).string isPrint yamlUnmarshal =
        "p/k:R\\u0026D" ∧
      (PipelineFlag.mk "" none).unmarshalFlag yamlUnmarshal "p/k:R\\u0026D" =
        .ok ⟨"p", some [("k", .string "R\\u0026D")]⟩ := by
  have h₁ : yamlUnmarshal "R&D" = .ok (.string "R&D") := hyaml.plain _ (by decide)
  have h₂ : yamlUnmarshal "R\\u0026D" = .ok (.string "R\\u0026D") := hyaml.plain _ (by decide)
  constructor
  · have hq : instanceVarValueRequiresQuoting yamlUnmarshal (.string "R&D") = false := by
      rw [instanceVarValueRequiresQuoting_of_string h₁]
      decide
    have hpair : kvPairString isPrint yamlUnmarshal ⟨⟨"", "k", []⟩, .string "R&D"⟩ =
        "k:R\\u0026D" := by
      simp only [kvPairString, hq]
      rfl
    have hsorted : sortedKVPairs isPrint [("k", .string "R&D")] =
        [⟨⟨"", "k", []⟩, .string "R&D"⟩] := rfl
    simp only [PipelineRef.string, instanceVarsString, hsorted, List.map_cons, List.map_nil,
      hpair]
    rfl
  · -- only the value's text reaches YAML
    have hyaml' : yamlUnmarshal = fun t =>
        if t = "R\\u0026D" then .ok (.string "R\\u0026D") else yamlUnmarshal t := by
      funext t
      split_ifs with ht
      · rw [ht, h₂]
      · rfl
    rw [hyaml']
    rfl

theorem unmarshalFlag_string_escaped_value_plainScalar :
    YamlPlainLaw plainScalarReader ∧
      (PipelineRef.mk "p" (some [("k", .string "R&D")])).string (fun _ => true)
          plainScalarReader = "p/k:R\\u0026D" ∧
        (PipelineFlag.mk "" none).unmarshalFlag plainScalarReader "p/k:R\\u0026D" =
          .ok ⟨"p", some [("k", .string "R\\u0026D")]⟩ :=
  ⟨yamlPlainLaw_plainScalarReader,
    unmarshalFlag_string_escaped_value (fun _ => true) yamlPlainLaw_plainScalarReader⟩

end Fly
end Concourse
