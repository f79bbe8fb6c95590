import Concourse.Lib.GoJson
import Concourse.Vars.Reference

/-!
# Interpolating vars into a string

`vars/template.go`: `interpolator.Interpolate` of a string lists the names of the `((var))`
references in it (`extractVarNames`, every match of `interpolationRegex`) and then, for each
name in turn, asks the tracker for the var.  A var that is found replaces the whole string when
the string, as it stands at that point, is one reference (`interpolationAnchoredRegex`); else
its `%v` text replaces every `((name))` of the string (`strings.ReplaceAll`), and a value that
is not a string or an integer is an `InvalidInterpolationError`.

`interpolationRegex` is `((`, an optional source (a run of its first class and `:`), a run of
its second class, and `))`; the second class is `-`, `/`, `.`, `:`, `@`, `"`, `\w` and `\pL`,
and holds the first class and `:`.  So its group 1 is a non-empty run of name characters, and
as the class holds no `)`, a match at a place is `((`, the longest run of name characters after
it, and `))`.  `\w` is ASCII's `[0-9A-Za-z_]` and `\pL` Unicode's letters, the parameter
`isLetter`.

The tracker's `Get` parses the name (`ParseReference`) and asks `Variables.Get`, the
parameter `get`, which answers an error, nothing or the value; the sets of visited and
missing names it keeps for `Error` are left out.
-/

namespace Concourse
namespace Vars

/-- A var's value as `Interpolate`'s type switch sees it: a string, an integer of any of Go's
integer types, a `json.Number`, or anything else. -/
inductive Value where
  | string (s : String)
  | integer (n : Int)
  | number (text : String)
  | other (value : GoJson.Value)
  deriving DecidableEq, Repr

/-- `fmt.Sprintf("%v", foundVal)` of the values the switch lets through. -/
def Value.text? : Value → Option String
  | .string s => some s
  | .integer n => some (toString n)
  | .number text => some text
  | .other _ => none

/-- How interpolating a string fails. -/
inductive InterpolateError where
  /-- `ParseReference` refused the name. -/
  | reference (err : String)
  /-- `Variables.Get` failed. -/
  | lookup (err : String)
  /-- `InvalidInterpolationError`: the value of `name` has no text. -/
  | invalidInterpolation (name : String) (value : Value)
  deriving DecidableEq, Repr

/-- `%T` of a value `encoding/json` decoded into an `any`. -/
def decodedGoType : GoJson.Value → String
  | .null => "<nil>"
  | .bool _ => "bool"
  | .number _ => "float64"
  | .string _ => "string"
  | .array _ => "[]interface {}"
  | .object _ => "map[string]interface {}"

/-- `%T` of a var's value. -/
def Value.goType : Value → String
  | .string _ => "string"
  | .integer _ => "int"
  | .number _ => "json.Number"
  | .other value => decodedGoType value

/-- `Error()` of each way interpolating fails. -/
def InterpolateError.text : InterpolateError → String
  | .reference err | .lookup err => err
  | .invalidInterpolation name value =>
    "cannot interpolate non-primitive value (" ++ value.goType ++ ") from var: " ++ name

namespace Template

section Names

variable (isLetter : Char → Bool)

/-- A character of the name class of `interpolationRegex`. -/
def isNameChar (c : Char) : Bool :=
  "-/.:@\"_".toList.contains c || c.isAlphanum || isLetter c

/-- `interpolationRegex` matched where the input starts: the name, and the input after the
match. -/
def matchAt : List Char → Option (List Char × List Char)
  | '(' :: '(' :: rest =>
    let name := rest.takeWhile (isNameChar isLetter)
    match rest.dropWhile (isNameChar isLetter) with
    | ')' :: ')' :: after => if name.isEmpty then none else some (name, after)
    | _ => none
  | _ => none

/-- The loop of `FindAllSubmatch(value, -1)`: the leftmost match, then the matches after it; a
unit of fuel for each character. -/
def extractVarNamesFrom : Nat → List Char → List (List Char)
  | 0, _ => []
  | _ + 1, [] => []
  | fuel + 1, c :: s =>
    match matchAt isLetter (c :: s) with
    | some (name, after) => name :: extractVarNamesFrom fuel after
    | none => extractVarNamesFrom fuel s

/-- `extractVarNames`: group 1 of every match, in order. -/
def extractVarNames (value : List Char) : List String :=
  (extractVarNamesFrom isLetter value.length value).map String.ofList

/-- `interpolationAnchoredRegex.MatchString`: the whole input is one match. -/
def anchoredMatch (s : List Char) : Bool :=
  match matchAt isLetter s with
  | some (_, []) => true
  | _ => false

end Names

section Interpolate

variable (isLetter : Char → Bool) (get : Reference → Except String (Option Value))

/-- `varsTracker.Get`: the name parsed and looked up. -/
def trackerGet (name : String) : Except InterpolateError (Option Value) :=
  match parseReference name with
  | .error err => .error (.reference err)
  | .ok ref =>
    match get ref with
    | .error err => .error (.lookup err)
    | .ok found => .ok found

/-- The loop of `Interpolate` over the names, on the string as the names before rewrote it. -/
def interpolateNames (node : List Char) : List String → Except InterpolateError Value
  | [] => .ok (.string (String.ofList node))
  | name :: names =>
    match trackerGet get name with
    | .error err => .error err
    | .ok none => interpolateNames node names
    | .ok (some foundVal) =>
      -- the anchored test reads the string as rewritten so far, not the template
      if anchoredMatch isLetter node then .ok foundVal
      else
        match foundVal.text? with
        | some text =>
          interpolateNames (GoText.replaceAll node ("((" ++ name ++ "))").toList text.toList) names
        | none => .error (.invalidInterpolation name foundVal)

/-- `interpolator.Interpolate` of a string node. -/
def interpolateString (node : String) : Except InterpolateError Value :=
  interpolateNames isLetter get node.toList (extractVarNames isLetter node.toList)

end Interpolate

/-! ## A lone reference, and references to missing vars -/

section Laws

variable {isLetter : Char → Bool} (hparen : isLetter ')' = false)
include hparen

theorem isNameChar_close : isNameChar isLetter ')' = false := by
  simp only [isNameChar, hparen, Bool.or_false]
  decide

/-- A match at `((`: the whole run of name characters, when `))` closes it. -/
theorem matchAt_ref {name : List Char} (after : List Char) (hne : name ≠ [])
    (hchars : ∀ c ∈ name, isNameChar isLetter c = true) :
    matchAt isLetter ('(' :: '(' :: (name ++ ')' :: ')' :: after)) = some (name, after) := by
  have hclose := isNameChar_close hparen
  have htake : (name ++ ')' :: ')' :: after).takeWhile (isNameChar isLetter) = name := by
    rw [List.takeWhile_append_of_pos hchars, List.takeWhile_cons_of_neg (by simp [hclose]),
      List.append_nil]
  have hdrop : (name ++ ')' :: ')' :: after).dropWhile (isNameChar isLetter) =
      ')' :: ')' :: after := by
    rw [List.dropWhile_append_of_pos hchars, List.dropWhile_cons_of_neg (by simp [hclose])]
  simp [matchAt, htake, hdrop, hne]

/-- The names of a lone reference: its own. -/
theorem extractVarNames_ref {name : List Char} (hne : name ≠ [])
    (hchars : ∀ c ∈ name, isNameChar isLetter c = true) :
    extractVarNames isLetter ('(' :: '(' :: (name ++ [')', ')'])) = [String.ofList name] := by
  have hmatch := matchAt_ref hparen [] hne hchars
  simp only [extractVarNames, List.length_cons, List.length_append]
  rw [extractVarNamesFrom, hmatch]
  cases name.length + [')', ')'].length <;> rfl

/-- A template that is one reference to a var that is found is the var's value itself, of
whatever type. -/
theorem interpolateString_ref (get : Reference → Except String (Option Value))
    {name : List Char} {ref : Reference} {value : Value} (hne : name ≠ [])
    (hchars : ∀ c ∈ name, isNameChar isLetter c = true)
    (hparse : parseReference (String.ofList name) = .ok ref) (hget : get ref = .ok (some value)) :
    interpolateString isLetter get (String.ofList ('(' :: '(' :: (name ++ [')', ')']))) =
      .ok value := by
  have hanchored : anchoredMatch isLetter ('(' :: '(' :: (name ++ [')', ')'])) = true := by
    simp [anchoredMatch, matchAt_ref hparen [] hne hchars]
  simp [interpolateString, extractVarNames_ref hparen hne hchars, interpolateNames, trackerGet,
    hparse, hget, hanchored]

end Laws

/-- References to vars that are not found stay as they are: a template none of whose vars is
found comes back unchanged. -/
theorem interpolateNames_of_not_found (isLetter : Char → Bool)
    (get : Reference → Except String (Option Value)) (node : List Char) :
    ∀ names : List String,
      (∀ name ∈ names, ∃ ref, parseReference name = .ok ref ∧ get ref = .ok none) →
      interpolateNames isLetter get node names = .ok (.string (String.ofList node))
  | [], _ => rfl
  | name :: names, hmissing => by
    obtain ⟨ref, hparse, hget⟩ := hmissing name List.mem_cons_self
    have hrest := interpolateNames_of_not_found isLetter get node names
      fun name' hmem => hmissing name' (List.mem_cons_of_mem name hmem)
    simp [interpolateNames, trackerGet, hparse, hget, hrest]

theorem interpolateString_of_not_found (isLetter : Char → Bool)
    (get : Reference → Except String (Option Value)) (node : String)
    (hmissing : ∀ name ∈ extractVarNames isLetter node.toList,
      ∃ ref, parseReference name = .ok ref ∧ get ref = .ok none) :
    interpolateString isLetter get node = .ok (.string node) := by
  rw [interpolateString, interpolateNames_of_not_found isLetter get node.toList _ hmissing,
    String.ofList_toList]

/-- The vars `a = ((b))`, `b = x`. -/
def rescanVars (ref : Reference) : Except String (Option Value) :=
  if ref.path = "a" then .ok (some (.string "((b))"))
  else if ref.path = "b" then .ok (some (.string "x")) else .ok none

/-- The vars `a` empty, `b = 42`. -/
def emptiedVars (ref : Reference) : Except String (Option Value) :=
  if ref.path = "a" then .ok (some (.string ""))
  else if ref.path = "b" then .ok (some (.integer 42)) else .ok none

/-- Interpolation scans what it substituted: with `rescanVars` the template `((a))((b))` comes
out `xx`, where one pass over it gives `((b))x`; with `emptiedVars` it comes out the integer
`42` itself, the template having become a lone `((b))` once `a` was replaced. -/
theorem interpolateString_rescans (isLetter : Char → Bool) (hparen : isLetter ')' = false) :
    interpolateString isLetter rescanVars "((a))((b))" = .ok (.string "xx") ∧
      interpolateString isLetter emptiedVars "((a))((b))" = .ok (.integer 42) := by
  have hfun : isLetter = fun c => if c = ')' then false else isLetter c := by
    funext c
    split <;> simp_all
  -- the names are read off the template once, and only `)` is asked of `isLetter`
  have hnames : extractVarNames isLetter "((a))((b))".toList = ["a", "b"] := by
    rw [hfun]
    rfl
  simp only [interpolateString, hnames]
  rw [hfun]
  exact ⟨rfl, rfl⟩

/-- `interpolateString_rescans` with ASCII's letters. -/
theorem interpolateString_rescans_ascii :
    Char.isAlpha ')' = false ∧
      (interpolateString Char.isAlpha rescanVars "((a))((b))" = .ok (.string "xx") ∧
        interpolateString Char.isAlpha emptiedVars "((a))((b))" = .ok (.integer 42)) :=
  ⟨by decide, interpolateString_rescans Char.isAlpha (by decide)⟩

end Template

end Vars
end Concourse
