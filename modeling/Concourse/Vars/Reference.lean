import Concourse.Lib.GoText

/-!
# Var references

`vars/variables.go`: a `((var))` names a secret or static variable by an optional source, a
path and fields, written `source:path.field.field`.  `ParseReference` cuts the source at the
first `:` and the segments at each `.` outside double quotes, trims each segment of white
space and deletes every `"` in it.  `Reference.String` writes the segments back, quoting with
`%q` those that hold one of `,.:/` or a space.

A string is its list of runes throughout; Go's byte indices become rune indices, used only to
cut the same string.  Whether a rune beyond Latin-1 is printable (for `%q`) is the parameter
`isPrint`.
-/

namespace Concourse
namespace Vars

/-- `Reference`. -/
structure Reference where
  source : String
  path : String
  fields : List String
  deriving DecidableEq, Repr

/-- The loop of `findUnquoted`, from rune `i` with the quote state `quoted`. -/
def findUnquotedFrom (r : Char) : Bool → Nat → List Char → Option Nat
  | _, _, [] => none
  | quoted, i, c :: s =>
    if c = r then
      if quoted then findUnquotedFrom r quoted (i + 1) s else some i
    else if c = '"' then findUnquotedFrom r (!quoted) (i + 1) s
    else findUnquotedFrom r quoted (i + 1) s

/-- `findUnquoted`: the index of the first `r` outside double quotes. -/
def findUnquoted (s : List Char) (r : Char) : Option Nat :=
  findUnquotedFrom r false 0 s

/-- `readPathSegment`: the segment before the first unquoted `.`, trimmed and without its
double quotes, the text after the `.`, and whether there was one. -/
def readPathSegment (raw : List Char) : List Char × List Char × Bool :=
  let (field, rest, hasNextSegment) :=
    match findUnquoted raw '.' with
    | some i => (raw.take i, raw.drop (i + 1), true)
    | none => (raw, [], false)
  ((GoText.trimSpace field).filter (· != '"'), rest, hasNextSegment)

/-- The loop of `ParseReference` over the segments; each segment costs a unit of fuel, and
`input.length + 1` units read them all. -/
def readSegments (name : String) : Nat → List Char → Except String (List String)
  | 0, _ => .ok []
  | fuel + 1, input =>
    let (field, input, hasNextSegment) := readPathSegment input
    if field = [] then .error ("invalid var '" ++ name ++ "': empty field")
    else if hasNextSegment then (readSegments name fuel input).map (String.ofList field :: ·)
    else .ok [String.ofList field]

/-- `ParseReference`. -/
def parseReference (name : String) : Except String Reference :=
  let input := name.toList
  let sourceAndRest : Except String (String × List Char) :=
    match findUnquoted input ':' with
    | some i =>
      if (input.take i).contains '"' then
        .error ("invalid var '" ++ name ++ "': source must not be quoted")
      else .ok (String.ofList (input.take i), input.drop (i + 1))
    | none => .ok ("", input)
  match sourceAndRest with
  | .error err => .error err
  | .ok (source, input) =>
    match readSegments name (input.length + 1) input with
    | .error err => .error err
    | .ok [] => .error ("invalid var '" ++ name ++ "': no fields")
    | .ok (path :: fields) => .ok ⟨source, path, fields⟩

section Print

variable (isPrint : Char → Bool)

/-- `refSegmentString`. -/
def refSegmentString (seg : String) : String :=
  if GoText.containsAny seg.toList [',', '.', ':', '/', ' '] then
    String.ofList (GoText.quote isPrint seg.toList)
  else seg

/-- `Reference.String`. -/
def Reference.string (r : Reference) : String :=
  (if r.source ≠ "" then r.source ++ ":" else "") ++ refSegmentString isPrint r.path ++
    String.join (r.fields.map fun field => "." ++ refSegmentString isPrint field)

end Print

/-- A tab between quotes is a path of its own, but it prints bare, since `%q` is kept for
segments with one of `,.:/` or a space, and the bare tab is trimmed away to an empty field. -/
theorem parseReference_string_quotedTab (isPrint : Char → Bool) :
    parseReference "\"\t\"" = .ok ⟨"", "\t", []⟩ ∧
      parseReference (Reference.string isPrint ⟨"", "\t", []⟩) =
        .error "invalid var '\t': empty field" := by
  have hstring : Reference.string isPrint ⟨"", "\t", []⟩ = "\t" := by
    simp [Reference.string, refSegmentString, GoText.containsAny]
  rw [hstring]
  exact ⟨by decide, by decide⟩

end Vars
end Concourse
