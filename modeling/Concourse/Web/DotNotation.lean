import Mathlib.Data.List.Sort
import Concourse.Lib.GoJson
import Concourse.Lib.ElmParser

/-!
# Instance vars in dot notation

The web UI writes a pipeline's instance vars into its URLs one leaf at a time: `flatten` walks
each var's value down its nested objects, and `serialize` writes the path to a leaf as its
segments joined by `.`, each quoted when it holds `=`, `.` or white space, beside the leaf's
JSON text.  `expand` builds the vars back from such leaves, creating the objects on their
paths.

A `Dict String v` of Elm is held as its entries in increasing key order, the order
`Dict.toList` gives, which is also how the Go maps of `GoJson` are held; the dictionary
operations below are those maps' (`GoJson.mapInsert`, `GoJson.mapDelete`).  Numbers are
integers, as in `GoJson`, and a JSON value that none of the UI's decoders reads (a boolean,
`null`, an array) is kept raw as a `GoJson.Value`.  `Json.Encode.encode 0`, the JavaScript
runtime's `JSON.stringify`, is the parameter `encode`.
-/

namespace Concourse

namespace Web

/-- `Concourse.JsonValue`. -/
inductive JsonValue where
  | jsonString (s : String)
  | jsonNumber (n : Int)
  | jsonObject (kvPairs : List (String × JsonValue))
  | jsonRaw (raw : GoJson.Value)
  deriving Repr, Inhabited

mutual
/-- Equality of values, decided structurally. -/
def JsonValue.decEq : (a b : JsonValue) → Decidable (a = b)
  | .jsonString a, .jsonString b =>
    if h : a = b then isTrue (h ▸ rfl) else isFalse (by intro e; cases e; exact h rfl)
  | .jsonNumber a, .jsonNumber b =>
    if h : a = b then isTrue (h ▸ rfl) else isFalse (by intro e; cases e; exact h rfl)
  | .jsonObject as, .jsonObject bs =>
    match JsonValue.decEqPairs as bs with
    | isTrue h => isTrue (h ▸ rfl)
    | isFalse h => isFalse (by intro e; cases e; exact h rfl)
  | .jsonRaw a, .jsonRaw b =>
    if h : a = b then isTrue (h ▸ rfl) else isFalse (by intro e; cases e; exact h rfl)
  -- values of different kinds
  | .jsonString _, .jsonNumber _ | .jsonString _, .jsonObject _
  | .jsonString _, .jsonRaw _ => isFalse (by intro e; cases e)
  | .jsonNumber _, .jsonString _ | .jsonNumber _, .jsonObject _
  | .jsonNumber _, .jsonRaw _ => isFalse (by intro e; cases e)
  | .jsonObject _, .jsonString _ | .jsonObject _, .jsonNumber _
  | .jsonObject _, .jsonRaw _ => isFalse (by intro e; cases e)
  | .jsonRaw _, .jsonString _ | .jsonRaw _, .jsonNumber _
  | .jsonRaw _, .jsonObject _ => isFalse (by intro e; cases e)

/-- Equality of lists of key-value pairs. -/
def JsonValue.decEqPairs : (as bs : List (String × JsonValue)) → Decidable (as = bs)
  | [], [] => isTrue rfl
  | [], _ :: _ => isFalse (by intro e; cases e)
  | _ :: _, [] => isFalse (by intro e; cases e)
  | (k, a) :: as, (l, b) :: bs =>
    if hk : k = l then
      match JsonValue.decEq a b, JsonValue.decEqPairs as bs with
      | isTrue h₁, isTrue h₂ => isTrue (hk ▸ h₁ ▸ h₂ ▸ rfl)
      | isFalse h, _ => isFalse (by intro e; cases e; exact h rfl)
      | _, isFalse h => isFalse (by intro e; cases e; exact h rfl)
    else isFalse (by intro e; cases e; exact hk rfl)
end

instance : DecidableEq JsonValue := JsonValue.decEq

/-- `Concourse.InstanceVars`: a `Dict String JsonValue`. -/
abbrev InstanceVars : Type :=
  List (String × JsonValue)

/-- `List.sortBy Tuple.first`: a stable sort by key, which insertion sort is. -/
def sortByKey {α : Type} (pairs : List (String × α)) : List (String × α) :=
  pairs.insertionSort fun a b => a.1 ≤ b.1

mutual
/-- `encodeJsonValue`. -/
def encodeJsonValue : JsonValue → GoJson.Value
  | .jsonString s => .string s
  | .jsonNumber n => .number n
  -- `encodeJsonObject`: sorting by key before or after encoding the values is the same
  -- stable sort
  | .jsonObject kvs => .object (sortByKey (encodeJsonPairs kvs))
  | .jsonRaw raw => raw

/-- The pairs of an object with their values encoded. -/
def encodeJsonPairs : List (String × JsonValue) → List (String × GoJson.Value)
  | [] => []
  | (k, v) :: kvs => (k, encodeJsonValue v) :: encodeJsonPairs kvs
end

/-! ## Dictionaries -/

section Dict

variable {α : Type}

/-- `Dict.get`. -/
def dictGet (key : String) (dict : List (String × α)) : Option α :=
  dict.lookup key

/-- `Dict.update`. -/
def dictUpdate (key : String) (alter : Option α → Option α) (dict : List (String × α)) :
    List (String × α) :=
  match alter (dictGet key dict) with
  | some value => GoJson.mapInsert dict key value
  | none => GoJson.mapDelete dict key

/-- `Dict.fromList`: the pairs inserted in order, so that of two equal keys the last wins. -/
def dictFromList (pairs : List (String × α)) : List (String × α) :=
  pairs.foldl (fun dict kv => GoJson.mapInsert dict kv.1 kv.2) []

end Dict

/-- `DotNotation.DotNotation`: a leaf of the instance vars, the var's name, the keys down to
the leaf, and the leaf. -/
structure DotNotation where
  path : String
  fields : List String
  value : JsonValue
  deriving DecidableEq, Repr

namespace DotNotation

/-! ## Flattening -/

mutual
/-- `flattenHelper`: the leaves under `value`, at the keys `fields` below the var `path`. -/
def flattenHelper (path : String) (fields : List String) : JsonValue → List DotNotation
  | .jsonObject kvPairs => flattenPairs path fields kvPairs
  | value => [⟨path, fields, value⟩]

/-- The leaves under each pair of an object, in order. -/
def flattenPairs (path : String) (fields : List String) :
    List (String × JsonValue) → List DotNotation
  | [] => []
  | (k, v) :: kvPairs => flattenHelper path (fields ++ [k]) v ++ flattenPairs path fields kvPairs
end

/-- `flatten`. -/
def flatten (d : InstanceVars) : List DotNotation :=
  d.flatMap fun pv => flattenHelper pv.1 [] pv.2

/-! ## Expanding -/

/-- `constructValue`: the value at the end of the keys, whose reverse is `revFields`. -/
def constructValue : List String → JsonValue → JsonValue
  | lastField :: rest, value => constructValue rest (.jsonObject [(lastField, value)])
  | [], value => value

/-- `upsert`: the leaf written at its path, into the object already there or over what is
there otherwise. -/
def upsert : String → List String → JsonValue → InstanceVars → InstanceVars
  | path, fields, value, dict =>
    dictUpdate path
      (fun v =>
        match v with
        | some (.jsonObject kvPairs) =>
          match fields with
          | field :: rest =>
            some (.jsonObject (sortByKey (upsert field rest value (dictFromList kvPairs))))
          | [] => some value
        | _ => some (constructValue fields.reverse value))
      dict

/-- `expand`. -/
def expand (leaves : List DotNotation) : InstanceVars :=
  leaves.foldl (fun dict leaf => upsert leaf.path leaf.fields leaf.value dict) []

/-! ## Serializing -/

/-- `isSpace`. -/
def isSpace (c : Char) : Bool :=
  c == ' ' || c == '\n' || c == '\t' || c == '\r'

/-- `isValidPathSegmentChar`. -/
def isValidPathSegmentChar (c : Char) : Bool :=
  c != '=' && c != '.' && !isSpace c

/-- `quoteIfNeeded`: `String.all` read on the characters of `s`. -/
def quoteIfNeeded (s : String) : String :=
  if s.toList.all isValidPathSegmentChar then s else "\"" ++ s ++ "\""

/-- `serialize`: the leaf's path and its JSON text. -/
def serialize (encode : GoJson.Value → String) (leaf : DotNotation) : String × String :=
  (".".intercalate ((leaf.path :: leaf.fields).map quoteIfNeeded), encode (encodeJsonValue leaf.value))

/-! ## Parsing -/

open ElmParser

/-- `trimQuotes`: `String.slice 1 -1`. -/
def trimQuotes (s : List Char) : List Char :=
  (s.drop 1).dropLast

/-- `quotedPathSegment`: a segment between quotes, up to the first next quote. -/
def quotedPathSegment : ElmParser.Parser (List Char) :=
  map trimQuotes (getChompedString (ignorer (ignorer (symbol ['"']) (chompUntil ['"'])) (symbol ['"'])))

/-- `unquotedPathSegment`. -/
def unquotedPathSegment : ElmParser.Parser (List Char) :=
  getChompedString (chompWhile isValidPathSegmentChar)

/-- `pathSegment`: a segment, quoted or not, and not empty. -/
def pathSegment : ElmParser.Parser String :=
  andThen (fun s => if s = [] then problem else succeed (String.ofList s))
    (oneOf [quotedPathSegment, unquotedPathSegment])

/-- A quoted segment is read up to the next quote, without its quotes. -/
theorem quotedPathSegment_quoted {a : List Char} (s : List Char) (ha : '"' ∉ a) :
    quotedPathSegment ('"' :: (a ++ '"' :: s)) = .good true a s := by
  have hopen : symbol ['"'] ('"' :: (a ++ '"' :: s)) = .good true () (a ++ '"' :: s) :=
    symbol_append ['"'] _
  have hclose : symbol ['"'] ('"' :: s) = .good true () s := symbol_append ['"'] s
  have hsegment := ignorer_good (ignorer_good hopen (chompUntil_singleton_append s ha)) hclose
  -- the segment read is the quotes with `a` between them
  have hinput : '"' :: (a ++ '"' :: s) = ('"' :: a ++ ['"']) ++ s := by simp
  rw [hinput] at hsegment ⊢
  simp only [Bool.true_or] at hsegment
  simp only [quotedPathSegment, map]
  rw [getChompedString_good hsegment]
  simp [trimQuotes]

/-- A non-empty segment between quotes, free of quotes, is a path segment. -/
theorem pathSegment_quoted {a : List Char} (s : List Char) (hne : a ≠ []) (ha : '"' ∉ a) :
    pathSegment ('"' :: (a ++ '"' :: s)) = .good true (String.ofList a) s := by
  simp only [pathSegment, andThen, oneOf_cons_of_good (quotedPathSegment_quoted s ha), if_neg hne]
  rfl

section Decode

variable (decodeJsonValue : List Char → Option JsonValue)

/-- `jsonValue`: the rest of the input, decoded by `Json.Decode.decodeString decodeJsonValue`,
the parameter `decodeJsonValue`. -/
def jsonValue : ElmParser.Parser JsonValue :=
  andThen (fun s => match decodeJsonValue s with
      | some v => succeed v
      | none => problem)
    getRest

/-- `parser`: a var's name, its keys after `.`, `=`, and the JSON text of the leaf. -/
def parser : ElmParser.Parser DotNotation :=
  keeper
    (keeper (keeper (succeed DotNotation.mk) pathSegment)
      (oneOf [map (fun _ => []) (symbol ['=']),
        sequence ['.'] ['.'] ['='] spaces pathSegment]))
    (jsonValue decodeJsonValue)

/-- `parse`, with `Result.toMaybe`, as `Routes.parsePath` reads it: its error text is
dropped. -/
def parse (s : List Char) : Option DotNotation :=
  run (parser decodeJsonValue) s

end Decode

/-- A segment that starts with a quote is written bare, since `quoteIfNeeded` quotes only `=`,
`.` and white space, and the parser then reads it as a quoted segment: `"a"=v` parses, if at
all, to the path `a`, whatever the JSON text and its decoder. -/
theorem parse_serialize_quotedPath (encode : GoJson.Value → String)
    (decodeJsonValue : List Char → Option JsonValue) :
    let kv := serialize encode ⟨"\"a\"", [], .jsonNumber 1⟩
    parse decodeJsonValue (kv.1 ++ "=" ++ kv.2).toList =
      (decodeJsonValue kv.2.toList).map fun v => ⟨"a", [], v⟩ := by
  intro kv
  -- `"a"` has no character that `quoteIfNeeded` quotes
  have hkey : kv.1 = "\"a\"" := by
    show ".".intercalate ((["\"a\""] : List String).map quoteIfNeeded) = "\"a\""
    decide
  have hinput : (kv.1 ++ "=" ++ kv.2).toList = '"' :: (['a'] ++ '"' :: '=' :: kv.2.toList) := by
    rw [hkey]
    simp
  set e := kv.2.toList
  have hpath : keeper (succeed DotNotation.mk) pathSegment ('"' :: (['a'] ++ '"' :: '=' :: e)) =
      .good true (DotNotation.mk "a") ('=' :: e) :=
    keeper_succeed (@pathSegment_quoted ['a'] ('=' :: e) (by simp) (by simp))
  -- no keys: `=` at once
  have hfields : oneOf [map (fun _ => []) (symbol ['=']),
      sequence ['.'] ['.'] ['='] spaces pathSegment] ('=' :: e) = .good true [] e := by
    apply oneOf_cons_of_good
    simp only [map, show symbol ['='] ('=' :: e) = .good true () e from symbol_append ['='] e]
  have hkeys := keeper_good hpath hfields
  simp only [Bool.or_true] at hkeys
  rw [hinput, parse, parser]
  cases hdecode : decodeJsonValue e with
  | none =>
    have hvalue : jsonValue decodeJsonValue e = .bad false := by
      simp [jsonValue, andThen, getRest, hdecode, problem]
    exact run_bad (map2_bad_right hkeys hvalue)
  | some v =>
    have hvalue : jsonValue decodeJsonValue e = .good false v e := by
      simp [jsonValue, andThen, getRest, hdecode, succeed]
    exact run_good (keeper_good hkeys hvalue)
end DotNotation

end Web
end Concourse
