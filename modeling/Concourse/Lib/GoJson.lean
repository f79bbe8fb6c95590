import Mathlib.Data.String.Basic
import Concourse.Lib.GoText

/-!
# JSON as Go's `encoding/json` reads and writes it

A JSON text is a `Value`; an object keeps its members in the order, and with the repeated
keys, that the text has.  Numbers are integers here.

Go decodes an object into a map (`map[string]T`) by assigning its members in order, so that
of two equal keys the last wins, and encodes a map with its keys in increasing order.  A map
is therefore held as the list of its entries in strictly increasing key order (`IsMap`),
which `mapInsert`, `mapDelete` and `mapAssign` keep.

Go decodes an object into a struct member by member too: a member sets the field whose JSON
name is its key or, when no field has that name, the first field whose name equals the key
up to case (`foldName`); members that select no field are skipped.  Each field decodes its
value over its current one, as its Go type does (`Field.decode`), and a struct is encoded
field by field, without the empty values of its `omitempty` fields.

`Value.marshal` is `json.Marshal` of a decoded value (with Go's HTML escaping of strings) and
`unmarshal` is `json.Unmarshal` of a text into `any`, with its syntax errors.  The model's
numbers are integers: a number with a fraction or an exponent is refused.
-/

namespace GoJson

/-- A JSON value. -/
inductive Value where
  | null
  | bool (b : Bool)
  | number (n : Int)
  | string (s : String)
  | array (elems : List Value)
  | object (members : List (String × Value))
  deriving Repr, Inhabited

mutual
/-- Equality of values, decided structurally. -/
def Value.decEq : (a b : Value) → Decidable (a = b)
  | .null, .null => isTrue rfl
  | .bool a, .bool b =>
    if h : a = b then isTrue (h ▸ rfl) else isFalse (by intro e; cases e; exact h rfl)
  | .number a, .number b =>
    if h : a = b then isTrue (h ▸ rfl) else isFalse (by intro e; cases e; exact h rfl)
  | .string a, .string b =>
    if h : a = b then isTrue (h ▸ rfl) else isFalse (by intro e; cases e; exact h rfl)
  | .array as, .array bs =>
    match Value.decEqList as bs with
    | isTrue h => isTrue (h ▸ rfl)
    | isFalse h => isFalse (by intro e; cases e; exact h rfl)
  | .object as, .object bs =>
    match Value.decEqMembers as bs with
    | isTrue h => isTrue (h ▸ rfl)
    | isFalse h => isFalse (by intro e; cases e; exact h rfl)
  -- values of different kinds
  | .null, .bool _ | .null, .number _ | .null, .string _ | .null, .array _
  | .null, .object _ => isFalse (by intro e; cases e)
  | .bool _, .null | .bool _, .number _ | .bool _, .string _ | .bool _, .array _
  | .bool _, .object _ => isFalse (by intro e; cases e)
  | .number _, .null | .number _, .bool _ | .number _, .string _ | .number _, .array _
  | .number _, .object _ => isFalse (by intro e; cases e)
  | .string _, .null | .string _, .bool _ | .string _, .number _ | .string _, .array _
  | .string _, .object _ => isFalse (by intro e; cases e)
  | .array _, .null | .array _, .bool _ | .array _, .number _ | .array _, .string _
  | .array _, .object _ => isFalse (by intro e; cases e)
  | .object _, .null | .object _, .bool _ | .object _, .number _ | .object _, .string _
  | .object _, .array _ => isFalse (by intro e; cases e)

/-- Equality of lists of values. -/
def Value.decEqList : (as bs : List Value) → Decidable (as = bs)
  | [], [] => isTrue rfl
  | [], _ :: _ => isFalse (by intro e; cases e)
  | _ :: _, [] => isFalse (by intro e; cases e)
  | a :: as, b :: bs =>
    match Value.decEq a b, Value.decEqList as bs with
    | isTrue h₁, isTrue h₂ => isTrue (h₁ ▸ h₂ ▸ rfl)
    | isFalse h, _ => isFalse (by intro e; cases e; exact h rfl)
    | _, isFalse h => isFalse (by intro e; cases e; exact h rfl)

/-- Equality of lists of object members. -/
def Value.decEqMembers : (as bs : List (String × Value)) → Decidable (as = bs)
  | [], [] => isTrue rfl
  | [], _ :: _ => isFalse (by intro e; cases e)
  | _ :: _, [] => isFalse (by intro e; cases e)
  | (k, a) :: as, (l, b) :: bs =>
    if hk : k = l then
      match Value.decEq a b, Value.decEqMembers as bs with
      | isTrue h₁, isTrue h₂ => isTrue (hk ▸ h₁ ▸ h₂ ▸ rfl)
      | isFalse h, _ => isFalse (by intro e; cases e; exact h rfl)
      | _, isFalse h => isFalse (by intro e; cases e; exact h rfl)
    else isFalse (by intro e; cases e; exact hk rfl)
end

instance : DecidableEq Value := Value.decEq

/-- The kind of a value, as `UnmarshalTypeError` names it. -/
def Value.kind : Value → String
  | .null => "null"
  | .bool _ => "bool"
  | .number _ => "number"
  | .string _ => "string"
  | .array _ => "array"
  | .object _ => "object"

/-- `isEmptyValue`: what `omitempty` leaves out. -/
def Value.isEmpty : Value → Bool
  | .null => true
  | .bool b => !b
  | .number n => n == 0
  | .string s => s.isEmpty
  | .array elems => elems.isEmpty
  | .object members => members.isEmpty

/-- The entries of a map held in a field, none for the nil map. -/
def Value.entries : Value → List (String × Value)
  | .object members => members
  | _ => []

/-! ## Maps -/

section Maps

variable {α : Type}

/-- A `map[string]T`: its entries in strictly increasing key order. -/
def IsMap (m : List (String × α)) : Prop :=
  m.Pairwise fun a b => a.1 < b.1

/-- `m[k] = v`. -/
def mapInsert : List (String × α) → String → α → List (String × α)
  | [], k, v => [(k, v)]
  | (k', v') :: m, k, v =>
    if k < k' then (k, v) :: (k', v') :: m
    else if k = k' then (k, v) :: m
    else (k', v') :: mapInsert m k v

/-- `delete(m, k)`. -/
def mapDelete (m : List (String × α)) (k : String) : List (String × α) :=
  m.filter fun entry => entry.1 != k

/-- Decoding an object into a map that holds `m`: the members are assigned in order and the
entries of other keys are kept. -/
def mapAssign (m : List (String × α)) (members : List (String × α)) : List (String × α) :=
  members.foldl (fun m member => mapInsert m member.1 member.2) m

theorem mem_mapInsert {m : List (String × α)} {k : String} {v : α} {entry : String × α}
    (h : entry ∈ mapInsert m k v) : entry = (k, v) ∨ entry ∈ m := by
  induction m with
  | nil => simpa [mapInsert] using h
  | cons head m ih =>
    obtain ⟨k', v'⟩ := head
    unfold mapInsert at h
    split_ifs at h with hlt heq
    · exact List.mem_cons.mp h
    · rcases List.mem_cons.mp h with h | h
      · exact .inl h
      · exact .inr (List.mem_cons_of_mem _ h)
    · rcases List.mem_cons.mp h with h | h
      · exact .inr (h ▸ List.mem_cons_self ..)
      · rcases ih h with h | h
        · exact .inl h
        · exact .inr (List.mem_cons_of_mem _ h)

theorem isMap_mapInsert {m : List (String × α)} (hm : IsMap m) (k : String) (v : α) :
    IsMap (mapInsert m k v) := by
  induction m with
  | nil => simp [IsMap, mapInsert]
  | cons entry m ih =>
    obtain ⟨k', v'⟩ := entry
    unfold IsMap at hm
    rw [List.pairwise_cons] at hm
    obtain ⟨hhead, htail⟩ := hm
    unfold mapInsert
    split_ifs with hlt heq
    · -- `k` goes first
      refine List.Pairwise.cons ?_ (List.Pairwise.cons hhead htail)
      intro b hb
      rcases List.mem_cons.mp hb with rfl | hb
      · exact hlt
      · exact lt_trans hlt (hhead b hb)
    · -- `k` replaces the head's value
      subst heq
      exact List.Pairwise.cons hhead htail
    · -- `k` goes after the head
      have hgt : k' < k := lt_of_le_of_ne (not_lt.mp hlt) (Ne.symm heq)
      refine List.Pairwise.cons ?_ (ih htail)
      intro b hb
      rcases mem_mapInsert hb with rfl | hbm
      · exact hgt
      · exact hhead b hbm

theorem isMap_mapAssign {m : List (String × α)} (hm : IsMap m) :
    ∀ members : List (String × α), IsMap (mapAssign m members) := by
  intro members
  induction members generalizing m with
  | nil => exact hm
  | cons member members ih => exact ih (isMap_mapInsert hm member.1 member.2)

theorem isMap_mapDelete {m : List (String × α)} (hm : IsMap m) (k : String) :
    IsMap (mapDelete m k) :=
  List.Pairwise.filter _ hm

@[simp] theorem lookup_mapDelete_self (m : List (String × α)) (k : String) :
    (mapDelete m k).lookup k = none := by
  rw [List.lookup_eq_none_iff]
  intro entry hentry
  have hne : entry.1 ≠ k := by simpa [mapDelete] using (List.mem_filter.mp hentry).2
  simpa using hne.symm

end Maps

/-! ## Field names -/

/-- `foldName`: ASCII letters to upper case, any other character through `foldRune` (the
least character of its Unicode simple case-folding orbit), so that two names fold alike
exactly when they are equal up to case. -/
def foldName (foldRune : Char → Char) (s : String) : List Char :=
  s.toList.map fun c => if c.val < 128 then c.toUpper else foldRune c

/-! ## Structs -/

/-- `UnmarshalTypeError`: a JSON value of a kind its Go type does not take. -/
structure UnmarshalTypeError where
  value : String
  type : String
  deriving DecidableEq, Repr

/-- The message of an `UnmarshalTypeError` met in a field of a struct. -/
def UnmarshalTypeError.message (e : UnmarshalTypeError) (structName field : String) : String :=
  "json: cannot unmarshal " ++ e.value ++ " into Go struct field " ++ structName ++ "." ++
    field ++ " of type " ++ e.type

/-- What decoding and encoding need of a Go type: its zero value, how it decodes a JSON value
over the value it holds, whether it does so with an `UnmarshalJSON` of its own, and what
`omitempty` counts as empty. -/
structure GoType where
  zero : Value
  decode : Value → Value → Except UnmarshalTypeError Value
  custom : Bool
  isEmpty : Value → Bool

/-- A field of a struct: its JSON name, whether it is `omitempty`, and its Go type. -/
structure Field where
  name : String
  omitempty : Bool
  type : GoType

/-- The field a member's key selects: the one with that JSON name, else the first whose name
folds to the key's. -/
def fieldIndex (foldRune : Char → Char) (fields : List Field) (key : String) : Option Nat :=
  match fields.findIdx? (·.name == key) with
  | some i => some i
  | none => fields.findIdx? fun f => foldName foldRune f.name == foldName foldRune key

/-- Decoding the members of an object into a struct holding `values`, member by member.  A
type error of the decoder is kept, the first one only, and decoding goes on; an error of an
`UnmarshalJSON` ends it. -/
def decodeMembers (foldRune : Char → Char) (structName : String) (fields : List Field) :
    List (String × Value) → Option String → List Value → Except String (List Value)
  | [], none, values => .ok values
  | [], some err, _ => .error err
  | (key, v) :: members, saved, values =>
    match fieldIndex foldRune fields key with
    | none => decodeMembers foldRune structName fields members saved values
    | some i =>
      match fields[i]? with
      | none => decodeMembers foldRune structName fields members saved values
      | some field =>
        match field.type.decode (values.getD i .null) v with
        | .ok x => decodeMembers foldRune structName fields members saved (values.set i x)
        | .error e =>
          if field.type.custom then .error (e.message structName field.name)
          else decodeMembers foldRune structName fields members
            (saved <|> some (e.message structName field.name)) values

/-- `json.Unmarshal` of an object into a zero struct. -/
def decodeStruct (foldRune : Char → Char) (structName : String) (fields : List Field)
    (members : List (String × Value)) : Except String (List Value) :=
  decodeMembers foldRune structName fields members none (fields.map (·.type.zero))

/-- `json.Marshal` of a struct: its fields in order, each under its JSON name, but for the
empty values of `omitempty` fields. -/
def encodeStruct (fields : List Field) (values : List Value) : List (String × Value) :=
  (fields.zip values).filterMap fun (field, v) =>
    if field.omitempty && field.type.isEmpty v then none else some (field.name, v)

/-! ## Go types -/

namespace GoType

/-- `string`: `null` leaves the field as it is. -/
def string : GoType where
  zero := .string ""
  decode
    | _, .string s => .ok (.string s)
    | current, .null => .ok current
    | _, v => .error ⟨v.kind, "string"⟩
  custom := false
  isEmpty := Value.isEmpty

/-- `bool`. -/
def bool : GoType where
  zero := .bool false
  decode
    | _, .bool b => .ok (.bool b)
    | current, .null => .ok current
    | _, v => .error ⟨v.kind, "bool"⟩
  custom := false
  isEmpty := Value.isEmpty

/-- `int`. -/
def int : GoType where
  zero := .number 0
  decode
    | _, .number n => .ok (.number n)
    | current, .null => .ok current
    | _, v => .error ⟨v.kind, "int"⟩
  custom := false
  isEmpty := Value.isEmpty

/-- An element of a `[]string` or a `map[string]string`, decoded into a zero string. -/
def decodeStringElem (v : Value) : Except UnmarshalTypeError Value :=
  string.decode (.string "") v

/-- `[]string`: an array is decoded element by element, `null` is the nil slice. -/
def strings : GoType where
  zero := .null
  decode
    | _, .array elems => (elems.mapM decodeStringElem).map .array
    | _, .null => .ok .null
    | _, v => .error ⟨v.kind, "[]string"⟩
  custom := false
  isEmpty := Value.isEmpty

mutual
/-- A value decoded into `any`: an object becomes a `map[string]any`. -/
def decodeAny : Value → Value
  | .array elems => .array (decodeAnyList elems)
  | .object members => .object (mapAssign [] (decodeAnyMembers members))
  | v => v

/-- The elements of an array decoded into `any`. -/
def decodeAnyList : List Value → List Value
  | [] => []
  | v :: vs => decodeAny v :: decodeAnyList vs

/-- The members of an object decoded into `any`. -/
def decodeAnyMembers : List (String × Value) → List (String × Value)
  | [] => []
  | (k, v) :: members => (k, decodeAny v) :: decodeAnyMembers members
end

/-- A named `map[string]any` type: an object is assigned into the map the field holds. -/
def anyMap (name : String) : GoType where
  zero := .null
  decode
    | current, .object members =>
      .ok (.object (mapAssign current.entries (decodeAnyMembers members)))
    | _, .null => .ok .null
    | _, v => .error ⟨v.kind, name⟩
  custom := false
  isEmpty := Value.isEmpty

/-- `map[string]string`. -/
def stringMap : GoType where
  zero := .null
  decode
    | current, .object members =>
      (members.mapM fun (member : String × Value) =>
          (decodeStringElem member.2).map fun s => (member.1, s)).map
        fun decoded => .object (mapAssign current.entries decoded)
    | _, .null => .ok .null
    | _, v => .error ⟨v.kind, "map[string]string"⟩
  custom := false
  isEmpty := Value.isEmpty

end GoType

/-! ## Text -/

/-- A byte of the text as Go's syntax errors quote it (`quoteChar`); beyond ASCII, the first
byte of the rune's UTF-8 encoding. -/
def quoteChar (c : Char) : String :=
  if c = '"' then "'\"'"
  else if c.toNat = 39 then "'\\''"
  else if c.toNat < 0x80 then "'" ++ String.ofList (GoText.quoteRune (fun _ => true) c) ++ "'"
  else
    let firstByte :=
      if c.toNat < 0x800 then 0xC0 + c.toNat / 0x40
      else if c.toNat < 0x10000 then 0xE0 + c.toNat / 0x1000
      else 0xF0 + c.toNat / 0x40000
    "'\\x" ++ String.ofList (GoText.hexDigits 2 firstByte) ++ "'"

/-- A character of a string as `json.Marshal` writes it, escaping `<`, `>` and `&` for HTML. -/
def escapeChar (c : Char) : List Char :=
  if c = '"' ∨ c = '\\' then ['\\', c]
  else if c.toNat < 0x80 then
    if 0x20 ≤ c.toNat ∧ c ≠ '<' ∧ c ≠ '>' ∧ c ≠ '&' then [c]
    else if c.toNat = 8 then ['\\', 'b']
    else if c.toNat = 12 then ['\\', 'f']
    else if c = '\n' then ['\\', 'n']
    else if c = '\r' then ['\\', 'r']
    else if c = '\t' then ['\\', 't']
    else '\\' :: 'u' :: '0' :: '0' :: GoText.hexDigits 2 c.toNat
  else if c.toNat = 0x2028 ∨ c.toNat = 0x2029 then '\\' :: 'u' :: GoText.hexDigits 4 c.toNat
  else [c]

/-- A string as `json.Marshal` writes it. -/
def quoteString (s : List Char) : List Char :=
  '"' :: s.flatMap escapeChar ++ ['"']

mutual
/-- The text `json.Marshal` writes for a value. -/
def Value.marshalChars : Value → List Char
  | .null => "null".toList
  | .bool true => "true".toList
  | .bool false => "false".toList
  | .number n => (toString n).toList
  | .string s => quoteString s.toList
  | .array elems => '[' :: marshalElems elems ++ [']']
  | .object members => '\x7b' :: marshalMembers members ++ ['\x7d']

/-- The elements of an array, separated by commas. -/
def marshalElems : List Value → List Char
  | [] => []
  | [v] => v.marshalChars
  | v :: vs => v.marshalChars ++ ',' :: marshalElems vs

/-- The members of an object, separated by commas. -/
def marshalMembers : List (String × Value) → List Char
  | [] => []
  | [(k, v)] => quoteString k.toList ++ ':' :: v.marshalChars
  | (k, v) :: members => quoteString k.toList ++ ':' :: v.marshalChars ++ ',' :: marshalMembers members
end

/-- `json.Marshal`. -/
def Value.marshal (v : Value) : String :=
  String.ofList v.marshalChars

/-- JSON's white space. -/
def isJsonSpace (c : Char) : Bool :=
  c = ' ' || c = '\t' || c = '\n' || c = '\r'

/-- The value of a hexadecimal digit. -/
def hexValue (c : Char) : Option Nat :=
  if '0' ≤ c ∧ c ≤ '9' then some (c.toNat - '0'.toNat)
  else if 'a' ≤ c ∧ c ≤ 'f' then some (c.toNat - 'a'.toNat + 10)
  else if 'A' ≤ c ∧ c ≤ 'F' then some (c.toNat - 'A'.toNat + 10)
  else none

/-- The code of the four hexadecimal digits of a `\u` escape. -/
def hex4 (a b c d : Char) : Option Nat := do
  let a ← hexValue a
  let b ← hexValue b
  let c ← hexValue c
  let d ← hexValue d
  pure (((a * 16 + b) * 16 + c) * 16 + d)

/-- The error at the end of the input. -/
def errUnexpectedEnd : String := "unexpected end of JSON input"

/-- The error of a character the scanner does not expect `context`. -/
def errInvalidChar (c : Char) (context : String) : String :=
  "invalid character " ++ quoteChar c ++ " " ++ context

/-- The error of a \x60\\u\x60 escape whose digits are not four hexadecimal digits. -/
def errBadHex (digits : List Char) : String :=
  match digits.find? (hexValue · = none) with
  | some c => errInvalidChar c "in \\u hexadecimal character escape"
  | none => errUnexpectedEnd

/-- Prepend a character to the text read so far. -/
def consChar (c : Char) :
    Except String (List Char × List Char) → Except String (List Char × List Char) :=
  Except.map fun (s, rest) => (c :: s, rest)

/-- The rune of a \x60\\u\x60 escape on its own: U+FFFD for a surrogate. -/
def escapedRune (code : Nat) : Char :=
  if 0xD800 ≤ code ∧ code < 0xE000 then Char.ofNat 0xFFFD else Char.ofNat code

/-- The characters of a string literal after its opening quote, up to its closing quote, and
the text after it.  A `\u` escape of a surrogate is one rune with the low surrogate escaped
after it, and U+FFFD without one. -/
def parseStringBody : List Char → Except String (List Char × List Char)
  | [] => .error errUnexpectedEnd
  | '"' :: rest => .ok ([], rest)
  | '\\' :: 'u' :: a :: b :: c :: d :: next@('\\' :: 'u' :: e :: f :: g :: h :: rest) =>
    match hex4 a b c d, hex4 e f g h with
    | none, _ => .error (errBadHex [a, b, c, d])
    | some code, low =>
      match low with
      | some low =>
        -- a high surrogate and a low one escaped after it are one rune
        if 0xD800 ≤ code ∧ code < 0xDC00 ∧ 0xDC00 ≤ low ∧ low < 0xE000 then
          consChar (Char.ofNat (0x10000 + (code - 0xD800) * 0x400 + (low - 0xDC00)))
            (parseStringBody rest)
        else consChar (escapedRune code) (parseStringBody next)
      | none => consChar (escapedRune code) (parseStringBody next)
  | '\\' :: 'u' :: a :: b :: c :: d :: rest =>
    match hex4 a b c d with
    | none => .error (errBadHex [a, b, c, d])
    | some code => consChar (escapedRune code) (parseStringBody rest)
  | '\\' :: c :: rest =>
    if c = '"' ∨ c = '\\' ∨ c = '/' then consChar c (parseStringBody rest)
    else if c = 'b' then consChar (Char.ofNat 8) (parseStringBody rest)
    else if c = 'f' then consChar (Char.ofNat 12) (parseStringBody rest)
    else if c = 'n' then consChar '\n' (parseStringBody rest)
    else if c = 'r' then consChar '\r' (parseStringBody rest)
    else if c = 't' then consChar '\t' (parseStringBody rest)
    else if c = 'u' then .error (errBadHex rest)
    else .error (errInvalidChar c "in string escape code")
  | ['\\'] => .error errUnexpectedEnd
  | c :: rest =>
    if c.toNat < 0x20 then .error (errInvalidChar c "in string literal")
    else consChar c (parseStringBody rest)

/-- The natural number of a list of decimal digits. -/
def digitsValue (digits : List Char) : Nat :=
  digits.foldl (fun n d => 10 * n + (d.toNat - '0'.toNat)) 0

/-- A number: an optional minus and an integer part, `0` or digits not starting with `0`. -/
def parseNumber (cs : List Char) : Except String (Value × List Char) :=
  let (negative, cs) := match cs with
    | '-' :: cs => (true, cs)
    | cs => (false, cs)
  let digits := match cs with
    | '0' :: _ => ['0']
    | cs => cs.takeWhile Char.isDigit
  let rest := cs.drop digits.length
  match digits, rest with
  | [], [] => .error errUnexpectedEnd
  | [], c :: _ => .error (errInvalidChar c "in numeric literal")
  | _, c :: _ =>
    if c = '.' ∨ c = 'e' ∨ c = 'E' then .error "json: a number with a fraction or an exponent"
    else .ok (.number (if negative then -(digitsValue digits : Int) else digitsValue digits), rest)
  | _, [] =>
    .ok (.number (if negative then -(digitsValue digits : Int) else digitsValue digits), [])

mutual
/-- A value at the start of the text (after white space), decoded into `any`, and the
text after it; each value and each element or member read costs one unit of fuel. -/
def parseValue : Nat → List Char → Except String (Value × List Char)
  | 0, _ => .error "json: out of fuel"
  | fuel + 1, cs =>
    match cs.dropWhile isJsonSpace with
    | [] => .error errUnexpectedEnd
    | 'n' :: 'u' :: 'l' :: 'l' :: rest => .ok (.null, rest)
    | 't' :: 'r' :: 'u' :: 'e' :: rest => .ok (.bool true, rest)
    | 'f' :: 'a' :: 'l' :: 's' :: 'e' :: rest => .ok (.bool false, rest)
    | '"' :: rest => (parseStringBody rest).map fun (s, rest) => (.string (String.ofList s), rest)
    | '[' :: rest =>
      match rest.dropWhile isJsonSpace with
      | ']' :: rest => .ok (.array [], rest)
      | _ => (parseElems fuel rest).map fun (elems, rest) => (.array elems, rest)
    | '\x7b' :: rest =>
      match rest.dropWhile isJsonSpace with
      | '\x7d' :: rest => .ok (.object [], rest)
      | _ =>
        -- an object decoded into `any` is a map: of two equal keys the last wins
        (parseMembers fuel rest).map fun (members, rest) => (.object (mapAssign [] members), rest)
    | c :: rest =>
      if c = '-' ∨ c.isDigit then parseNumber (c :: rest)
      else .error (errInvalidChar c "looking for beginning of value")

/-- The elements of an array after its `[`, up to its `]`. -/
def parseElems : Nat → List Char → Except String (List Value × List Char)
  | 0, _ => .error "json: out of fuel"
  | fuel + 1, cs =>
    match parseValue fuel cs with
    | .error e => .error e
    | .ok (v, rest) =>
      match rest.dropWhile isJsonSpace with
      | ',' :: rest => (parseElems fuel rest).map fun (elems, rest) => (v :: elems, rest)
      | ']' :: rest => .ok ([v], rest)
      | [] => .error errUnexpectedEnd
      | c :: _ => .error (errInvalidChar c "after array element")

/-- The members of an object after its opening brace, up to its closing brace. -/
def parseMembers : Nat → List Char → Except String (List (String × Value) × List Char)
  | 0, _ => .error "json: out of fuel"
  | fuel + 1, cs =>
    match cs.dropWhile isJsonSpace with
    | '"' :: rest =>
      match parseStringBody rest with
      | .error e => .error e
      | .ok (key, rest) =>
        match rest.dropWhile isJsonSpace with
        | ':' :: rest =>
          match parseValue fuel rest with
          | .error e => .error e
          | .ok (v, rest) =>
            match rest.dropWhile isJsonSpace with
            | ',' :: rest =>
              (parseMembers fuel rest).map fun (members, rest) =>
                ((String.ofList key, v) :: members, rest)
            | '\x7d' :: rest => .ok ([(String.ofList key, v)], rest)
            | [] => .error errUnexpectedEnd
            | c :: _ => .error (errInvalidChar c "after object key:value pair")
        | [] => .error errUnexpectedEnd
        | c :: _ => .error (errInvalidChar c "after object key")
    | [] => .error errUnexpectedEnd
    | c :: _ => .error (errInvalidChar c "looking for beginning of object key string")
end

/-- `json.Unmarshal` of a text into `any`. -/
def unmarshal (s : String) : Except String Value :=
  match parseValue (s.length + 1) s.toList with
  | .error e => .error e
  | .ok (v, rest) =>
    match rest.dropWhile isJsonSpace with
    | [] => .ok v
    | c :: _ => .error (errInvalidChar c "after top-level value")

end GoJson
