import Mathlib.Data.List.Basic

/-!
# URLs in elm/url

`Url.fromString` cuts a URL at its first `#`, then at its first `?`, then at the first `/`
of what is left, and reads the host and an optional port.  `Url.Parser.parse` runs a parser
on the path's segments and on the query, a dictionary of parameters built by `prepareQuery`
from the `&`-separated segments; a segment that is not one `=` between two texts, or whose
parts do not percent-decode, is dropped.  `Url.Parser.Query.int` reads a parameter given
exactly once.

Elm strings are lists of characters here.  Percent-decoding is the JavaScript runtime's
`decodeURIComponent`: it is the parameter `percentDecode`.  `String.toInt` of elm/core is
modelled on its kernel function, with exact integers for JavaScript's numbers.
-/

namespace ElmUrl

/-- `String.toInt`: an optional `+` or `-`, then at least one decimal digit. -/
def toInt (s : List Char) : Option Int :=
  let (negative, digits) : Bool × List Char :=
    match s with
    | '+' :: ds => (false, ds)
    | '-' :: ds => (true, ds)
    | ds => (false, ds)
  if !digits.isEmpty && digits.all Char.isDigit then
    let total : Int := digits.foldl (fun total c => 10 * total + ((c.toNat - 48 : Nat) : Int)) 0
    some (if negative then -total else total)
  else none

/-- `Url.Protocol`. -/
inductive Protocol where
  | http
  | https
  deriving DecidableEq, Repr

/-- `Url.Url`. -/
structure Url where
  protocol : Protocol
  host : List Char
  port : Option Int
  path : List Char
  query : Option (List Char)
  fragment : Option (List Char)
  deriving DecidableEq, Repr

/-- The text before and after the first `c`: `String.left i` and `String.dropLeft (i + 1)` at
the first of `String.indexes c`. -/
def splitFirst (c : Char) : List Char → Option (List Char × List Char)
  | [] => none
  | x :: xs => if x = c then some ([], xs) else (splitFirst c xs).map fun p => (x :: p.1, p.2)

/-- `chompBeforePath`: the host and an optional port; no `@`, and at most one `:`. -/
def chompBeforePath (protocol : Protocol) (path : List Char) (params frag : Option (List Char))
    (str : List Char) : Option Url :=
  if str.isEmpty || str.contains '@' then none
  else
    match splitFirst ':' str with
    | none => some ⟨protocol, str, none, path, params, frag⟩
    | some (host, portText) =>
      if portText.contains ':' then none
      else (toInt portText).map fun port => ⟨protocol, host, some port, path, params, frag⟩

/-- `chompBeforeQuery`: the path starts at the first `/`, and is `/` without one. -/
def chompBeforeQuery (protocol : Protocol) (params frag : Option (List Char)) (str : List Char) :
    Option Url :=
  if str.isEmpty then none
  else
    match splitFirst '/' str with
    | none => chompBeforePath protocol ['/'] params frag str
    | some (before, after) => chompBeforePath protocol ('/' :: after) params frag before

/-- `chompBeforeFragment`: the query follows the first `?`. -/
def chompBeforeFragment (protocol : Protocol) (frag : Option (List Char)) (str : List Char) :
    Option Url :=
  if str.isEmpty then none
  else
    match splitFirst '?' str with
    | none => chompBeforeQuery protocol none frag str
    | some (before, after) => chompBeforeQuery protocol (some after) frag before

/-- `chompAfterProtocol`: the fragment follows the first `#`. -/
def chompAfterProtocol (protocol : Protocol) (str : List Char) : Option Url :=
  if str.isEmpty then none
  else
    match splitFirst '#' str with
    | none => chompBeforeFragment protocol none str
    | some (before, after) => chompBeforeFragment protocol (some after) before

/-- `Url.fromString`. -/
def fromString (str : List Char) : Option Url :=
  if "http://".toList.isPrefixOf str then chompAfterProtocol .http (str.drop 7)
  else if "https://".toList.isPrefixOf str then chompAfterProtocol .https (str.drop 8)
  else none

/-! ## `Url.Parser` -/

/-- `Dict String (List String)`: entries with distinct keys. -/
def Params : Type :=
  List (List Char × List (List Char))

/-- `Dict.get`. -/
def dictGet (key : List Char) (dict : Params) : Option (List (List Char)) :=
  List.lookup key dict

/-- `Dict.update`. -/
def dictUpdate (key : List Char) (alter : Option (List (List Char)) → Option (List (List Char)))
    (dict : Params) : Params :=
  match alter (dictGet key dict) with
  | none => List.filter (fun e => e.1 != key) dict
  | some value => (key, value) :: List.filter (fun e => e.1 != key) dict

/-- `Url.Parser.State`. -/
structure State (α : Type) where
  visited : List (List Char)
  unvisited : List (List Char)
  params : Params
  frag : Option (List Char)
  value : α

/-- `Url.Parser.Parser a b`. -/
def Parser (α β : Type) : Type :=
  State α → List (State β)

/-- `Url.Parser.Query.Parser a`. -/
def QueryParser (α : Type) : Type :=
  Params → α

variable {α γ : Type}

/-- `Url.Parser.Query.custom`. -/
def custom (key : List Char) (func : List (List Char) → α) : QueryParser α :=
  fun dict => func ((dictGet key dict).getD [])

/-- `Url.Parser.Query.int`: a parameter given once, as an integer. -/
def int (key : List Char) : QueryParser (Option Int) :=
  custom key fun stringList =>
    match stringList with
    | [str] => toInt str
    | _ => none

/-- `Url.Parser.query`. -/
def query (queryParser : QueryParser γ) : Parser (γ → α) α :=
  fun st => [⟨st.visited, st.unvisited, st.params, st.frag, st.value (queryParser st.params)⟩]

/-- `removeFinalEmpty`. -/
def removeFinalEmpty : List (List Char) → List (List Char)
  | [] => []
  | [[]] => []
  | segment :: rest => segment :: removeFinalEmpty rest

/-- `preparePath`: the segments of the path, with no leading or final empty one. -/
def preparePath (path : List Char) : List (List Char) :=
  match path.splitOn '/' with
  | [] :: segments => removeFinalEmpty segments
  | segments => removeFinalEmpty segments

/-- `addToParametersHelp`. -/
def addToParametersHelp (value : List Char) : Option (List (List Char)) → Option (List (List Char))
  | none => some [value]
  | some list => some (value :: list)

/-- `getFirstMatch`: the first state with the whole path read. -/
def getFirstMatch : List (State α) → Option α
  | [] => none
  | state :: rest =>
    match state.unvisited with
    | [] => some state.value
    | [[]] => some state.value
    | _ => getFirstMatch rest

section Decode

variable (percentDecode : List Char → Option (List Char))

/-- `addParam`. -/
def addParam (segment : List Char) (dict : Params) : Params :=
  match segment.splitOn '=' with
  | [rawKey, rawValue] =>
    match percentDecode rawKey with
    | none => dict
    | some key =>
      match percentDecode rawValue with
      | none => dict
      | some value => dictUpdate key (addToParametersHelp value) dict
  | _ => dict

/-- `prepareQuery`. -/
def prepareQuery : Option (List Char) → Params
  | none => []
  | some qry => (qry.splitOn '&').foldr (addParam percentDecode) []

/-- `Url.Parser.parse`. -/
def parse (parser : Parser (α → α) α) (url : Url) : Option α :=
  getFirstMatch
    (parser ⟨[], preparePath url.path, prepareQuery percentDecode url.query, url.fragment, id⟩)

end Decode

/-! ## The path parsers of `Url.Parser` -/

namespace Parser

variable {α β γ δ : Type}

/-- `Url.Parser.s`: the next segment, when it is `str`. -/
def s (str : List Char) : Parser α α := fun st =>
  match st.unvisited with
  | next :: rest =>
    if next = str then [⟨next :: st.visited, rest, st.params, st.frag, st.value⟩] else []
  | [] => []

/-- `Url.Parser.custom`: the next segment, when `stringToSomething` reads it. -/
def custom (stringToSomething : List Char → Option β) : Parser (β → α) α := fun st =>
  match st.unvisited with
  | next :: rest =>
    match stringToSomething next with
    | some nextValue => [⟨next :: st.visited, rest, st.params, st.frag, st.value nextValue⟩]
    | none => []
  | [] => []

/-- `Url.Parser.string`: the next segment, as it is. -/
def string : Parser (List Char → α) α :=
  custom some

/-- `Url.Parser.int`: the next segment, read by `String.toInt`. -/
def int : Parser (Int → α) α :=
  custom toInt

/-- `Url.Parser.top`. -/
def top : Parser α α := fun st => [st]

/-- `Url.Parser.mapState`. -/
def mapState (func : α → β) (st : State α) : State β :=
  ⟨st.visited, st.unvisited, st.params, st.frag, func st.value⟩

/-- `Url.Parser.map`: the parser run with `subValue` as its value, and each result given to
the value it was run with. -/
def map (subValue : α) (parseArg : Parser α β) : Parser (β → γ) γ := fun st =>
  (parseArg ⟨st.visited, st.unvisited, st.params, st.frag, subValue⟩).map (mapState st.value)

/-- `Url.Parser.oneOf`: the results of every parser, in order. -/
def oneOf (parsers : List (Parser α β)) : Parser α β := fun st =>
  parsers.flatMap fun parser => parser st

/-- `Url.Parser.slash`, `</>`. -/
def slash (parseBefore : Parser α β) (parseAfter : Parser β γ) : Parser α γ := fun st =>
  (parseBefore st).flatMap parseAfter

/-- `Url.Parser.questionMark`, `<?>`. -/
def questionMark (parser : Parser α (δ → β)) (queryParser : QueryParser δ) : Parser α β :=
  slash parser (query queryParser)

/-- `Url.Parser.fragment`. -/
def fragment (toFrag : Option (List Char) → δ) : Parser (δ → α) α := fun st =>
  [⟨st.visited, st.unvisited, st.params, st.frag, st.value (toFrag st.frag)⟩]

end Parser

/-! ## `Url.Parser.Query` -/

namespace Query

variable {β : Type}

/-- `Url.Parser.Query.string`: a parameter given once. -/
def string (key : List Char) : QueryParser (Option (List Char)) :=
  custom key fun stringList =>
    match stringList with
    | [str] => some str
    | _ => none

/-- `Url.Parser.Query.enum`: a parameter given once, looked up in `dict`. -/
def enum (key : List Char) (dict : List (List Char × β)) : QueryParser (Option β) :=
  custom key fun stringList =>
    match stringList with
    | [str] => dict.lookup str
    | _ => none

/-- `Url.Parser.Query.map`. -/
def map (func : α → β) (a : QueryParser α) : QueryParser β := fun dict =>
  func (a dict)

end Query

/-! ## `Url.Builder` -/

/-- The hexadecimal digit of `n < 16`, in upper case. -/
def hexDigit (n : Nat) : Char :=
  "0123456789ABCDEF".toList.getD n '0'

/-- The characters `encodeURIComponent` leaves as they are. -/
def isUnreserved (c : Char) : Bool :=
  c.isAlphanum || ['-', '_', '.', '!', '~', '*', '\'', '(', ')'].contains c

/-- A character as `encodeURIComponent` writes it: as it is when unreserved, and otherwise
each byte of its UTF-8 encoding as `%XX`. -/
def percentEncodeChar (c : Char) : List Char :=
  if isUnreserved c then [c]
  else (String.utf8EncodeChar c).flatMap fun b =>
    ['%', hexDigit (b.toNat / 16), hexDigit (b.toNat % 16)]

/-- `Url.percentEncode`, the runtime's `encodeURIComponent`. -/
def percentEncode (str : List Char) : List Char :=
  str.flatMap percentEncodeChar

/-- `String.fromInt`. -/
def fromInt (n : Int) : List Char :=
  (toString n).toList

/-- `Url.Builder.QueryParameter`: a key and a value, both percent-encoded. -/
structure QueryParameter where
  key : List Char
  value : List Char
  deriving DecidableEq, Repr

namespace Builder

/-- `Url.Builder.string`. -/
def string (key value : List Char) : QueryParameter :=
  ⟨percentEncode key, percentEncode value⟩

/-- `Url.Builder.int`. -/
def int (key : List Char) (value : Int) : QueryParameter :=
  ⟨percentEncode key, fromInt value⟩

/-- `Url.Builder.toQueryPair`. -/
def toQueryPair (parameter : QueryParameter) : List Char :=
  parameter.key ++ '=' :: parameter.value

/-- `Url.Builder.toQuery`: nothing without parameters. -/
def toQuery : List QueryParameter → List Char
  | [] => []
  | parameters => '?' :: ['&'].intercalate (parameters.map toQueryPair)

/-- `Url.Builder.absolute`: the segments are joined as they are, without encoding. -/
def absolute (pathSegments : List (List Char)) (parameters : List QueryParameter) : List Char :=
  '/' :: ['/'].intercalate pathSegments ++ toQuery parameters

end Builder

/-! ## Percent-decoding -/

/-- What `decodeURIComponent` does on texts whose escapes are of ASCII characters, written
with upper-case digits: it copies every character but `%`, and reads such an escape as its
character. -/
structure PercentDecodeLaw (percentDecode : List Char → Option (List Char)) : Prop where
  nil : percentDecode [] = some []
  plain : ∀ c s, c ≠ '%' → percentDecode (c :: s) = (percentDecode s).map (c :: ·)
  escape : ∀ c s, c.toNat < 128 →
    percentDecode ('%' :: hexDigit (c.toNat / 16) :: hexDigit (c.toNat % 16) :: s) =
      (percentDecode s).map (c :: ·)

/-- `%` is escaped. -/
theorem isUnreserved_percent : isUnreserved '%' = false := by decide

/-- An ASCII character that is not unreserved is written as one escape of its code. -/
theorem percentEncodeChar_of_lt {c : Char} (hc : c.toNat < 128) (hu : isUnreserved c = false) :
    percentEncodeChar c = ['%', hexDigit (c.toNat / 16), hexDigit (c.toNat % 16)] := by
  have hval : c.val ≤ 127 := by
    rw [UInt32.le_iff_toNat_le]
    exact Nat.le_of_lt_succ hc
  have htoNat : c.val.toUInt8.toNat = c.toNat := by
    have h : c.toNat = c.val.toNat := rfl
    rw [UInt32.toNat_toUInt8]
    omega
  rw [percentEncodeChar, if_neg (by simp [hu]),
    String.utf8EncodeChar_eq_singleton (Char.utf8Size_eq_one_iff.mpr hval), List.flatMap_singleton,
    htoNat]

/-- The value of an upper-case hexadecimal digit. -/
def hexValue (c : Char) : Option Nat :=
  "0123456789ABCDEF".toList.idxOf? c

theorem hexValue_hexDigit : ∀ n, n < 16 → hexValue (hexDigit n) = some n
  | 0, _ => by decide
  | 1, _ => by decide
  | 2, _ => by decide
  | 3, _ => by decide
  | 4, _ => by decide
  | 5, _ => by decide
  | 6, _ => by decide
  | 7, _ => by decide
  | 8, _ => by decide
  | 9, _ => by decide
  | 10, _ => by decide
  | 11, _ => by decide
  | 12, _ => by decide
  | 13, _ => by decide
  | 14, _ => by decide
  | 15, _ => by decide
  | _ + 16, h => by omega

/-- A decoder that keeps the law: `decodeURIComponent` on texts whose escapes are upper-case
ASCII ones, refusing every other escape. -/
def asciiPercentDecode : List Char → Option (List Char)
  | [] => some []
  | c :: s =>
    if c = '%' then
      match s with
      | h :: l :: rest =>
        match hexValue h, hexValue l with
        | some a, some b =>
          if 16 * a + b < 128 then (asciiPercentDecode rest).map (Char.ofNat (16 * a + b) :: ·)
          else none
        | _, _ => none
      | _ => none
    else (asciiPercentDecode s).map (c :: ·)

namespace PercentDecodeLaw

variable {percentDecode : List Char → Option (List Char)}

/-- Text without `%` decodes to itself. -/
theorem decode_of_plain (h : PercentDecodeLaw percentDecode) :
    ∀ s : List Char, '%' ∉ s → percentDecode s = some s
  | [], _ => h.nil
  | c :: s, hs => by
    have hc : c ≠ '%' := fun e => hs (e ▸ List.mem_cons_self)
    have hrest : '%' ∉ s := fun hm => hs (List.mem_cons_of_mem _ hm)
    rw [h.plain c s hc, decode_of_plain h s hrest]
    rfl

/-- ASCII text decodes back from its encoding. -/
theorem decode_percentEncode (h : PercentDecodeLaw percentDecode) :
    ∀ s : List Char, (∀ c ∈ s, c.toNat < 128) → percentDecode (percentEncode s) = some s
  | [], _ => h.nil
  | c :: s, hs => by
    have hc : c.toNat < 128 := hs c List.mem_cons_self
    have hrest : percentDecode (percentEncode s) = some s :=
      decode_percentEncode h s fun d hd => hs d (List.mem_cons_of_mem _ hd)
    rw [percentEncode, List.flatMap_cons, ← percentEncode]
    cases hu : isUnreserved c with
    | true =>
      -- an unreserved character is not `%`, and is copied
      have hne : c ≠ '%' := by
        rintro rfl
        rw [isUnreserved_percent] at hu
        exact Bool.false_ne_true hu
      rw [percentEncodeChar, if_pos hu, List.singleton_append, h.plain c _ hne, hrest]
      rfl
    | false =>
      rw [percentEncodeChar_of_lt hc hu, List.cons_append, List.cons_append, List.cons_append,
        List.nil_append, h.escape c _ hc, hrest]
      rfl

end PercentDecodeLaw

theorem asciiPercentDecode_law : PercentDecodeLaw asciiPercentDecode where
  nil := rfl
  plain c s hc := by
    rw [asciiPercentDecode.eq_def]
    simp only [if_neg hc]
  escape c s hc := by
    have hhi : hexValue (hexDigit (c.toNat / 16)) = some (c.toNat / 16) :=
      hexValue_hexDigit _ (by omega)
    have hlo : hexValue (hexDigit (c.toNat % 16)) = some (c.toNat % 16) :=
      hexValue_hexDigit _ (Nat.mod_lt _ (by decide))
    have hval : 16 * (c.toNat / 16) + c.toNat % 16 = c.toNat := Nat.div_add_mod _ _
    rw [asciiPercentDecode.eq_def]
    simp only [hhi, hlo, hval, if_pos hc, Char.ofNat_toNat, ↓reduceIte]

end ElmUrl
