import Mathlib.Data.List.Basic
import Mathlib.Algebra.Group.Nat.Defs

/-!
# Go's text functions

`unicode.IsSpace`, `strings.TrimSpace`, `strings.ContainsAny`, `strconv.Quote`, the verbs
`%x` and `%d` of `fmt` on integers, and the escaping of `net/url`, on strings as lists of
characters.  Go indexes strings
by bytes and these functions walk them rune by rune; with a string as its list of runes every
index below is a rune index, used only to cut the same list.

Whether a rune beyond Latin-1 is printable comes from Unicode's tables and is the parameter
`isPrint` of `quote`.
-/

namespace GoText

/-- `unicode.IsSpace`: the characters of Unicode's `White_Space` property. -/
def isSpace (c : Char) : Bool :=
  [0x09, 0x0A, 0x0B, 0x0C, 0x0D, 0x20, 0x85, 0xA0, 0x1680, 0x2028, 0x2029, 0x202F, 0x205F,
    0x3000].contains c.toNat || (0x2000 ≤ c.toNat && c.toNat ≤ 0x200A)

/-- `strings.TrimSpace`. -/
def trimSpace (s : List Char) : List Char :=
  ((s.dropWhile isSpace).reverse.dropWhile isSpace).reverse

/-- `strings.ContainsAny`. -/
def containsAny (s chars : List Char) : Bool :=
  s.any (· ∈ chars)

/-- `strings.Contains`: `substr` starts at some position of `s`. -/
def contains : List Char → List Char → Bool
  | [], substr => substr.isEmpty
  | c :: s, substr => substr.isPrefixOf (c :: s) || contains s substr

/-- The lowercase hexadecimal digit of `n < 16`. -/
def hexDigit (n : Nat) : Char :=
  "0123456789abcdef".toList.getD n '0'

/-- The last `width` lowercase hexadecimal digits of `n`. -/
def hexDigits (width n : Nat) : List Char :=
  (List.range width).reverse.map fun i => hexDigit (n / 16 ^ i % 16)

/-- `strconv.IsPrint`: Latin-1 by its own table, the rest by `isPrint`. -/
def isPrintRune (isPrint : Char → Bool) (c : Char) : Bool :=
  if c.toNat ≤ 0xFF then
    (0x20 ≤ c.toNat && c.toNat ≤ 0x7E) || (0xA1 ≤ c.toNat && c.toNat != 0xAD)
  else isPrint c

/-- A rune as `strconv.Quote` writes it. -/
def quoteRune (isPrint : Char → Bool) (c : Char) : List Char :=
  if c = '"' ∨ c = '\\' then ['\\', c]
  else if isPrintRune isPrint c then [c]
  else if c.toNat = 7 then ['\\', 'a']
  else if c.toNat = 8 then ['\\', 'b']
  else if c.toNat = 12 then ['\\', 'f']
  else if c = '\n' then ['\\', 'n']
  else if c = '\r' then ['\\', 'r']
  else if c = '\t' then ['\\', 't']
  else if c.toNat = 11 then ['\\', 'v']
  else if c.toNat < 0x20 ∨ c.toNat = 0x7F then '\\' :: 'x' :: hexDigits 2 c.toNat
  else if c.toNat < 0x10000 then '\\' :: 'u' :: hexDigits 4 c.toNat
  else '\\' :: 'U' :: hexDigits 8 c.toNat

/-- `strconv.Quote`, the verb `%q` of a string. -/
def quote (isPrint : Char → Bool) (s : List Char) : List Char :=
  '"' :: s.flatMap (quoteRune isPrint) ++ ['"']

/-! ## The verbs `%x` and `%d` -/

/-- The verb `%x` of an integer: lowercase hexadecimal digits, with `-` before a negative. -/
def fmtHex (n : Int) : List Char :=
  if n < 0 then '-' :: Nat.toDigits 16 n.natAbs else Nat.toDigits 16 n.natAbs

/-- The value of a lowercase hexadecimal digit. -/
def hexDigitValue (c : Char) : Nat :=
  if c.toNat < 58 then c.toNat - 48 else c.toNat - 87

/-- The number that lowercase hexadecimal digits write. -/
def ofHexDigits (cs : List Char) : Nat :=
  cs.foldl (fun n c => 16 * n + hexDigitValue c) 0

theorem hexDigitValue_digitChar {d : Nat} (h : d < 16) : hexDigitValue (Nat.digitChar d) = d := by
  revert d
  decide

theorem ofHexDigits_append_digitChar (cs : List Char) {d : Nat} (h : d < 16) :
    ofHexDigits (cs ++ [Nat.digitChar d]) = 16 * ofHexDigits cs + d := by
  simp [ofHexDigits, List.foldl_append, hexDigitValue_digitChar h]

/-- `Nat.toDigits 16` writes digits only. -/
theorem mem_toDigits_sixteen {c : Char} (n : Nat) (h : c ∈ Nat.toDigits 16 n) :
    ∃ d < 16, c = Nat.digitChar d := by
  induction n using Nat.strongRecOn with
  | _ n ih =>
    rw [Nat.toDigits_eq_if (by decide)] at h
    split at h
    · exact ⟨n, ‹_›, List.mem_singleton.mp h⟩
    · rcases List.mem_append.mp h with h | h
      · exact ih (n / 16) (by omega) h
      · exact ⟨n % 16, Nat.mod_lt n (by decide), List.mem_singleton.mp h⟩

/-- `ofHexDigits` reads back what `Nat.toDigits 16` writes. -/
theorem ofHexDigits_toDigits (n : Nat) : ofHexDigits (Nat.toDigits 16 n) = n := by
  induction n using Nat.strongRecOn with
  | _ n ih =>
    rw [Nat.toDigits_eq_if (by decide)]
    split
    · simpa [ofHexDigits] using ofHexDigits_append_digitChar [] ‹n < 16›
    · rw [ofHexDigits_append_digitChar _ (Nat.mod_lt n (by decide)), ih (n / 16) (by omega)]
      omega

theorem toDigits_sixteen_injective {m n : Nat} (h : Nat.toDigits 16 m = Nat.toDigits 16 n) :
    m = n :=
  calc m = ofHexDigits (Nat.toDigits 16 m) := (ofHexDigits_toDigits m).symm
    _ = ofHexDigits (Nat.toDigits 16 n) := by rw [h]
    _ = n := ofHexDigits_toDigits n

theorem fmtHex_injective {m n : Int} (h : fmtHex m = fmtHex n) : m = n := by
  have hdash : ∀ k, '-' ∉ Nat.toDigits 16 k := fun k hk => by
    obtain ⟨d, hd, hc⟩ := mem_toDigits_sixteen k hk
    revert d
    decide
  unfold fmtHex at h
  split at h <;> split at h
  · have := toDigits_sixteen_injective (List.cons.inj h).2
    omega
  · exact absurd (h ▸ List.mem_cons_self) (hdash _)
  · exact absurd (h ▸ List.mem_cons_self) (hdash _)
  · have := toDigits_sixteen_injective h
    omega

theorem slash_not_mem_fmtHex (n : Int) : '/' ∉ fmtHex n := by
  have hdigits : ∀ k, '/' ∉ Nat.toDigits 16 k := fun k hk => by
    obtain ⟨d, hd, hc⟩ := mem_toDigits_sixteen k hk
    revert d
    decide
  unfold fmtHex
  split
  · simpa using hdigits _
  · exact hdigits _

/-- The verb `%d` of an integer: decimal digits, with `-` before a negative. -/
def fmtInt (n : Int) : List Char :=
  if n < 0 then '-' :: Nat.toDigits 10 n.natAbs else Nat.toDigits 10 n.natAbs

theorem toDigits_ten_injective {m n : Nat} (h : Nat.toDigits 10 m = Nat.toDigits 10 n) : m = n :=
  calc m = Nat.ofDigitChars 10 (Nat.toDigits 10 m) 0 := Nat.ofDigitChars_ten_toDigits.symm
    _ = Nat.ofDigitChars 10 (Nat.toDigits 10 n) 0 := by rw [h]
    _ = n := Nat.ofDigitChars_ten_toDigits

theorem not_mem_toDigits_ten {c : Char} (hc : c.isDigit = false) (n : Nat) :
    c ∉ Nat.toDigits 10 n := fun h => by
  simp [Nat.isDigit_of_mem_toDigits (by decide) (by decide) h] at hc

/-- Text cut at the last separator: the parts after it, free of the separator, are equal, and
so are the parts before. -/
theorem append_cons_inj_of_not_mem {α : Type} {c : α} {a b s t : List α} (hs : c ∉ s)
    (ht : c ∉ t) (h : a ++ c :: s = b ++ c :: t) : a = b ∧ s = t := by
  rcases List.append_eq_append_iff.mp h with ⟨as, rfl, has⟩ | ⟨bs, rfl, hbs⟩
  · cases as with
    | nil => simpa using has
    | cons x as =>
      obtain ⟨rfl, rfl⟩ := List.cons.inj has
      simp at hs
  · cases bs with
    | nil => simpa using hbs.symm
    | cons x bs =>
      obtain ⟨rfl, rfl⟩ := List.cons.inj hbs
      simp at ht

/-- The loop of `strings.ReplaceAll`, with a unit of fuel for each character. -/
def replaceAllFrom (old new : List Char) : Nat → List Char → List Char
  | 0, s => s
  | _ + 1, [] => []
  | fuel + 1, c :: s =>
    if !old.isEmpty && old.isPrefixOf (c :: s) then
      new ++ replaceAllFrom old new fuel ((c :: s).drop old.length)
    else c :: replaceAllFrom old new fuel s

/-- `strings.ReplaceAll` for a non-empty `old`: its non-overlapping occurrences, leftmost first,
replaced by `new`. -/
def replaceAll (s old new : List Char) : List Char :=
  replaceAllFrom old new s.length s

/-- With a one-character `old`, the loop maps each character to itself or to `new`. -/
theorem replaceAllFrom_singleton (c : Char) (new : List Char) :
    ∀ (fuel : Nat) (s : List Char), s.length ≤ fuel →
      replaceAllFrom [c] new fuel s = s.flatMap fun d => if d = c then new else [d]
  | 0, [], _ => rfl
  | 0, _ :: _, h => by simp at h
  | _ + 1, [], _ => rfl
  | fuel + 1, d :: s, h => by
    have ih := replaceAllFrom_singleton c new fuel s (by simp at h; omega)
    by_cases hd : d = c
    · subst hd
      simp [replaceAllFrom, ih]
    · simp [replaceAllFrom, List.isPrefixOf, Ne.symm hd, hd, ih]

theorem replaceAll_singleton (s : List Char) (c : Char) (new : List Char) :
    replaceAll s [c] new = s.flatMap fun d => if d = c then new else [d] :=
  replaceAllFrom_singleton c new s.length s (Nat.le_refl _)

/-! ## `net/url` -/

/-- The uppercase hexadecimal digit of `n < 16`. -/
def upperHexDigit (n : Nat) : Char :=
  "0123456789ABCDEF".toList.getD n '0'

/-- The bytes `shouldEscape(c, encodeQueryComponent)` leaves alone. -/
def isUnreservedQueryChar (c : Char) : Bool :=
  c.isAlphanum || c == '-' || c == '_' || c == '.' || c == '~'

/-- A rune as `url.QueryEscape` writes its bytes: unreserved bytes as they are, a space as
`+`, every other byte of its UTF-8 encoding as `%XX`. -/
def queryEscapeRune (c : Char) : List Char :=
  if isUnreservedQueryChar c then [c]
  else if c = ' ' then ['+']
  else (String.utf8EncodeChar c).flatMap fun b =>
    ['%', upperHexDigit (b.toNat / 16), upperHexDigit (b.toNat % 16)]

/-- `url.QueryEscape`. -/
def queryEscape (s : List Char) : List Char :=
  s.flatMap queryEscapeRune

/-- `url.Values.Encode`: `key=value` pairs, escaped, joined by `&`, by sorted key. -/
def valuesEncode (v : List (String × List String)) : List Char :=
  let keys := v.mergeSort fun a b => decide (a.1 ≤ b.1)
  ['&'].intercalate (keys.flatMap fun kv =>
    kv.2.map fun value => queryEscape kv.1.toList ++ '=' :: queryEscape value.toList)

/-- `Values.Add`: the value appended to those of its key, in a map held in key order. -/
def valuesAdd : List (String × List String) → String → String → List (String × List String)
  | [], key, value => [(key, [value])]
  | (k, vs) :: v, key, value =>
    if key < k then (key, [value]) :: (k, vs) :: v
    else if key = k then (k, vs ++ [value]) :: v
    else (k, vs) :: valuesAdd v key value

/-- `ParseQuery` of a query whose parameters decode to `pairs`: each pair added in order. -/
def parseQuery (pairs : List (String × String)) : List (String × List String) :=
  pairs.foldl (fun v kv => valuesAdd v kv.1 kv.2) []

end GoText
