import Mathlib.Data.List.Basic

/-!
# The parser combinators of elm/parser

`Parser.Advanced` runs a parser on a state and answers `Good progress value state` or
`Bad progress problems`.  The flag `progress` records whether the parser consumed input.
`oneOf` tries its next parser only after a failure without progress.  `backtrackable`
clears the flag, and `map2`, behind `|=` and `|.`, joins the flags of its two parsers.  The
model keeps the rest of the input as the state, and drops problems, positions and context:
`run` answers only whether it succeeded, and with what.

The lemmas run each combinator on input of a known shape, so that a parser built from them
runs by rewriting.  The last section says what the combinators consume: what a parser leaves is
a suffix of its input (`LeavesSuffix`), it consumes on a given input whenever it succeeds there
(`AdvancesOn`), it always succeeds (`NeverFails`), or it fails only without progress, so that a
`oneOf` goes on past it (`Backtracks`).  These are what a proof that a `loop` ends is built
from.
-/

namespace ElmParser

/-- `PStep`: what a parser answers. -/
inductive PStep (α : Type) where
  | good (progress : Bool) (value : α) (rest : List Char)
  | bad (progress : Bool)
  deriving DecidableEq, Repr

/-- An answer after a parser whose progress was `pr`. -/
def PStep.orProgress {α : Type} (pr : Bool) : PStep α → PStep α
  | .good p a rest => .good (pr || p) a rest
  | .bad p => .bad (pr || p)

@[simp] theorem PStep.orProgress_good {α : Type} (pr p : Bool) (a : α) (rest : List Char) :
    (PStep.good p a rest).orProgress pr = .good (pr || p) a rest := rfl

@[simp] theorem PStep.orProgress_bad {α : Type} (pr p : Bool) :
    (PStep.bad p : PStep α).orProgress pr = .bad (pr || p) := rfl

theorem PStep.orProgress_orProgress {α : Type} (pr pq : Bool) (step : PStep α) :
    (step.orProgress pq).orProgress pr = step.orProgress (pr || pq) := by
  cases step <;> simp [Bool.or_assoc]

/-- `Parser a`: a function of the input left. -/
def Parser (α : Type) : Type :=
  List Char → PStep α

variable {α β γ : Type}

/-- `succeed`. -/
def succeed (a : α) : Parser α :=
  fun s => .good false a s

/-- `symbol` and `token`: the input starts with `str`. -/
def symbol (str : List Char) : Parser Unit :=
  fun s => if str.isPrefixOf s then .good (!str.isEmpty) () (s.drop str.length) else .bad false

/-- Whether a keyword would run on into the character: `Char.isAlphaNum c || c == '_'`. -/
def continuesKeyword (c : Char) : Bool :=
  c.isAlphanum || c == '_'

/-- `keyword`: the input starts with `kwd`, and no letter, digit or `_` follows it. -/
def keyword (kwd : List Char) : Parser Unit :=
  fun s =>
    if kwd.isPrefixOf s && !((s.drop kwd.length).head?.any continuesKeyword) then
      .good (!kwd.isEmpty) () (s.drop kwd.length)
    else .bad false

/-- `chompWhile`. -/
def chompWhile (isGood : Char → Bool) : Parser Unit :=
  fun s => .good (!(s.takeWhile isGood).isEmpty) () (s.dropWhile isGood)

/-- `spaces`: `chompWhile (\c -> c == ' ' || c == '\n' || c == '\r')`. -/
def spaces : Parser Unit :=
  chompWhile fun c => c == ' ' || c == '\n' || c == '\r'

/-- `getChompedString`: the text the parser consumed. -/
def getChompedString (p : Parser α) : Parser (List Char) :=
  fun s =>
    match p s with
    | .good progress _ rest => .good progress (s.take (s.length - rest.length)) rest
    | .bad progress => .bad progress

/-- `backtrackable`: the parser's answer, with no progress. -/
def backtrackable (p : Parser α) : Parser α :=
  fun s =>
    match p s with
    | .good _ a rest => .good false a rest
    | .bad _ => .bad false

/-- `map2`: one parser after the other, with the flags joined. -/
def map2 (f : α → β → γ) (pa : Parser α) (pb : Parser β) : Parser γ :=
  fun s =>
    match pa s with
    | .bad p => .bad p
    | .good p₁ a s₁ =>
      match pb s₁ with
      | .bad p₂ => .bad (p₁ || p₂)
      | .good p₂ b s₂ => .good (p₁ || p₂) (f a b) s₂

/-- `parseFunc |= parseArg`. -/
def keeper (pf : Parser (α → β)) (pa : Parser α) : Parser β :=
  map2 (fun f a => f a) pf pa

/-- `keepParser |. ignoreParser`. -/
def ignorer (pk : Parser α) (pi : Parser β) : Parser α :=
  map2 (fun a _ => a) pk pi

/-- `p |. q₁ |. q₂ |. ...`. -/
def ignoring (p : Parser α) (qs : List (Parser Unit)) : Parser α :=
  qs.foldl ignorer p

/-- `oneOf`: the first parser that succeeds or fails after progress. -/
def oneOf : List (Parser α) → Parser α
  | [] => fun _ => .bad false
  | p :: ps => fun s =>
    match p s with
    | .bad false => oneOf ps s
    | step => step

/-- `run`, with its problems dropped. -/
def run (p : Parser α) (src : List Char) : Option α :=
  match p src with
  | .good _ a _ => some a
  | .bad _ => none

/-- `map`. -/
def map (func : α → β) (p : Parser α) : Parser β :=
  fun s =>
    match p s with
    | .good progress a rest => .good progress (func a) rest
    | .bad progress => .bad progress

/-- `andThen`: the parser the callback picks, after the first, with the flags joined. -/
def andThen (callback : α → Parser β) (p : Parser α) : Parser β :=
  fun s =>
    match p s with
    | .bad progress => .bad progress
    | .good p₁ a s₁ => (callback a s₁).orProgress p₁

/-- `problem`. -/
def problem : Parser α :=
  fun _ => .bad false

/-- `succeed String.dropLeft |= getOffset |= getSource`: the input not read yet. -/
def getRest : Parser (List Char) :=
  fun s => .good false s s

/-- `findSubString`: the input from the first place where `str` starts. -/
def findSubString (str : List Char) : List Char → Option (List Char)
  | [] => if str.isEmpty then some [] else none
  | c :: cs => if str.isPrefixOf (c :: cs) then some (c :: cs) else findSubString str cs

/-- `chompUntil`: up to the first `str`, which it does not consume. -/
def chompUntil (str : List Char) : Parser Unit :=
  fun s =>
    match findSubString str s with
    | some rest => .good (rest.length < s.length) () rest
    | none => .bad false

/-- `chompUntilEndOr`: up to the first `str`, which it does not consume, or to the end. -/
def chompUntilEndOr (str : List Char) : Parser Unit :=
  fun s =>
    match findSubString str s with
    | some rest => .good (rest.length < s.length) () rest
    | none => .good (!s.isEmpty) () []

/-- `end`: only the end of the input. -/
def end' : Parser Unit :=
  fun s => if s.isEmpty then .good false () s else .bad false

/-- `skip`: the first parser's value dropped. -/
def skip (iParser : Parser α) (kParser : Parser β) : Parser β :=
  map2 (fun _ b => b) iParser kParser

/-- `Parser.Step`: what each round of a `loop` answers. -/
inductive Step (σ α : Type) where
  | loop (newState : σ)
  | done (result : α)

/-- `loopHelp`, with at most `fuel` rounds. -/
def loopHelp {σ : Type} (callback : σ → Parser (Step σ α)) : Nat → Bool → σ → Parser α
  | 0, p, _ => fun _ => .bad p
  | fuel + 1, p, state => fun s₀ =>
    match callback state s₀ with
    | .good p₁ (.loop newState) s₁ => loopHelp callback fuel (p || p₁) newState s₁
    | .good p₁ (.done result) s₁ => .good (p || p₁) result s₁
    | .bad p₁ => .bad (p || p₁)

/-- `loop`.  A loop whose round consumes nothing does not end in Elm; the model's gives up
after one round more than the input has characters, which a loop whose every round but the
last consumes input never reaches. -/
def loop {σ : Type} (state : σ) (callback : σ → Parser (Step σ α)) : Parser α :=
  fun s => loopHelp callback (s.length + 1) false state s

/-- `sequenceEndForbidden`: a separator and an item, or the end. -/
def sequenceEndForbidden (ender ws : Parser Unit) (parseItem : Parser α) (sep : Parser Unit)
    (revItems : List α) : Parser (Step (List α) (List α)) :=
  skip ws <|
    oneOf
      [skip sep <| skip ws <| map (fun item => .loop (item :: revItems)) parseItem,
        map (fun _ => .done revItems.reverse) ender]

/-- `sequenceEnd` with `trailing = Forbidden`: items, or the end at once. -/
def sequenceEnd (ender ws : Parser Unit) (parseItem : Parser α) (sep : Parser Unit) :
    Parser (List α) :=
  oneOf
    [andThen (fun item => loop [item] (sequenceEndForbidden ender ws parseItem sep)) parseItem,
      map (fun _ => []) ender]

/-- `sequence` with `trailing = Forbidden`, the only one the UI uses. -/
def sequence (start separator ender : List Char) (ws : Parser Unit) (item : Parser α) :
    Parser (List α) :=
  skip (symbol start) <| skip ws <| sequenceEnd (symbol ender) ws item (symbol separator)

/-! ## Running the combinators -/

theorem symbol_append (str s : List Char) :
    symbol str (str ++ s) = .good (!str.isEmpty) () s := by
  simp [symbol, List.isPrefixOf_iff_prefix]

theorem symbol_of_not_prefix {str s : List Char} (h : ¬ str <+: s) : symbol str s = .bad false := by
  simp [symbol, List.isPrefixOf_iff_prefix, h]

theorem keyword_append {kwd s : List Char} (h : ∀ c ∈ s.head?, continuesKeyword c = false) :
    keyword kwd (kwd ++ s) = .good (!kwd.isEmpty) () s := by
  have hnext : (s.head?.any continuesKeyword) = false := by
    cases hs : s.head? with
    | none => rfl
    | some c => simpa using h c (by simp [hs])
  simp [keyword, List.isPrefixOf_iff_prefix, hnext]

theorem keyword_of_not_prefix {kwd s : List Char} (h : ¬ kwd <+: s) :
    keyword kwd s = .bad false := by
  simp [keyword, List.isPrefixOf_iff_prefix, h]

theorem symbol_cons_of_ne {k c : Char} (ks s : List Char) (h : k ≠ c) :
    symbol (k :: ks) (c :: s) = .bad false :=
  symbol_of_not_prefix fun ⟨_, hu⟩ => h (List.cons.inj hu).1

theorem keyword_cons_of_ne {k c : Char} (ks s : List Char) (h : k ≠ c) :
    keyword (k :: ks) (c :: s) = .bad false :=
  keyword_of_not_prefix fun ⟨_, hu⟩ => h (List.cons.inj hu).1

/-- `chompWhile` stops at the first character that fails the test. -/
theorem chompWhile_append {isGood : Char → Bool} {a s : List Char} {c : Char}
    (ha : ∀ x ∈ a, isGood x = true) (hc : isGood c = false) :
    chompWhile isGood (a ++ c :: s) = .good (!a.isEmpty) () (c :: s) := by
  have htake : (a ++ c :: s).takeWhile isGood = a := by
    rw [List.takeWhile_append_of_pos ha, List.takeWhile_cons_of_neg (by simp [hc]),
      List.append_nil]
  have hdrop : (a ++ c :: s).dropWhile isGood = c :: s := by
    rw [List.dropWhile_append_of_pos ha, List.dropWhile_cons_of_neg (by simp [hc])]
  simp [chompWhile, htake, hdrop]

theorem getChompedString_good {p : Parser α} {a s : List Char} {progress : Bool} {v : α}
    (h : p (a ++ s) = .good progress v s) :
    getChompedString p (a ++ s) = .good progress a s := by
  simp [getChompedString, h]

theorem backtrackable_good {p : Parser α} {s rest : List Char} {progress : Bool} {a : α}
    (h : p s = .good progress a rest) : backtrackable p s = .good false a rest := by
  simp [backtrackable, h]

theorem backtrackable_bad {p : Parser α} {s : List Char} {progress : Bool}
    (h : p s = .bad progress) : backtrackable p s = .bad false := by
  simp [backtrackable, h]

theorem map2_good {f : α → β → γ} {pa : Parser α} {pb : Parser β} {s s₁ s₂ : List Char}
    {p₁ p₂ : Bool} {a : α} {b : β} (ha : pa s = .good p₁ a s₁) (hb : pb s₁ = .good p₂ b s₂) :
    map2 f pa pb s = .good (p₁ || p₂) (f a b) s₂ := by
  simp [map2, ha, hb]

theorem map2_bad_left {f : α → β → γ} {pa : Parser α} {pb : Parser β} {s : List Char}
    {p : Bool} (ha : pa s = .bad p) : map2 f pa pb s = .bad p := by
  simp [map2, ha]

theorem map2_bad_right {f : α → β → γ} {pa : Parser α} {pb : Parser β} {s s₁ : List Char}
    {p₁ p₂ : Bool} {a : α} (ha : pa s = .good p₁ a s₁) (hb : pb s₁ = .bad p₂) :
    map2 f pa pb s = .bad (p₁ || p₂) := by
  simp [map2, ha, hb]

theorem ignorer_good {pk : Parser α} {pi : Parser β} {s s₁ s₂ : List Char} {p₁ p₂ : Bool}
    {a : α} {b : β} (ha : pk s = .good p₁ a s₁) (hb : pi s₁ = .good p₂ b s₂) :
    ignorer pk pi s = .good (p₁ || p₂) a s₂ :=
  map2_good ha hb

theorem ignorer_bad_right {pk : Parser α} {pi : Parser β} {s s₁ : List Char} {p₁ p₂ : Bool}
    {a : α} (ha : pk s = .good p₁ a s₁) (hb : pi s₁ = .bad p₂) :
    ignorer pk pi s = .bad (p₁ || p₂) :=
  map2_bad_right ha hb

theorem keeper_good {pf : Parser (α → β)} {pa : Parser α} {s s₁ s₂ : List Char}
    {p₁ p₂ : Bool} {f : α → β} {a : α} (hf : pf s = .good p₁ f s₁)
    (ha : pa s₁ = .good p₂ a s₂) : keeper pf pa s = .good (p₁ || p₂) (f a) s₂ :=
  map2_good hf ha

theorem keeper_succeed {f : α → β} {pa : Parser α} {s rest : List Char} {p : Bool} {a : α}
    (h : pa s = .good p a rest) : keeper (succeed f) pa s = .good p (f a) rest := by
  simpa using keeper_good (show succeed f s = .good false f s from rfl) h

@[simp] theorem ignoring_nil (p : Parser α) : ignoring p [] = p := rfl

@[simp] theorem ignoring_cons (p : Parser α) (q : Parser Unit) (qs : List (Parser Unit)) :
    ignoring p (q :: qs) = ignoring (ignorer p q) qs := rfl

theorem ignoring_of_bad {p : Parser α} {s : List Char} {pr : Bool} (h : p s = .bad pr)
    (qs : List (Parser Unit)) : ignoring p qs s = .bad pr := by
  induction qs generalizing p with
  | nil => exact h
  | cons q qs ih => exact ih (map2_bad_left h)

/-- The parsers after a parser that succeeded run from where it stopped, and keep its
answer. -/
theorem ignoring_of_good {p : Parser α} {s s₁ : List Char} {pr : Bool} {a : α}
    (h : p s = .good pr a s₁) (qs : List (Parser Unit)) :
    ignoring p qs s = (ignoring (succeed a) qs s₁).orProgress pr := by
  induction qs generalizing p s pr s₁ with
  | nil => simp [succeed, h]
  | cons q qs ih =>
    rw [ignoring_cons, ignoring_cons]
    have hsucc : succeed a s₁ = .good false a s₁ := rfl
    cases hq : q s₁ with
    | good pq u s₂ =>
      -- both sides go on from where `q` stopped
      rw [ih (ignorer_good h hq), ih (ignorer_good hsucc hq), PStep.orProgress_orProgress,
        Bool.false_or]
    | bad pq =>
      rw [ignoring_of_bad (ignorer_bad_right h hq), ignoring_of_bad (ignorer_bad_right hsucc hq)]
      simp

theorem oneOf_cons_of_bad_false {p : Parser α} {ps : List (Parser α)} {s : List Char}
    (h : p s = .bad false) : oneOf (p :: ps) s = oneOf ps s := by
  simp [oneOf, h]

theorem oneOf_cons_of_good {p : Parser α} {ps : List (Parser α)} {s rest : List Char}
    {progress : Bool} {a : α} (h : p s = .good progress a rest) :
    oneOf (p :: ps) s = .good progress a rest := by
  simp [oneOf, h]

theorem map_good {f : α → β} {p : Parser α} {s rest : List Char} {progress : Bool} {a : α}
    (h : p s = .good progress a rest) : map f p s = .good progress (f a) rest := by
  simp [map, h]

theorem map_bad {f : α → β} {p : Parser α} {s : List Char} {progress : Bool}
    (h : p s = .bad progress) : map f p s = .bad progress := by
  simp [map, h]

theorem run_good {p : Parser α} {s rest : List Char} {progress : Bool} {a : α}
    (h : p s = .good progress a rest) : run p s = some a := by
  simp [run, h]

theorem run_bad {p : Parser α} {s : List Char} {progress : Bool} (h : p s = .bad progress) :
    run p s = none := by
  simp [run, h]

/-- The first `c` of the input, when it comes after text free of `c`. -/
theorem findSubString_singleton_append {c : Char} {a : List Char} (s : List Char) (ha : c ∉ a) :
    findSubString [c] (a ++ c :: s) = some (c :: s) := by
  induction a with
  | nil => simp [findSubString]
  | cons x a ih =>
    have hx : x ≠ c := fun h => ha (h ▸ List.mem_cons_self)
    have hrest : c ∉ a := fun h => ha (List.mem_cons_of_mem x h)
    simp [findSubString, Ne.symm hx, ih hrest]

theorem chompUntil_singleton_append {c : Char} {a : List Char} (s : List Char) (ha : c ∉ a) :
    chompUntil [c] (a ++ c :: s) = .good (!a.isEmpty) () (c :: s) := by
  have hfind := findSubString_singleton_append s ha
  simp only [chompUntil, hfind]
  cases a with
  | nil => simp
  | cons x a =>
    have hlt : (c :: s).length < (x :: a ++ c :: s).length := by
      simp only [List.length_cons, List.cons_append, List.length_append]
      omega
    simp only [decide_eq_true hlt, List.isEmpty_cons, Bool.not_false]

/-! ## What the combinators consume -/

/-- What the parser leaves when it succeeds is a suffix of its input. -/
def LeavesSuffix (p : Parser α) : Prop :=
  ∀ s pr a rest, p s = .good pr a rest → rest <:+ s

/-- The parser consumes some of `s` whenever it succeeds on `s`. -/
def AdvancesOn (p : Parser α) (s : List Char) : Prop :=
  ∀ pr a rest, p s = .good pr a rest → rest.length < s.length

/-- The parser succeeds on every input. -/
def NeverFails (p : Parser α) : Prop :=
  ∀ s, ∃ pr a rest, p s = .good pr a rest

/-- The parser fails only without progress, so `oneOf` tries the next parser. -/
def Backtracks (p : Parser α) : Prop :=
  ∀ s pr, p s = .bad pr → pr = false

theorem findSubString_suffix {str : List Char} :
    ∀ {s rest : List Char}, findSubString str s = some rest → rest <:+ s ∧ str <+: rest
  | [], rest, h => by
    simp only [findSubString] at h
    split at h
    · cases h
      rename_i hstr
      simp [List.isEmpty_iff.mp hstr]
    · cases h
  | c :: cs, rest, h => by
    simp only [findSubString] at h
    split at h
    · cases h
      rename_i hpre
      exact ⟨List.suffix_refl _, List.isPrefixOf_iff_prefix.mp hpre⟩
    · obtain ⟨hsuf, hpre⟩ := findSubString_suffix h
      exact ⟨hsuf.trans (List.suffix_cons c cs), hpre⟩

/-- After `chompUntilEndOr` the input is at its end or at `str`. -/
theorem chompUntilEndOr_rest {str s rest : List Char} {pr : Bool} {u : Unit}
    (h : chompUntilEndOr str s = .good pr u rest) : rest <:+ s ∧ (rest = [] ∨ str <+: rest) := by
  simp only [chompUntilEndOr] at h
  split at h
  · cases h
    rename_i hfind
    exact ⟨(findSubString_suffix hfind).1, .inr (findSubString_suffix hfind).2⟩
  · cases h
    exact ⟨List.nil_suffix, .inl rfl⟩

theorem leavesSuffix_succeed (a : α) : LeavesSuffix (succeed a) := by
  intro s pr b rest h
  cases h
  exact List.suffix_refl _

theorem leavesSuffix_symbol (str : List Char) : LeavesSuffix (symbol str) := by
  intro s pr a rest h
  simp only [symbol] at h
  split at h
  · cases h; exact List.drop_suffix _ _
  · cases h

theorem leavesSuffix_keyword (kwd : List Char) : LeavesSuffix (keyword kwd) := by
  intro s pr a rest h
  simp only [keyword] at h
  split at h
  · cases h; exact List.drop_suffix _ _
  · cases h

theorem leavesSuffix_chompWhile (isGood : Char → Bool) : LeavesSuffix (chompWhile isGood) := by
  intro s pr a rest h
  cases h
  exact List.dropWhile_suffix _

theorem leavesSuffix_chompUntilEndOr (str : List Char) : LeavesSuffix (chompUntilEndOr str) :=
  fun _ _ _ _ h => (chompUntilEndOr_rest h).1

theorem leavesSuffix_end' : LeavesSuffix end' := by
  intro s pr a rest h
  simp only [end'] at h
  split at h
  · cases h; exact List.suffix_refl _
  · cases h

theorem LeavesSuffix.getChompedString {p : Parser α} (hp : LeavesSuffix p) :
    LeavesSuffix (getChompedString p) := by
  intro s pr a rest h
  simp only [ElmParser.getChompedString] at h
  split at h
  · cases h; exact hp _ _ _ _ ‹_›
  · cases h

theorem LeavesSuffix.backtrackable {p : Parser α} (hp : LeavesSuffix p) :
    LeavesSuffix (backtrackable p) := by
  intro s pr a rest h
  simp only [ElmParser.backtrackable] at h
  split at h
  · cases h; exact hp _ _ _ _ ‹_›
  · cases h

theorem LeavesSuffix.map {p : Parser α} (f : α → β) (hp : LeavesSuffix p) :
    LeavesSuffix (map f p) := by
  intro s pr a rest h
  simp only [ElmParser.map] at h
  split at h
  · cases h; exact hp _ _ _ _ ‹_›
  · cases h

theorem LeavesSuffix.map2 {pa : Parser α} {pb : Parser β} (f : α → β → γ)
    (ha : LeavesSuffix pa) (hb : LeavesSuffix pb) : LeavesSuffix (map2 f pa pb) := by
  intro s pr c rest h
  simp only [ElmParser.map2] at h
  split at h
  · cases h
  · rename_i s₁ hpa
    split at h
    · cases h
    · cases h
      exact (hb _ _ _ _ ‹_›).trans (ha _ _ _ _ hpa)

theorem LeavesSuffix.ignoring {p : Parser α} (hp : LeavesSuffix p) :
    ∀ {qs : List (Parser Unit)}, (∀ q ∈ qs, LeavesSuffix q) → LeavesSuffix (ignoring p qs)
  | [], _ => hp
  | q :: _, hqs =>
    LeavesSuffix.ignoring (hp.map2 _ (hqs q List.mem_cons_self))
      fun q' hq' => hqs q' (List.mem_cons_of_mem _ hq')

theorem leavesSuffix_oneOf :
    ∀ {ps : List (Parser α)}, (∀ p ∈ ps, LeavesSuffix p) → LeavesSuffix (oneOf ps)
  | [], _ => by
    intro s pr a rest h
    cases h
  | p :: ps, hps => by
    intro s pr a rest h
    simp only [oneOf] at h
    split at h
    · exact leavesSuffix_oneOf (fun q hq => hps q (List.mem_cons_of_mem _ hq)) _ _ _ _ h
    · exact hps p List.mem_cons_self _ _ _ _ h

theorem advancesOn_symbol {str : List Char} (hstr : str ≠ []) (s : List Char) :
    AdvancesOn (symbol str) s := by
  intro pr a rest h
  simp only [symbol] at h
  split at h
  · cases h
    rename_i hpre
    have := (List.isPrefixOf_iff_prefix.mp hpre).length_le
    have := List.length_pos_iff.mpr hstr
    simp only [List.length_drop]
    omega
  · cases h

theorem advancesOn_keyword {kwd : List Char} (hkwd : kwd ≠ []) (s : List Char) :
    AdvancesOn (keyword kwd) s := by
  intro pr a rest h
  simp only [keyword] at h
  split at h
  · cases h
    rename_i hpre
    have := (List.isPrefixOf_iff_prefix.mp (Bool.and_eq_true_iff.mp hpre).1).length_le
    have := List.length_pos_iff.mpr hkwd
    simp only [List.length_drop]
    omega
  · cases h

theorem advancesOn_chompWhile {isGood : Char → Bool} {c : Char} (hc : isGood c = true)
    (t : List Char) : AdvancesOn (chompWhile isGood) (c :: t) := by
  intro pr a rest h
  cases h
  rw [List.dropWhile_cons_of_pos hc, List.length_cons]
  exact Nat.lt_succ_of_le (List.dropWhile_suffix _).length_le

theorem AdvancesOn.getChompedString {p : Parser α} {s : List Char} (hp : AdvancesOn p s) :
    AdvancesOn (getChompedString p) s := by
  intro pr a rest h
  simp only [ElmParser.getChompedString] at h
  split at h
  · cases h; exact hp _ _ _ ‹_›
  · cases h

theorem AdvancesOn.backtrackable {p : Parser α} {s : List Char} (hp : AdvancesOn p s) :
    AdvancesOn (backtrackable p) s := by
  intro pr a rest h
  simp only [ElmParser.backtrackable] at h
  split at h
  · cases h; exact hp _ _ _ ‹_›
  · cases h

theorem AdvancesOn.map {p : Parser α} {s : List Char} (f : α → β) (hp : AdvancesOn p s) :
    AdvancesOn (map f p) s := by
  intro pr a rest h
  simp only [ElmParser.map] at h
  split at h
  · cases h; exact hp _ _ _ ‹_›
  · cases h

/-- A sequence consumes when its first parser does. -/
theorem AdvancesOn.map2_left {pa : Parser α} {pb : Parser β} {s : List Char} (f : α → β → γ)
    (ha : AdvancesOn pa s) (hb : LeavesSuffix pb) : AdvancesOn (map2 f pa pb) s := by
  intro pr c rest h
  simp only [ElmParser.map2] at h
  split at h
  · cases h
  · rename_i s₁ hpa
    split at h
    · cases h
    · cases h
      exact Nat.lt_of_le_of_lt (hb _ _ _ _ ‹_›).length_le (ha _ _ _ hpa)

/-- A sequence consumes when its second parser does on the same input: the first either
consumed already or left the input as it was. -/
theorem AdvancesOn.map2_right {pa : Parser α} {pb : Parser β} {s : List Char} (f : α → β → γ)
    (ha : LeavesSuffix pa) (hb : LeavesSuffix pb) (h : AdvancesOn pb s) :
    AdvancesOn (map2 f pa pb) s := by
  intro pr c rest hrun
  simp only [ElmParser.map2] at hrun
  split at hrun
  · cases hrun
  · rename_i s₁ hpa
    split at hrun
    · cases hrun
    · cases hrun
      rename_i hpb
      have hs₁ := ha _ _ _ _ hpa
      by_cases heq : s₁.length = s.length
      · rw [hs₁.eq_of_length heq] at hpb
        exact h _ _ _ hpb
      · exact Nat.lt_of_le_of_lt (hb _ _ _ _ hpb).length_le (by have := hs₁.length_le; omega)

theorem AdvancesOn.ignoring {p : Parser α} {s : List Char} (hp : AdvancesOn p s) :
    ∀ {qs : List (Parser Unit)}, (∀ q ∈ qs, LeavesSuffix q) → AdvancesOn (ignoring p qs) s
  | [], _ => hp
  | q :: _, hqs =>
    AdvancesOn.ignoring (hp.map2_left _ (hqs q List.mem_cons_self))
      fun q' hq' => hqs q' (List.mem_cons_of_mem _ hq')

theorem advancesOn_oneOf {s : List Char} :
    ∀ {ps : List (Parser α)}, (∀ p ∈ ps, AdvancesOn p s) → AdvancesOn (oneOf ps) s
  | [], _ => by
    intro pr a rest h
    cases h
  | p :: ps, hps => by
    intro pr a rest h
    simp only [oneOf] at h
    split at h
    · exact advancesOn_oneOf (fun q hq => hps q (List.mem_cons_of_mem _ hq)) _ _ _ h
    · exact hps p List.mem_cons_self _ _ _ h

theorem neverFails_succeed (a : α) : NeverFails (succeed a) :=
  fun s => ⟨false, a, s, rfl⟩

theorem neverFails_chompWhile (isGood : Char → Bool) : NeverFails (chompWhile isGood) :=
  fun _ => ⟨_, (), _, rfl⟩

theorem neverFails_chompUntilEndOr (str : List Char) : NeverFails (chompUntilEndOr str) := by
  intro s
  simp only [chompUntilEndOr]
  split
  · exact ⟨_, (), _, rfl⟩
  · exact ⟨_, (), _, rfl⟩

theorem NeverFails.getChompedString {p : Parser α} (hp : NeverFails p) :
    NeverFails (getChompedString p) := by
  intro s
  obtain ⟨pr, a, rest, h⟩ := hp s
  exact ⟨pr, s.take (s.length - rest.length), rest, by simp [ElmParser.getChompedString, h]⟩

theorem NeverFails.map {p : Parser α} (f : α → β) (hp : NeverFails p) :
    NeverFails (map f p) := by
  intro s
  obtain ⟨pr, a, rest, h⟩ := hp s
  exact ⟨pr, f a, rest, by simp [ElmParser.map, h]⟩

theorem NeverFails.map2 {pa : Parser α} {pb : Parser β} (f : α → β → γ) (ha : NeverFails pa)
    (hb : NeverFails pb) : NeverFails (map2 f pa pb) := by
  intro s
  obtain ⟨p₁, a, s₁, h₁⟩ := ha s
  obtain ⟨p₂, b, s₂, h₂⟩ := hb s₁
  exact ⟨_, _, _, map2_good h₁ h₂⟩

theorem NeverFails.ignoring {p : Parser α} (hp : NeverFails p) :
    ∀ {qs : List (Parser Unit)}, (∀ q ∈ qs, NeverFails q) → NeverFails (ignoring p qs)
  | [], _ => hp
  | q :: _, hqs =>
    NeverFails.ignoring (hp.map2 _ (hqs q List.mem_cons_self))
      fun q' hq' => hqs q' (List.mem_cons_of_mem _ hq')

/-- A `oneOf` whose parsers all backtrack but the last, which never fails, never fails. -/
theorem neverFails_oneOf_append {q : Parser α} (hq : NeverFails q) :
    ∀ {ps : List (Parser α)}, (∀ p ∈ ps, Backtracks p) → NeverFails (oneOf (ps ++ [q]))
  | [], _ => by
    intro s
    obtain ⟨pr, a, rest, h⟩ := hq s
    exact ⟨pr, a, rest, by simp [oneOf, h]⟩
  | p :: ps, hps => by
    intro s
    cases hp : p s with
    | good pr a rest => exact ⟨pr, a, rest, oneOf_cons_of_good hp⟩
    | bad pr =>
      obtain rfl := hps p List.mem_cons_self s pr hp
      rw [List.cons_append, oneOf_cons_of_bad_false hp]
      exact neverFails_oneOf_append hq (fun p' hp' => hps p' (List.mem_cons_of_mem _ hp')) s

theorem backtracks_symbol (str : List Char) : Backtracks (symbol str) := by
  intro s pr h
  simp only [symbol] at h
  split at h
  · cases h
  · cases h; rfl

theorem backtracks_backtrackable (p : Parser α) : Backtracks (backtrackable p) := by
  intro s pr h
  simp only [backtrackable] at h
  split at h
  · cases h
  · cases h; rfl

theorem Backtracks.map {p : Parser α} (f : α → β) (hp : Backtracks p) : Backtracks (map f p) := by
  intro s pr h
  simp only [ElmParser.map] at h
  split at h
  · cases h
  · cases h; exact hp _ _ ‹_›

/-- A loop that ends within `fuel` rounds ends the same way with more. -/
theorem loopHelp_mono {σ : Type} {callback : σ → Parser (Step σ α)} :
    ∀ {fuel fuel' : Nat} {p : Bool} {state : σ} {s : List Char} {p' : Bool} {a : α}
      {rest : List Char}, fuel ≤ fuel' → loopHelp callback fuel p state s = .good p' a rest →
        loopHelp callback fuel' p state s = .good p' a rest
  | 0, _, _, _, _, _, _, _, _, h => by cases h
  | _ + 1, 0, _, _, _, _, _, _, hle, _ => absurd hle (by omega)
  | fuel + 1, fuel' + 1, p, state, s, p', a, rest, hle, h => by
    simp only [loopHelp] at h ⊢
    cases hcb : callback state s with
    | bad p₁ => simp only [hcb] at h; cases h
    | good p₁ step s₁ =>
      cases step with
      | loop newState =>
        simp only [hcb] at h ⊢
        exact loopHelp_mono (by omega) h
      | done result =>
        simp only [hcb] at h ⊢
        exact h

end ElmParser
