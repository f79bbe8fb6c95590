import Concourse.Lib.ElmParser

/-!
# Parsing the dashboard's search query

`Dashboard.Filter.parseFilters` reads the query of the dashboard's search bar as a list of
filters, each with the text it was read from.  It is a `loop` whose every round either ends at
the end of the query or reads one `filter` and keeps the text that filter consumed
(`captureChompedString`).  A filter is optional white space, an optional `-`, and then
`team:`, `group:` or `status:` with what follows, or else a pipeline name, quoted or a word.

We show

1. that a filter never fails (`filter_neverFails`) and consumes something of any input that does
   not start with a tab (`filter_advancesOn`);
2. that on a query without tabs the loop ends, within the rounds the model gives it and with any
   more, with filters whose texts make up the query (`parseFilters_captures`);
3. that a round at a tab consumes nothing and asks for another round at the same place
   (`parseFiltersStep_tab`), so that from a tab on the loop ends with no number of rounds and
   `parseFilters` gives nothing (`parseFilters_tab_never_ends`): `spaces` skips only space, `\n`
   and `\r`, while a word stops at any of these and at a tab.

Elm strings are held as lists of characters.  `getOffset` and `getSource` are used only by
`captureChompedString`, which is modelled by what it returns: its parser's value and the text
that parser consumed.  `filterTeams` and `suggestions`, which apply the parsed filters to the
dashboard's pipelines, are left out.
-/

namespace Concourse
namespace Web
namespace Dashboard

open ElmParser

/-- `Concourse.PipelineStatus.StatusDetails`; a `Time.Posix` is its milliseconds. -/
inductive StatusDetails where
  | running
  | since (time : Int)
  deriving DecidableEq, Repr

/-- `Concourse.PipelineStatus.PipelineStatus`. -/
inductive PipelineStatus where
  | pipelineStatusPaused
  | pipelineStatusArchived
  | pipelineStatusAborted (details : StatusDetails)
  | pipelineStatusErrored (details : StatusDetails)
  | pipelineStatusFailed (details : StatusDetails)
  | pipelineStatusPending (running : Bool)
  | pipelineStatusSucceeded (details : StatusDetails)
  deriving DecidableEq, Repr

/-- `StringFilter`. -/
inductive StringFilter where
  | fuzzy (s : List Char)
  | exact (s : List Char)
  | startsWith (s : List Char)
  deriving DecidableEq, Repr

/-- `StatusFilter`. -/
inductive StatusFilter where
  | pipelineStatus (ps : PipelineStatus)
  | pipelineRunning
  | incompleteStatus (s : List Char)
  deriving DecidableEq, Repr

/-- `PipelineFilter`. -/
inductive PipelineFilter where
  | name (sf : StringFilter)
  | status (sf : StatusFilter)
  deriving DecidableEq, Repr

/-- `TeamFilter`. -/
inductive TeamFilter where
  | team (sf : StringFilter)
  | pipeline (pf : PipelineFilter)
  | instanceGroup (sf : StringFilter)
  deriving DecidableEq, Repr

/-- `Filter`. -/
structure Filter where
  negate : Bool
  teamFilter : TeamFilter
  deriving DecidableEq, Repr

/-! ## The parsers -/

/-- `parseWord`: up to the next space, tab, `\n` or `\r`. -/
def parseWord : Parser (List Char) :=
  getChompedString (chompWhile fun c => c != ' ' && c != '\t' && c != '\n' && c != '\r')

/-- `parseQuotedString`: from a `"` to the next `"` or the end.  A closed quote is an exact
name, an open one the start of a name. -/
def parseQuotedString : Parser StringFilter :=
  map (fun s => if ['"'].isSuffixOf s && s != ['"'] then .exact ((s.drop 1).dropLast)
      else .startsWith (s.drop 1))
    (getChompedString
      (ignoring (symbol ['"']) [chompUntilEndOr ['"'], oneOf [symbol ['"'], end']]))

/-- `parseString`. -/
def parseString : Parser StringFilter :=
  oneOf [parseQuotedString, map .fuzzy parseWord]

/-- `keyedStringFilter key`: `key:`, white space, and a string. -/
def keyedStringFilter (key : List Char) : Parser StringFilter :=
  keeper (ignoring (succeed id) [keyword key, symbol [':'], spaces]) parseString

/-- `pipelineStatus`: a status keyword, or any word, which is an incomplete status. -/
def pipelineStatus : Parser StatusFilter :=
  oneOf
    [map (fun _ => .pipelineStatus .pipelineStatusPaused) (keyword "paused".toList),
      map (fun _ => .pipelineStatus (.pipelineStatusAborted .running)) (keyword "aborted".toList),
      map (fun _ => .pipelineStatus (.pipelineStatusErrored .running)) (keyword "errored".toList),
      map (fun _ => .pipelineStatus (.pipelineStatusFailed .running)) (keyword "failed".toList),
      map (fun _ => .pipelineStatus (.pipelineStatusPending false)) (keyword "pending".toList),
      map (fun _ => .pipelineStatus (.pipelineStatusSucceeded .running))
        (keyword "succeeded".toList),
      map (fun _ => .pipelineRunning) (keyword "running".toList),
      map .incompleteStatus parseWord]

/-- `statusFilter`. -/
def statusFilter : Parser TeamFilter :=
  keeper
    (ignoring (succeed fun sf => .pipeline (.status sf))
      [keyword "status".toList, symbol [':'], spaces])
    pipelineStatus

/-- `teamFilter`: the keyed filters, each backtrackable, or a pipeline name. -/
def teamFilter : Parser TeamFilter :=
  oneOf
    [backtrackable (map .team (keyedStringFilter "team".toList)),
      backtrackable (map .instanceGroup (keyedStringFilter "group".toList)),
      backtrackable statusFilter,
      keeper (succeed fun sf => .pipeline (.name sf)) parseString]

/-- `filter`: white space, an optional `-` that negates, and a team filter. -/
def filter : Parser Filter :=
  keeper
    (keeper (ignorer (succeed Filter.mk) spaces)
      (oneOf [map (fun _ => true) (symbol ['-']), succeed false]))
    teamFilter

/-- `captureChompedString`: the parser's value with `String.slice start end source` for the
offsets before and after it, which is the text the parser consumed. -/
def captureChompedString {α : Type} (parser : Parser α) : Parser (α × List Char) :=
  fun s =>
    match parser s with
    | .good progress val rest => .good progress (val, s.take (s.length - rest.length)) rest
    | .bad progress => .bad progress

/-- A round of the loop of `parseFilters`: the end, or one more filter with its text. -/
def parseFiltersStep (revFilters : List (Filter × List Char)) :
    Parser (Step (List (Filter × List Char)) (List (Filter × List Char))) :=
  oneOf
    [map (fun _ => .done revFilters.reverse) end',
      map (fun f => .loop (f :: revFilters)) (captureChompedString filter)]

/-- `parseFilters`; a query the parser refuses gives no filters (`Result.withDefault []`). -/
def parseFilters (q : List Char) : List (Filter × List Char) :=
  (run (loop [] parseFiltersStep) q).getD []

/-! ## What is left is a suffix -/

theorem parseWord_leavesSuffix : LeavesSuffix parseWord :=
  (leavesSuffix_chompWhile _).getChompedString

/-- The parsers after the opening `"` of a quoted string all leave a suffix. -/
theorem quoteTail_leavesSuffix :
    ∀ q ∈ [chompUntilEndOr ['"'], oneOf [symbol ['"'], end']], LeavesSuffix q := by
  simp only [List.mem_cons, List.not_mem_nil, or_false, forall_eq_or_imp, forall_eq]
  refine ⟨leavesSuffix_chompUntilEndOr _, leavesSuffix_oneOf ?_⟩
  simp only [List.mem_cons, List.not_mem_nil, or_false, forall_eq_or_imp, forall_eq]
  exact ⟨leavesSuffix_symbol _, leavesSuffix_end'⟩

theorem parseQuotedString_leavesSuffix : LeavesSuffix parseQuotedString :=
  (((leavesSuffix_symbol _).ignoring quoteTail_leavesSuffix).getChompedString).map _

theorem parseString_leavesSuffix : LeavesSuffix parseString := by
  refine leavesSuffix_oneOf ?_
  simp only [List.mem_cons, List.not_mem_nil, or_false, forall_eq_or_imp, forall_eq]
  exact ⟨parseQuotedString_leavesSuffix, parseWord_leavesSuffix.map _⟩

/-- The parsers after `key` in a keyed filter all leave a suffix. -/
theorem keyedTail_leavesSuffix :
    ∀ q ∈ [symbol [':'], spaces], LeavesSuffix q := by
  simp only [List.mem_cons, List.not_mem_nil, or_false, forall_eq_or_imp, forall_eq]
  exact ⟨leavesSuffix_symbol _, leavesSuffix_chompWhile _⟩

theorem keyedStringFilter_leavesSuffix (key : List Char) :
    LeavesSuffix (keyedStringFilter key) := by
  refine LeavesSuffix.map2 _ ((leavesSuffix_succeed _).ignoring ?_) parseString_leavesSuffix
  exact List.forall_mem_cons.mpr ⟨leavesSuffix_keyword _, keyedTail_leavesSuffix⟩

theorem pipelineStatus_leavesSuffix : LeavesSuffix pipelineStatus := by
  refine leavesSuffix_oneOf ?_
  simp only [List.mem_cons, List.not_mem_nil, or_false, forall_eq_or_imp, forall_eq]
  exact ⟨(leavesSuffix_keyword _).map _, (leavesSuffix_keyword _).map _,
    (leavesSuffix_keyword _).map _, (leavesSuffix_keyword _).map _,
    (leavesSuffix_keyword _).map _, (leavesSuffix_keyword _).map _,
    (leavesSuffix_keyword _).map _, parseWord_leavesSuffix.map _⟩

theorem statusFilter_leavesSuffix : LeavesSuffix statusFilter := by
  refine LeavesSuffix.map2 _ ((leavesSuffix_succeed _).ignoring ?_) pipelineStatus_leavesSuffix
  exact List.forall_mem_cons.mpr ⟨leavesSuffix_keyword _, keyedTail_leavesSuffix⟩

theorem teamFilter_leavesSuffix : LeavesSuffix teamFilter := by
  refine leavesSuffix_oneOf ?_
  simp only [List.mem_cons, List.not_mem_nil, or_false, forall_eq_or_imp, forall_eq]
  exact ⟨((keyedStringFilter_leavesSuffix _).map _).backtrackable,
    ((keyedStringFilter_leavesSuffix _).map _).backtrackable,
    statusFilter_leavesSuffix.backtrackable,
    LeavesSuffix.map2 _ (leavesSuffix_succeed _) parseString_leavesSuffix⟩

/-- The optional `-` of a filter. -/
theorem negate_leavesSuffix :
    LeavesSuffix (oneOf [map (fun _ => true) (symbol ['-']), succeed false]) := by
  refine leavesSuffix_oneOf ?_
  simp only [List.mem_cons, List.not_mem_nil, or_false, forall_eq_or_imp, forall_eq]
  exact ⟨(leavesSuffix_symbol _).map _, leavesSuffix_succeed _⟩

theorem filter_leavesSuffix : LeavesSuffix filter :=
  LeavesSuffix.map2 _
    (LeavesSuffix.map2 _ (LeavesSuffix.map2 _ (leavesSuffix_succeed _) (leavesSuffix_chompWhile _))
      negate_leavesSuffix)
    teamFilter_leavesSuffix

/-! ## Filters never fail -/

theorem parseWord_neverFails : NeverFails parseWord :=
  (neverFails_chompWhile _).getChompedString

/-- A quoted string fails only where it does not start: after the opening `"`, the input is at
the closing `"` or at the end. -/
theorem parseQuotedString_backtracks : Backtracks parseQuotedString := by
  intro s pr h
  simp only [parseQuotedString, ignoring_cons, ignoring_nil] at h
  cases hopen : symbol ['"'] s with
  | bad p₀ =>
    -- no opening quote: the failure is the symbol's, without progress
    obtain rfl := backtracks_symbol _ s p₀ hopen
    simp only [ElmParser.map, getChompedString, ignorer, map2, hopen] at h
    cases h
    rfl
  | good p₀ u s₀ =>
    obtain ⟨p₁, u₁, s₁, hchomp⟩ := neverFails_chompUntilEndOr ['"'] s₀
    have hclose : ∃ p₂ u₂ s₂, oneOf [symbol ['"'], end'] s₁ = .good p₂ u₂ s₂ := by
      rcases (chompUntilEndOr_rest hchomp).2 with rfl | hpre
      · exact ⟨false, (), [], by simp [oneOf, symbol, end']⟩
      · obtain ⟨t, rfl⟩ := hpre
        exact ⟨true, (), t, oneOf_cons_of_good (symbol_append ['"'] t)⟩
    obtain ⟨p₂, u₂, s₂, hclose⟩ := hclose
    have hrun := ignorer_good (ignorer_good hopen hchomp) hclose
    simp [ElmParser.map, getChompedString, hrun] at h

theorem parseString_neverFails : NeverFails parseString := by
  refine @neverFails_oneOf_append _ _ (parseWord_neverFails.map _) [parseQuotedString] ?_
  simp only [List.mem_cons, List.not_mem_nil, or_false, forall_eq]
  exact parseQuotedString_backtracks

theorem teamFilter_neverFails : NeverFails teamFilter := by
  refine @neverFails_oneOf_append _ _ ((neverFails_succeed _).map2 _ parseString_neverFails)
    [backtrackable (map .team (keyedStringFilter "team".toList)),
      backtrackable (map .instanceGroup (keyedStringFilter "group".toList)),
      backtrackable statusFilter] ?_
  simp only [List.mem_cons, List.not_mem_nil, or_false, forall_eq_or_imp, forall_eq]
  exact ⟨backtracks_backtrackable _, backtracks_backtrackable _, backtracks_backtrackable _⟩

theorem filter_neverFails : NeverFails filter := by
  have hnegate : NeverFails (oneOf [map (fun _ => true) (symbol ['-']), succeed false]) := by
    refine @neverFails_oneOf_append _ _ (neverFails_succeed false)
      [map (fun _ => true) (symbol ['-'])] ?_
    simp only [List.mem_cons, List.not_mem_nil, or_false, forall_eq]
    exact (backtracks_symbol _).map _
  exact (((neverFails_succeed _).map2 _ (neverFails_chompWhile _)).map2 _ hnegate).map2 _
    teamFilter_neverFails

/-! ## Filters consume input -/

section Advances

variable {c : Char} {t : List Char}

/-- A word consumes its first character unless that is white space. -/
theorem parseWord_advancesOn (h₁ : c ≠ ' ') (h₂ : c ≠ '\t') (h₃ : c ≠ '\n') (h₄ : c ≠ '\r') :
    AdvancesOn parseWord (c :: t) :=
  (advancesOn_chompWhile (by simp [h₁, h₂, h₃, h₄]) t).getChompedString

/-- A quoted string consumes its opening quote. -/
theorem parseQuotedString_advancesOn (s : List Char) : AdvancesOn parseQuotedString s :=
  (((advancesOn_symbol (by simp) s).ignoring quoteTail_leavesSuffix).getChompedString).map _

theorem parseString_advancesOn (h₁ : c ≠ ' ') (h₂ : c ≠ '\t') (h₃ : c ≠ '\n') (h₄ : c ≠ '\r') :
    AdvancesOn parseString (c :: t) := by
  refine advancesOn_oneOf ?_
  simp only [List.mem_cons, List.not_mem_nil, or_false, forall_eq_or_imp, forall_eq]
  exact ⟨parseQuotedString_advancesOn _, (parseWord_advancesOn h₁ h₂ h₃ h₄).map _⟩

/-- A keyed filter consumes its key. -/
theorem keyedStringFilter_advancesOn {key : List Char} (hkey : key ≠ []) (s : List Char) :
    AdvancesOn (keyedStringFilter key) s := by
  have hkeyword : AdvancesOn (ignorer (succeed (id : StringFilter → StringFilter)) (keyword key)) s :=
    AdvancesOn.map2_right _ (leavesSuffix_succeed _) (leavesSuffix_keyword _)
      (advancesOn_keyword hkey s)
  exact AdvancesOn.map2_left _ (hkeyword.ignoring keyedTail_leavesSuffix)
    parseString_leavesSuffix

theorem statusFilter_advancesOn (s : List Char) : AdvancesOn statusFilter s := by
  have hkeyword : AdvancesOn
      (ignorer (succeed fun sf => TeamFilter.pipeline (.status sf)) (keyword "status".toList)) s :=
    AdvancesOn.map2_right _ (leavesSuffix_succeed _) (leavesSuffix_keyword _)
      (advancesOn_keyword (by simp) s)
  exact AdvancesOn.map2_left _ (hkeyword.ignoring keyedTail_leavesSuffix)
    pipelineStatus_leavesSuffix

/-- Every alternative of a team filter consumes something of input that does not start with
white space. -/
theorem teamFilter_advancesOn (h₁ : c ≠ ' ') (h₂ : c ≠ '\t') (h₃ : c ≠ '\n') (h₄ : c ≠ '\r') :
    AdvancesOn teamFilter (c :: t) := by
  refine advancesOn_oneOf ?_
  simp only [List.mem_cons, List.not_mem_nil, or_false, forall_eq_or_imp, forall_eq]
  exact ⟨((keyedStringFilter_advancesOn (by simp) _).map _).backtrackable,
    ((keyedStringFilter_advancesOn (by simp) _).map _).backtrackable,
    (statusFilter_advancesOn _).backtrackable,
    AdvancesOn.map2_right _ (leavesSuffix_succeed _) parseString_leavesSuffix
      (parseString_advancesOn h₁ h₂ h₃ h₄)⟩

/-- A filter consumes something of input that does not start with a tab: white space
otherwise is taken by `spaces`, and anything else by the team filter. -/
theorem filter_advancesOn (h : c ≠ '\t') : AdvancesOn filter (c :: t) := by
  by_cases hspace : c = ' ' ∨ c = '\n' ∨ c = '\r'
  · -- `spaces` consumes `c`
    have hspaces : AdvancesOn spaces (c :: t) :=
      advancesOn_chompWhile (by rcases hspace with rfl | rfl | rfl <;> rfl) t
    have hhead : AdvancesOn (ignorer (succeed Filter.mk) spaces) (c :: t) :=
      AdvancesOn.map2_right _ (leavesSuffix_succeed _) (leavesSuffix_chompWhile _) hspaces
    exact AdvancesOn.map2_left _ (hhead.map2_left _ negate_leavesSuffix) teamFilter_leavesSuffix
  · -- the team filter does
    simp only [not_or] at hspace
    obtain ⟨h₁, h₃, h₄⟩ := hspace
    exact AdvancesOn.map2_right _
      (LeavesSuffix.map2 _ (LeavesSuffix.map2 _ (leavesSuffix_succeed _)
        (leavesSuffix_chompWhile _)) negate_leavesSuffix)
      teamFilter_leavesSuffix (teamFilter_advancesOn h₁ h h₃ h₄)

end Advances

/-! ## The loop -/

theorem captureChompedString_good {α : Type} {p : Parser α} {s rest : List Char} {pr : Bool}
    {v : α} (h : p s = .good pr v rest) :
    captureChompedString p s = .good pr (v, s.take (s.length - rest.length)) rest := by
  simp [captureChompedString, h]

theorem parseFiltersStep_nil (revFilters : List (Filter × List Char)) :
    parseFiltersStep revFilters [] = .good false (.done revFilters.reverse) [] := rfl

/-- A round on input that has not ended reads one filter and keeps the text it consumed. -/
theorem parseFiltersStep_cons {revFilters : List (Filter × List Char)} {c : Char}
    {t rest : List Char} {pr : Bool} {f : Filter} (h : filter (c :: t) = .good pr f rest) :
    parseFiltersStep revFilters (c :: t) =
      .good pr (.loop ((f, (c :: t).take ((c :: t).length - rest.length)) :: revFilters)) rest := by
  -- the input has not ended
  have hend : (map (fun _ => Step.done revFilters.reverse) end' (c :: t) :
      PStep (Step (List (Filter × List Char)) _)) = .bad false := rfl
  rw [parseFiltersStep, oneOf_cons_of_bad_false hend]
  simp [oneOf, ElmParser.map, captureChompedString_good h]

/-- On input without tabs the loop reads filters until the end, the texts of the filters making
up the input, provided it is given a round more than the input has characters. -/
theorem loopHelp_parseFiltersStep :
    ∀ (fuel : Nat) (p : Bool) (revFilters : List (Filter × List Char)) (s : List Char),
      '\t' ∉ s → s.length < fuel →
        ∃ p' fs, loopHelp parseFiltersStep fuel p revFilters s =
            .good p' (revFilters.reverse ++ fs) [] ∧ (fs.map Prod.snd).flatten = s
  | 0, _, _, _, _, hfuel => absurd hfuel (Nat.not_lt_zero _)
  | fuel + 1, p, revFilters, [], _, _ =>
    ⟨p || false, [], by simp [loopHelp, parseFiltersStep_nil], rfl⟩
  | fuel + 1, p, revFilters, c :: t, htab, hfuel => by
    obtain ⟨pr, f, rest, hf⟩ := filter_neverFails (c :: t)
    have hsuffix : rest <:+ c :: t := filter_leavesSuffix _ _ _ _ hf
    have hlt : rest.length < (c :: t).length :=
      filter_advancesOn (fun h => htab (h ▸ List.mem_cons_self)) _ _ _ hf
    -- the loop goes on from what the filter left, one round fewer
    obtain ⟨p', fs, hloop, hflat⟩ := loopHelp_parseFiltersStep fuel (p || pr)
      ((f, (c :: t).take ((c :: t).length - rest.length)) :: revFilters) rest
      (fun h => htab (hsuffix.subset h)) (by simp only [List.length_cons] at hlt hfuel; omega)
    refine ⟨p', (f, (c :: t).take ((c :: t).length - rest.length)) :: fs, ?_, ?_⟩
    · simp only [loopHelp, parseFiltersStep_cons hf]
      rw [hloop]
      simp
    · simp only [List.map_cons, List.flatten_cons, hflat]
      exact List.suffix_iff_eq_append.mp hsuffix

/-- A query without tabs is read to its end: the loop ends with the filters of `parseFilters`
however many more rounds it is given, and their texts make up the query. -/
theorem parseFilters_captures (q : List Char) (hq : '\t' ∉ q) :
    (∀ fuel, q.length < fuel → ∃ p,
        loopHelp parseFiltersStep fuel false [] q = .good p (parseFilters q) []) ∧
      ((parseFilters q).map Prod.snd).flatten = q := by
  obtain ⟨p, fs, hloop, hflat⟩ :=
    loopHelp_parseFiltersStep (q.length + 1) false [] q hq (Nat.lt_succ_self _)
  simp only [List.reverse_nil, List.nil_append] at hloop
  have hparse : parseFilters q = fs := by
    simp [parseFilters, run, loop, hloop]
  refine ⟨fun fuel hfuel => ⟨p, ?_⟩, hparse ▸ hflat⟩
  rw [hparse]
  exact loopHelp_mono hfuel hloop

/-! ## A tab stops the loop -/

/-- A quoted string needs its opening quote. -/
theorem parseQuotedString_of_ne {c : Char} (t : List Char) (hc : c ≠ '"') :
    parseQuotedString (c :: t) = .bad false := by
  have hopen : symbol ['"'] (c :: t) = .bad false := symbol_cons_of_ne _ _ (Ne.symm hc)
  simp [parseQuotedString, ElmParser.map, getChompedString, ignoring_of_bad hopen]

theorem keyedStringFilter_of_keyword {key s : List Char} (h : keyword key s = .bad false) :
    keyedStringFilter key s = .bad false := by
  have hkey : ignorer (succeed (id : StringFilter → StringFilter)) (keyword key) s = .bad false :=
    ignorer_bad_right rfl h
  exact map2_bad_left (ignoring_of_bad hkey _)

theorem statusFilter_of_keyword {s : List Char} (h : keyword "status".toList s = .bad false) :
    statusFilter s = .bad false := by
  have hkey : ignorer (succeed fun sf => TeamFilter.pipeline (.status sf))
      (keyword "status".toList) s = .bad false :=
    ignorer_bad_right rfl h
  exact map2_bad_left (ignoring_of_bad hkey _)

/-- At a tab no keyed filter starts and the word is empty: the team filter reads an empty
pipeline name and consumes nothing. -/
theorem teamFilter_tab (rest : List Char) :
    teamFilter ('\t' :: rest) = .good false (.pipeline (.name (.fuzzy []))) ('\t' :: rest) := by
  have hteam : backtrackable (map TeamFilter.team (keyedStringFilter "team".toList))
      ('\t' :: rest) = .bad false :=
    backtrackable_bad (map_bad (keyedStringFilter_of_keyword
      (keyword_cons_of_ne _ _ (by decide))))
  have hgroup : backtrackable (map TeamFilter.instanceGroup (keyedStringFilter "group".toList))
      ('\t' :: rest) = .bad false :=
    backtrackable_bad (map_bad (keyedStringFilter_of_keyword
      (keyword_cons_of_ne _ _ (by decide))))
  have hstatus : backtrackable statusFilter ('\t' :: rest) = .bad false :=
    backtrackable_bad (statusFilter_of_keyword (keyword_cons_of_ne _ _ (by decide)))
  have hword : parseWord ('\t' :: rest) = .good false [] ('\t' :: rest) := by
    simp [parseWord, getChompedString, chompWhile]
  have hstring : parseString ('\t' :: rest) = .good false (.fuzzy []) ('\t' :: rest) := by
    rw [parseString, oneOf_cons_of_bad_false (parseQuotedString_of_ne rest (by decide))]
    simp [oneOf, ElmParser.map, hword]
  rw [teamFilter, oneOf_cons_of_bad_false hteam, oneOf_cons_of_bad_false hgroup,
    oneOf_cons_of_bad_false hstatus, oneOf_cons_of_good (keeper_succeed hstring)]

/-- A round at a tab consumes nothing: `spaces` skips no tab, no `-` is there, and the team
filter consumes nothing.  It reads an empty pipeline name and asks for another round. -/
theorem parseFiltersStep_tab (revFilters : List (Filter × List Char)) (rest : List Char) :
    parseFiltersStep revFilters ('\t' :: rest) =
      .good false (.loop ((⟨false, .pipeline (.name (.fuzzy []))⟩, []) :: revFilters))
        ('\t' :: rest) := by
  have hspaces : ignorer (succeed Filter.mk) spaces ('\t' :: rest) =
      .good false Filter.mk ('\t' :: rest) := by
    simp [ignorer, map2, succeed, spaces, chompWhile]
  have hnegate : oneOf [map (fun _ => true) (symbol ['-']), succeed false] ('\t' :: rest) =
      .good false false ('\t' :: rest) := by
    have hminus : map (fun _ => true) (symbol ['-']) ('\t' :: rest) = .bad false := by
      simp [ElmParser.map, symbol_cons_of_ne _ rest (by decide : '-' ≠ '\t')]
    rw [oneOf_cons_of_bad_false hminus]
    rfl
  have hfilter : filter ('\t' :: rest) =
      .good false ⟨false, .pipeline (.name (.fuzzy []))⟩ ('\t' :: rest) :=
    keeper_good (keeper_good hspaces hnegate) (teamFilter_tab rest)
  simpa using parseFiltersStep_cons hfilter

/-- From a round at a tab on, the loop never ends. -/
theorem loopHelp_parseFiltersStep_tab (rest : List Char) :
    ∀ (fuel : Nat) (p : Bool) (revFilters : List (Filter × List Char)),
      loopHelp parseFiltersStep fuel p revFilters ('\t' :: rest) = .bad p
  | 0, _, _ => rfl
  | fuel + 1, p, revFilters => by
    simp only [loopHelp, parseFiltersStep_tab, Bool.or_false]
    exact loopHelp_parseFiltersStep_tab rest fuel p _

/-- A query that starts with a tab: however many rounds the loop is given it does not end,
since each round stays at the tab, and `parseFilters` gives no filters, so that no text of a
filter covers the query. -/
theorem parseFilters_tab_never_ends (rest : List Char) :
    (∀ fuel p revFilters, loopHelp parseFiltersStep fuel p revFilters ('\t' :: rest) = .bad p) ∧
      parseFilters ('\t' :: rest) = [] := by
  refine ⟨loopHelp_parseFiltersStep_tab rest, ?_⟩
  simp [parseFilters, run, loop, loopHelp_parseFiltersStep_tab]

end Dashboard
end Web
end Concourse
