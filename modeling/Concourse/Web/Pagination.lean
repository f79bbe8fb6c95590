import Concourse.Api.ListBuilds
import Concourse.Lib.ElmParser
import Concourse.Lib.ElmUrl

/-!
# The pagination links in the web UI

`Api.Pagination.parseLinks` finds the `Link` header of a response and parses it with
`pagination`: one or two entries `<url>; rel="previous"` and `<url>; rel="next"`, in either
order, joined by `,`.  An entry's URL is read up to its first `>`.  `parsePage` reads the URL
with `Url.fromString`, blanks its path, and reads `from` or else `to`, and `limit`, from its
query.  When the header does not parse, neither page is there.

The API writes a link per page (`Api.listJobBuildsLinks`), with the team, pipeline and job
names spliced into the URL as they are.  A name with `>` ends the entry's URL early, and the
whole header fails to parse (`parseLinks_listJobBuildsLinks_jobName`).
-/

namespace Concourse
namespace Web

open ElmParser ElmUrl

/-- `Concourse.Pagination.Direction`. -/
inductive Direction where
  | From (n : Int)
  | To (n : Int)
  | ToMostRecent
  deriving DecidableEq, Repr

/-- `Concourse.Pagination.Page`. -/
structure Page where
  direction : Direction
  limit : Int
  deriving DecidableEq, Repr

/-- `Concourse.Pagination.Pagination`. -/
structure Pagination where
  previousPage : Option Page
  nextPage : Option Page
  deriving DecidableEq, Repr

/-- `Maybe.Extra.orElse ma mb`: `mb`, or `ma` when `mb` is `Nothing`. -/
def orElse {α : Type} (ma mb : Option α) : Option α :=
  match mb with
  | none => ma
  | some _ => mb

/-- `previousRel`. -/
def previousRel : List Char := "previous".toList

/-- `nextRel`. -/
def nextRel : List Char := "next".toList

/-- `Api.Pagination.params`: the page's `from` or `to`, and its `limit`. -/
def params : Option Page → List QueryParameter
  | some page =>
    (match page.direction with
      | .From n => [Builder.int "from".toList n]
      | .To n => [Builder.int "to".toList n]
      | .ToMostRecent => []) ++
    [Builder.int "limit".toList page.limit]
  | none => []

section Parse

variable (percentDecode : List Char → Option (List Char))

/-- `tryParam` of `parsePage`: the parameter of the URL's query, read as an integer. -/
def tryParam (url param : List Char) : Option Int :=
  (((fromString url).map fun u => { u with path := [] }).bind
    (parse percentDecode (query (int param)))).getD none

/-- `parsePage`: a page from `from`, or else to `to`, with its `limit`, `0` without one. -/
def parsePage (url : List Char) : Option Page :=
  let tryDirection (dir : Int → Direction) (param : List Char) : Option Page :=
    (tryParam percentDecode url param).map fun n =>
      ⟨dir n, (tryParam percentDecode url "limit".toList).getD 0⟩
  orElse (tryDirection .To "to".toList) (tryDirection .From "from".toList)

/-- `entry rel` of `pagination`: `<url>; rel="rel"`, without progress. -/
def entry (rel : List Char) : ElmParser.Parser (Option Page) :=
  backtrackable <|
    keeper (ignorer (succeed (parsePage percentDecode)) (symbol ['<']))
      (ignoring (getChompedString (chompWhile (· != '>')))
        [symbol ['>'], symbol [';'], spaces, keyword "rel".toList, symbol ['='],
          symbol "\"".toList, keyword rel, symbol "\"".toList])

/-- `pagination`: both entries in either order, or one of them. -/
def pagination : ElmParser.Parser Pagination :=
  oneOf
    [ keeper (keeper (succeed fun p n => ⟨p, n⟩)
        (ignoring (entry percentDecode previousRel) [symbol [','], spaces]))
        (entry percentDecode nextRel),
      keeper (keeper (succeed fun n p => ⟨p, n⟩)
        (ignoring (entry percentDecode nextRel) [symbol [','], spaces]))
        (entry percentDecode previousRel),
      keeper (succeed fun p => ⟨p, none⟩) (entry percentDecode previousRel),
      keeper (succeed fun n => ⟨none, n⟩) (entry percentDecode nextRel) ]

/-- `parseLinks`: the response's headers, `Dict.toList` of them, and the `Link` header,
found by its name in any case, parsed. -/
def parseLinks (headers : List (List Char × List Char)) : Pagination :=
  (((headers.find? fun h => h.1.map Char.toLower == "link".toList).map Prod.snd).bind
    (run (pagination percentDecode))).getD ⟨none, none⟩

end Parse

/-! ## The header grammar -/

/-- An entry of a `Link` header: `<url>; rel="rel"`. -/
def linkText (url rel : List Char) : List Char :=
  '<' :: url ++ '>' :: ("; rel=\"".toList ++ rel ++ "\"".toList)

/-- The parsers of `entry` after the URL. -/
def entryTail (rel : List Char) : List (ElmParser.Parser Unit) :=
  [symbol ['>'], symbol [';'], spaces, keyword "rel".toList, symbol ['='], symbol "\"".toList,
    keyword rel, symbol "\"".toList]

section Grammar

variable (percentDecode : List Char → Option (List Char))

/-- The URL of an entry is what `chompWhile` reads before the first `>`. -/
theorem getChompedString_url {u : List Char} (hu : '>' ∉ u) (T : List Char) :
    getChompedString (chompWhile (· != '>')) (u ++ '>' :: T) = .good (!u.isEmpty) u ('>' :: T) := by
  apply getChompedString_good
  apply chompWhile_append _ rfl
  intro x hx
  have : x ≠ '>' := fun h => hu (h ▸ hx)
  simpa using this

theorem ignorer_succeed_linkText (u rel rest : List Char) :
    ignorer (succeed (parsePage percentDecode)) (symbol ['<']) (linkText u rel ++ rest) =
      .good true (parsePage percentDecode)
        (u ++ '>' :: ("; rel=\"".toList ++ rel ++ "\"".toList ++ rest)) := by
  apply ignorer_good rfl
  simpa [linkText] using
    symbol_append ['<'] (u ++ '>' :: ("; rel=\"".toList ++ rel ++ "\"".toList ++ rest))

/-- An entry of its own relation reads its URL, without progress. -/
theorem entry_linkText {rel : List Char} (hrel : rel = nextRel ∨ rel = previousRel)
    {u : List Char} (hu : '>' ∉ u) (rest : List Char) :
    entry percentDecode rel (linkText u rel ++ rest) =
      .good false (parsePage percentDecode u) rest := by
  have htail : ignoring (succeed u) (entryTail rel)
      ('>' :: ("; rel=\"".toList ++ rel ++ "\"".toList ++ rest)) = .good true u rest := by
    rcases hrel with rfl | rfl <;> rfl
  have hurl := ignoring_of_good
    (getChompedString_url hu ("; rel=\"".toList ++ rel ++ "\"".toList ++ rest)) (entryTail rel)
  rw [htail] at hurl
  exact backtrackable_good (keeper_good (ignorer_succeed_linkText percentDecode u rel rest) hurl)

/-- An entry of the other relation fails, without progress. -/
theorem entry_linkText_other {rel rel' : List Char}
    (hrel : rel = nextRel ∧ rel' = previousRel ∨ rel = previousRel ∧ rel' = nextRel)
    {u : List Char} (hu : '>' ∉ u) (rest : List Char) :
    entry percentDecode rel (linkText u rel' ++ rest) = .bad false := by
  have htail : ignoring (succeed u) (entryTail rel)
      ('>' :: ("; rel=\"".toList ++ rel' ++ "\"".toList ++ rest)) = .bad true := by
    rcases hrel with ⟨rfl, rfl⟩ | ⟨rfl, rfl⟩ <;> rfl
  have hurl := ignoring_of_good
    (getChompedString_url hu ("; rel=\"".toList ++ rel' ++ "\"".toList ++ rest)) (entryTail rel)
  rw [htail] at hurl
  exact backtrackable_bad (map2_bad_right (ignorer_succeed_linkText percentDecode u rel' rest) hurl)

/-- An alternative of `pagination` with two entries fails without progress when its first
entry does. -/
theorem pair_of_first_bad {e₁ e₂ : ElmParser.Parser (Option Page)}
    (f : Option Page → Option Page → Pagination) {s : List Char} (h : e₁ s = .bad false) :
    keeper (keeper (succeed f) (ignoring e₁ [symbol [','], spaces])) e₂ s = .bad false :=
  map2_bad_left (map2_bad_right rfl (ignoring_of_bad h _))

/-- It fails without progress too when its first entry ends the input, with no `,` after it. -/
theorem pair_of_first_last {e₁ e₂ : ElmParser.Parser (Option Page)}
    (f : Option Page → Option Page → Pagination) {s : List Char} {v : Option Page}
    (h : e₁ s = .good false v []) :
    keeper (keeper (succeed f) (ignoring e₁ [symbol [','], spaces])) e₂ s = .bad false := by
  have hcomma : ignoring e₁ [symbol [','], spaces] s = .bad false := by
    rw [ignoring_of_good h]
    rfl
  exact map2_bad_left (map2_bad_right rfl hcomma)

/-- Two entries joined by `, `, the second one ending the input. -/
theorem pair_of_good {e₁ e₂ : ElmParser.Parser (Option Page)}
    (f : Option Page → Option Page → Pagination) {s L : List Char} {v₁ v₂ : Option Page}
    (h₁ : e₁ s = .good false v₁ (", ".toList ++ '<' :: L)) (h₂ : e₂ ('<' :: L) = .good false v₂ []) :
    keeper (keeper (succeed f) (ignoring e₁ [symbol [','], spaces])) e₂ s =
      .good true (f v₁ v₂) [] := by
  have hcomma : ignoring e₁ [symbol [','], spaces] s = .good true v₁ ('<' :: L) := by
    rw [ignoring_of_good h₁]
    rfl
  exact keeper_good (keeper_good rfl hcomma) h₂

/-- The `Link` header of the links to the older page's URL `next` and the newer page's URL
`previous`, in the order the API adds them, joined as the browser joins them. -/
def linkHeader (next previous : Option (List Char)) : List Char :=
  ", ".toList.intercalate
    (next.toList.map (linkText · nextRel) ++ previous.toList.map (linkText · previousRel))

/-- The header grammar: entries whose URLs hold no `>` parse to the pages of their URLs. -/
theorem run_pagination_linkHeader {next previous : Option (List Char)}
    (hnext : ∀ u ∈ next, '>' ∉ u) (hprevious : ∀ u ∈ previous, '>' ∉ u)
    (hsome : next.isSome ∨ previous.isSome) :
    run (pagination percentDecode) (linkHeader next previous) =
      some ⟨previous.bind (parsePage percentDecode), next.bind (parsePage percentDecode)⟩ := by
  cases next with
  | none =>
    cases previous with
    | none => simp at hsome
    | some u =>
      -- only a newer page: the third alternative
      have hu : '>' ∉ u := hprevious u rfl
      have he := entry_linkText percentDecode (.inr rfl) hu []
      have hother := entry_linkText_other percentDecode (.inl ⟨rfl, rfl⟩) hu []
      rw [List.append_nil] at he hother
      simp only [linkHeader, Option.toList_none, Option.toList_some, List.map_nil, List.map_cons,
        List.nil_append, List.intercalate_singleton]
      have hpage : pagination percentDecode (linkText u previousRel) =
          .good false ⟨parsePage percentDecode u, none⟩ [] := by
        rw [pagination, oneOf_cons_of_bad_false (pair_of_first_last _ he),
          oneOf_cons_of_bad_false (pair_of_first_bad _ hother), oneOf_cons_of_good (keeper_succeed he)]
      rw [run_good hpage]
      rfl
  | some u₁ =>
    have hu₁ : '>' ∉ u₁ := hnext u₁ rfl
    cases previous with
    | none =>
      -- only an older page: the fourth alternative
      have he := entry_linkText percentDecode (.inl rfl) hu₁ []
      have hother := entry_linkText_other percentDecode (.inr ⟨rfl, rfl⟩) hu₁ []
      rw [List.append_nil] at he hother
      simp only [linkHeader, Option.toList_none, Option.toList_some, List.map_nil, List.map_cons,
        List.append_nil, List.intercalate_singleton]
      have hpage : pagination percentDecode (linkText u₁ nextRel) =
          .good false ⟨none, parsePage percentDecode u₁⟩ [] := by
        rw [pagination, oneOf_cons_of_bad_false (pair_of_first_bad _ hother),
          oneOf_cons_of_bad_false (pair_of_first_last _ he),
          oneOf_cons_of_bad_false (map2_bad_right rfl hother), oneOf_cons_of_good (keeper_succeed he)]
      rw [run_good hpage]
      rfl
    | some u₂ =>
      -- both pages, the older first: the second alternative
      have hu₂ : '>' ∉ u₂ := hprevious u₂ rfl
      have he₁ := entry_linkText percentDecode (.inl rfl) hu₁ (", ".toList ++ linkText u₂ previousRel)
      have hother := entry_linkText_other percentDecode (.inr ⟨rfl, rfl⟩) hu₁
        (", ".toList ++ linkText u₂ previousRel)
      have he₂ := entry_linkText percentDecode (.inr rfl) hu₂ []
      rw [List.append_nil] at he₂
      have hheader : linkHeader (some u₁) (some u₂) =
          linkText u₁ nextRel ++ (", ".toList ++ linkText u₂ previousRel) := by
        simp [linkHeader, List.intercalate]
      have hpage : pagination percentDecode (linkHeader (some u₁) (some u₂)) =
          .good true ⟨parsePage percentDecode u₂, parsePage percentDecode u₁⟩ [] := by
        rw [hheader, pagination, oneOf_cons_of_bad_false (pair_of_first_bad _ hother),
          oneOf_cons_of_good (pair_of_good _ he₁ he₂)]
      rw [run_good hpage]
      rfl

end Grammar

/-- What the browser gives for the `Link` headers of a response: their values joined by
`, `. -/
def joinedHeader (values : List String) : List Char :=
  (", ".intercalate values).toList

/-- The failing case: a job named `a>b`, with an older page up to build `5`.  The API writes
one link, whose URL holds the `>` of the name; the parser ends the URL there, fails on the
`b` after it, and the UI reads no page. -/
theorem parseLinks_listJobBuildsLinks_jobName (isPrint : Char → Bool)
    (percentDecode : List Char → Option (List Char)) :
    Api.listJobBuildsLinks isPrint "http://ci" "main" ⟨"p", none⟩ "a>b"
        ⟨none, some ⟨none, some 5, 10⟩⟩ =
      some ["<http://ci/api/v1/teams/main/pipelines/p/jobs/a>b/builds?to=5&limit=10>; rel=\"next\""] ∧
    parseLinks percentDecode
        [("link".toList,
          joinedHeader ["<http://ci/api/v1/teams/main/pipelines/p/jobs/a>b/builds?to=5&limit=10>; rel=\"next\""])] =
      ⟨none, none⟩ :=
  ⟨rfl, rfl⟩

end Web
end Concourse
