import Concourse.Web.Pagination
import Concourse.Web.RouteBuilder

/-!
# The web UI's routes

`Routes.toString` writes a route as an absolute path with a query and a fragment, and
`Routes.parsePath` reads a URL back into a route.  `sitemap` runs the nine route parsers of
`Url.Parser` on the path's segments and on the query's parameters; the instance vars are read
apart from them, from the query's `vars.` parameters in dot notation, and handed to the
route the parsers found.

Search text goes out percent-encoded by `Url.Builder.string` and comes back decoded, and the
dashboard's parser then replaces every `+` by a space, for the spaces of URLs written by
hand: a search for `a+b` comes back as one for `a b`.

Elm strings held in routes are `String`s; on the URL's side they are lists of characters.
Percent-decoding is the parameter `percentDecode`, as in `ElmUrl`, and decoding the JSON text
of a leaf of the instance vars, `Json.Decode.decodeString decodeJsonValue`, is the parameter
`decodeJsonValue`.
-/

namespace Concourse

namespace Web

open ElmUrl

/-- `Concourse.JobBuildIdentifier`. -/
structure JobBuildIdentifier where
  teamName : String
  pipelineName : String
  pipelineInstanceVars : InstanceVars
  jobName : String
  buildName : String
  deriving DecidableEq, Repr

/-- `Concourse.ResourceIdentifier`. -/
structure ResourceIdentifier where
  teamName : String
  pipelineName : String
  pipelineInstanceVars : InstanceVars
  resourceName : String
  deriving DecidableEq, Repr

/-- `Concourse.JobIdentifier`. -/
structure JobIdentifier where
  teamName : String
  pipelineName : String
  pipelineInstanceVars : InstanceVars
  jobName : String
  deriving DecidableEq, Repr

/-- `Concourse.VersionedResourceIdentifier`. -/
structure VersionedResourceIdentifier where
  teamName : String
  pipelineName : String
  pipelineInstanceVars : InstanceVars
  resourceName : String
  versionID : Int
  deriving DecidableEq, Repr

/-- `Concourse.pipelineId` of a build's identifier. -/
def JobBuildIdentifier.pipelineId (id : JobBuildIdentifier) : PipelineIdentifier :=
  ⟨id.teamName, id.pipelineName, id.pipelineInstanceVars⟩

/-- `Concourse.pipelineId` of a resource's identifier. -/
def ResourceIdentifier.pipelineId (id : ResourceIdentifier) : PipelineIdentifier :=
  ⟨id.teamName, id.pipelineName, id.pipelineInstanceVars⟩

/-- `Concourse.pipelineId` of a job's identifier. -/
def JobIdentifier.pipelineId (id : JobIdentifier) : PipelineIdentifier :=
  ⟨id.teamName, id.pipelineName, id.pipelineInstanceVars⟩

/-- `Concourse.pipelineId` of a version's identifier. -/
def VersionedResourceIdentifier.pipelineId (id : VersionedResourceIdentifier) :
    PipelineIdentifier :=
  ⟨id.teamName, id.pipelineName, id.pipelineInstanceVars⟩

/-- `Concourse.CausalityDirection`. -/
inductive CausalityDirection where
  | downstream
  | upstream
  deriving DecidableEq, Repr

/-- `Concourse.Version`: a `Dict String String`. -/
abbrev Version : Type :=
  List (String × String)

/-- `Concourse.versionQuery`: each entry as `key:value`. -/
def versionQuery (v : Version) : List String :=
  v.map fun kv => kv.1 ++ ":" ++ kv.2

namespace Routes

/-- `Routes.SearchType`. -/
inductive SearchType where
  | normal (query : String)
  deriving DecidableEq, Repr

/-- `Routes.DashboardView`. -/
inductive DashboardView where
  | viewNonArchivedPipelines
  | viewAllPipelines
  deriving DecidableEq, Repr

/-- `dashboardViews`. -/
def dashboardViews : List DashboardView :=
  [.viewNonArchivedPipelines, .viewAllPipelines]

/-- `dashboardViewName`. -/
def dashboardViewName : DashboardView → String
  | .viewAllPipelines => "all"
  | .viewNonArchivedPipelines => "non_archived"

/-- `Routes.Highlight`: the lines of a build's step the fragment points at. -/
inductive Highlight where
  | highlightNothing
  | highlightLine (stepID : String) (line : Int)
  | highlightRange (stepID : String) (line1 line2 : Int)
  deriving DecidableEq, Repr

/-- `Routes.Route`. -/
inductive Route where
  | build (id : JobBuildIdentifier) (highlight : Highlight) (groups : List String)
  | resource (id : ResourceIdentifier) (page : Option Page) (version : Option Version)
      (groups : List String)
  | job (id : JobIdentifier) (page : Option Page) (groups : List String)
  | oneOffBuild (id : Int) (highlight : Highlight)
  | pipeline (id : PipelineIdentifier) (groups : List String)
  | dashboard (searchType : SearchType) (dashboardView : DashboardView)
  | flySuccess (noop : Bool) (flyPort : Option Int)
  | causality (id : VersionedResourceIdentifier) (direction : CausalityDirection)
      (version : Option Version) (groups : List String)
  | downloadFly
  deriving DecidableEq, Repr

/-! ## Printing -/

/-- `showHighlight`. -/
def showHighlight : Highlight → List Char
  | .highlightNothing => []
  | .highlightLine id line => "#L".toList ++ id.toList ++ ':' :: fromInt line
  | .highlightRange id line1 line2 =>
    "#L".toList ++ id.toList ++ ':' :: fromInt line1 ++ ':' :: fromInt line2

/-- `searchQueryParams`. -/
def searchQueryParams (q : String) : List QueryParameter :=
  [Builder.string "search".toList q.toList]

/-- `versionQueryParams`. -/
def versionQueryParams (version : Version) : List QueryParameter :=
  (versionQuery version).map fun q => Builder.string "filter".toList q.toList

section Print

variable (encode : GoJson.Value → String)

/-- `pipelineIdBuilder`. -/
def pipelineIdBuilder (id : PipelineIdentifier) : RouteBuilder :=
  RouteBuilder.pipeline encode id

open RouteBuilder in
/-- `Routes.toString`.  A build's groups, and a resource's or a version's, are not written. -/
def toString : Route → List Char
  | .build id highlight _ =>
    build (appendPath ["jobs", id.jobName, "builds", id.buildName]
        (pipelineIdBuilder encode id.pipelineId)) ++
      showHighlight highlight
  | .job id page _ =>
    build (appendQuery (params page)
      (appendPath ["jobs", id.jobName] (pipelineIdBuilder encode id.pipelineId)))
  | .resource id page version _ =>
    build (appendQuery (versionQueryParams (version.getD []))
      (appendQuery (params page)
        (appendPath ["resources", id.resourceName] (pipelineIdBuilder encode id.pipelineId))))
  | .oneOffBuild id highlight =>
    build (["builds", String.ofList (fromInt id)], []) ++ showHighlight highlight
  | .pipeline id groups =>
    build (appendQuery (groups.map fun g => Builder.string "group".toList g.toList)
      (pipelineIdBuilder encode id))
  | .dashboard searchType dashboardView =>
    build (appendQuery
      (match dashboardView with
        | .viewNonArchivedPipelines => []
        | _ => [Builder.string "view".toList (dashboardViewName dashboardView).toList])
      (appendQuery
        (match searchType with
          | .normal "" => []
          | .normal query => searchQueryParams query)
        ([], [])))
  | .flySuccess noop flyPort =>
    build (appendQuery (if noop then [Builder.string "noop".toList "true".toList] else [])
      (appendQuery (flyPort.map (Builder.int "fly_port".toList)).toList (["fly_success"], [])))
  | .causality id direction _ _ =>
    let path := match direction with
      | .downstream => "downstream"
      | .upstream => "upstream"
    build (appendPath [path]
      (appendPath ["causality", String.ofList (fromInt id.versionID)]
        (appendPath ["resources", id.resourceName] (pipelineIdBuilder encode id.pipelineId))))
  | .downloadFly => build (["download-fly"], [])

end Print

/-! ## Parsing -/

/-- `parseHighlight`: `L<step>:<line>` or `L<step>:<line>:<line>`. -/
def parseHighlight : Option (List Char) → Highlight
  | some ('L' :: selector) =>
    match selector.splitOn ':' with
    | [stepID, line1str, line2str] =>
      match toInt line1str, toInt line2str with
      | some line1, some line2 => .highlightRange (String.ofList stepID) line1 line2
      | _, _ => .highlightNothing
    | [stepID, linestr] =>
      match toInt linestr with
      | some line => .highlightLine (String.ofList stepID) line
      | none => .highlightNothing
    | _ => .highlightNothing
  | _ => .highlightNothing

/-- The record `pipelineIdentifier` reads: a team's and a pipeline's names. -/
structure PipelineNames where
  teamName : String
  pipelineName : String

variable {a : Type}

/-- `pipelineIdentifier`: `teams/<team>/pipelines/<pipeline>`. -/
def pipelineIdentifier : ElmUrl.Parser (PipelineNames → a) a :=
  Parser.map (fun t p => (⟨String.ofList t, String.ofList p⟩ : PipelineNames))
    (Parser.slash (Parser.s "teams".toList)
      (Parser.slash Parser.string (Parser.slash (Parser.s "pipelines".toList) Parser.string)))

/-- `buildHelper` of `build`. -/
def buildHelper (names : PipelineNames) (jobName buildName : List Char) (h : Highlight) :
    InstanceVars → Route :=
  fun iv =>
    .build ⟨names.teamName, names.pipelineName, iv, String.ofList jobName,
      String.ofList buildName⟩ h []

/-- `build`: `<pipeline>/jobs/<job>/builds/<build>`, and the highlight in the fragment. -/
def build : ElmUrl.Parser ((InstanceVars → Route) → a) a :=
  Parser.map buildHelper
    (Parser.slash pipelineIdentifier
      (Parser.slash (Parser.s "jobs".toList)
        (Parser.slash Parser.string
          (Parser.slash (Parser.s "builds".toList)
            (Parser.slash Parser.string (Parser.fragment parseHighlight))))))

/-- `oneOffBuild`: `builds/<id>`, and the highlight in the fragment. -/
def oneOffBuild : ElmUrl.Parser ((InstanceVars → Route) → a) a :=
  Parser.map (fun (b : Int) (h : Highlight) (_ : InstanceVars) => Route.oneOffBuild b h)
    (Parser.slash (Parser.s "builds".toList) (Parser.slash Parser.int (Parser.fragment parseHighlight)))

/-- `Routes.parsePage`: a page from `from` or from `to`, each with a `limit`. -/
def parsePage (fromId toId limit : Option Int) : Option Page :=
  match fromId, toId, limit with
  | none, some t, some l => some ⟨.To t, l⟩
  | some f, none, some l => some ⟨.From f, l⟩
  | _, _, _ => none

/-- `resourceVersion`: the `key:value` parameters as a version, none without one. -/
def resourceVersion (key : List Char) : QueryParser (Option Version) :=
  let split (s : List Char) : Option (String × String) :=
    match s.splitOn ':' with
    | x :: xs => some (String.ofList x, String.ofList ([':'].intercalate xs))
    | [] => none
  let parse (queries : List (List Char)) : Version :=
    dictFromList (queries.filterMap split)
  custom key fun queries => if (parse queries).isEmpty then none else some (parse queries)

/-- `resourceHelper` of `resource`. -/
def resourceHelper (names : PipelineNames) (resourceName : List Char) (fromId toId limit : Option Int)
    (version : Option Version) : InstanceVars → Route :=
  fun iv =>
    .resource ⟨names.teamName, names.pipelineName, iv, String.ofList resourceName⟩
      (parsePage fromId toId limit) version []

/-- `resource`: `<pipeline>/resources/<resource>`, with a page and a version's filter. -/
def resource : ElmUrl.Parser ((InstanceVars → Route) → a) a :=
  Parser.map resourceHelper
    (Parser.slash pipelineIdentifier
      (Parser.slash (Parser.s "resources".toList)
        (Parser.questionMark
          (Parser.questionMark
            (Parser.questionMark (Parser.questionMark Parser.string (int "from".toList))
              (int "to".toList))
            (int "limit".toList))
          (resourceVersion "filter".toList))))

/-- `jobHelper` of `job`. -/
def jobHelper (names : PipelineNames) (jobName : List Char) (fromId toId limit : Option Int) :
    InstanceVars → Route :=
  fun iv =>
    .job ⟨names.teamName, names.pipelineName, iv, String.ofList jobName⟩
      (parsePage fromId toId limit) []

/-- `job`: `<pipeline>/jobs/<job>`, with a page. -/
def job : ElmUrl.Parser ((InstanceVars → Route) → a) a :=
  Parser.map jobHelper
    (Parser.slash pipelineIdentifier
      (Parser.slash (Parser.s "jobs".toList)
        (Parser.questionMark
          (Parser.questionMark (Parser.questionMark Parser.string (int "from".toList))
            (int "to".toList))
          (int "limit".toList))))

/-- `pipeline`: a pipeline, with the groups shown. -/
def pipeline : ElmUrl.Parser ((InstanceVars → Route) → a) a :=
  Parser.map
    (fun (names : PipelineNames) (g : List (List Char)) => fun iv =>
      Route.pipeline ⟨names.teamName, names.pipelineName, iv⟩ (g.map String.ofList))
    (Parser.questionMark pipelineIdentifier (custom "group".toList id))

/-- `stringWithSpaces`: a parameter given once, with every `+` read as a space. -/
def stringWithSpaces (key : List Char) : QueryParser (Option (List Char)) :=
  Query.map (Option.map fun s => s.map fun c => if c = '+' then ' ' else c) (Query.string key)

/-- `dashboardViewQuery`: the view named by `view`, the non-archived pipelines otherwise.
The names are distinct, so that `Dict.fromList` of them is looked up as the list. -/
def dashboardViewQuery : QueryParser DashboardView :=
  Query.map (fun v => v.getD .viewNonArchivedPipelines)
    (Query.enum "view".toList (dashboardViews.map fun v => ((dashboardViewName v).toList, v)))

/-- `dashboard`: the empty path, with the search text and the view. -/
def dashboard : ElmUrl.Parser ((InstanceVars → Route) → a) a :=
  Parser.map
    (fun (st : SearchType) (view : DashboardView) (_ : InstanceVars) => Route.dashboard st view)
    (Parser.questionMark
      (Parser.oneOf
        [Parser.map (fun s => SearchType.normal (String.ofList s))
          (Parser.questionMark Parser.top (Query.map (fun s => s.getD []) (stringWithSpaces "search".toList)))])
      dashboardViewQuery)

/-- `flySuccess`: `fly_success`, with `noop` and the port of `fly`. -/
def flySuccess : ElmUrl.Parser ((InstanceVars → Route) → a) a :=
  Parser.map
    (fun (s : Option (List Char)) (p : Option Int) (_ : InstanceVars) =>
      Route.flySuccess (s == some "true".toList) p)
    (Parser.questionMark (Parser.questionMark (Parser.s "fly_success".toList) (Query.string "noop".toList))
      (int "fly_port".toList))

/-- `downloadFly`. -/
def downloadFly : ElmUrl.Parser ((InstanceVars → Route) → a) a :=
  Parser.map (fun (_ : InstanceVars) => Route.downloadFly) (Parser.s "download-fly".toList)

/-- `causalityHelper` of `causality`. -/
def causalityHelper (direction : CausalityDirection) (names : PipelineNames)
    (resourceName : List Char) (versionId : Int) : InstanceVars → Route :=
  fun iv =>
    .causality ⟨names.teamName, names.pipelineName, iv, String.ofList resourceName, versionId⟩
      direction none []

/-- `baseRoute` of `causality`: `<pipeline>/resources/<resource>/causality/<version>`. -/
def causalityBaseRoute (dir : CausalityDirection) : ElmUrl.Parser ((InstanceVars → Route) → a) a :=
  Parser.map (causalityHelper dir)
    (Parser.slash pipelineIdentifier
      (Parser.slash (Parser.s "resources".toList)
        (Parser.slash Parser.string
          (Parser.slash (Parser.s "causality".toList) Parser.int))))

/-- `causality`: a version's causality, `upstream` or `downstream`. -/
def causality : ElmUrl.Parser ((InstanceVars → Route) → a) a :=
  Parser.oneOf
    [Parser.slash (causalityBaseRoute .upstream) (Parser.s "upstream".toList),
      Parser.slash (causalityBaseRoute .downstream) (Parser.s "downstream".toList)]

/-- `sitemap`. -/
def sitemap : ElmUrl.Parser ((InstanceVars → Route) → a) a :=
  Parser.oneOf [resource, job, dashboard, pipeline, build, oneOffBuild, flySuccess, causality,
    downloadFly]

/-- `toDict`. -/
def toDict : Option JsonValue → InstanceVars
  | some (.jsonObject kvs) => dictFromList kvs
  | _ => []

section Decode

variable (percentDecode : List Char → Option (List Char))
  (decodeJsonValue : List Char → Option JsonValue)

/-- The instance vars `parsePath` reads from the query: its `vars.` and `vars=` parameters,
decoded, parsed in dot notation and expanded. -/
def instanceVars (url : Url) : InstanceVars :=
  toDict (dictGet "vars"
    (DotNotation.expand
      (((((url.query.getD []).splitOn '&').filter fun s =>
          "vars.".toList.isPrefixOf s || "vars=".toList.isPrefixOf s).filterMap percentDecode).filterMap
        (DotNotation.parse decodeJsonValue))))

/-- `Routes.parsePath`. -/
def parsePath (url : Url) : Option Route :=
  (parse percentDecode sitemap url).map fun deferredRoute =>
    deferredRoute (instanceVars percentDecode decodeJsonValue url)

end Decode

/-- A search for `a+b`: the URL carries it as `a%2Bb`, which decodes back to `a+b`, and the
dashboard's parser then reads its `+` as a space. -/
theorem parsePath_toString_search_plus (percentDecode : List Char → Option (List Char))
    (hpd : PercentDecodeLaw percentDecode) (decodeJsonValue : List Char → Option JsonValue)
    (encode : GoJson.Value → String) :
    toString encode (.dashboard (.normal "a+b") .viewNonArchivedPipelines) =
        "/?search=a%2Bb".toList ∧
      (fromString ("http://ci".toList ++
          toString encode (.dashboard (.normal "a+b") .viewNonArchivedPipelines))).bind
          (parsePath percentDecode decodeJsonValue) =
        some (.dashboard (.normal "a b") .viewNonArchivedPipelines) := by
  -- the dashboard's URL does not depend on how JSON is written
  have hstring : toString encode (.dashboard (.normal "a+b") .viewNonArchivedPipelines) =
      "/?search=a%2Bb".toList := by
    show toString (fun _ => "") (.dashboard (.normal "a+b") .viewNonArchivedPipelines) = _
    decide
  have hurl : fromString ("http://ci".toList ++ "/?search=a%2Bb".toList) =
      some ⟨.http, "ci".toList, none, "/".toList, some "search=a%2Bb".toList, none⟩ := by
    decide
  have hkey : percentDecode "search".toList = some "search".toList :=
    hpd.decode_of_plain _ (by decide)
  have hvalue : percentDecode "a%2Bb".toList = some ['a', '+', 'b'] := by
    have henc : percentEncode ['a', '+', 'b'] = "a%2Bb".toList := by decide
    have hascii : ∀ c ∈ ['a', '+', 'b'], c.toNat < 128 := by simp
    rw [← henc]
    exact hpd.decode_percentEncode _ hascii
  have hquery : prepareQuery percentDecode (some "search=a%2Bb".toList) =
      [("search".toList, ["a+b".toList])] := by
    have hamp : "search=a%2Bb".toList.splitOn '&' = ["search=a%2Bb".toList] := by decide
    have heq : "search=a%2Bb".toList.splitOn '=' = ["search".toList, "a%2Bb".toList] := by decide
    rw [prepareQuery, hamp]
    show addParam percentDecode "search=a%2Bb".toList [] = _
    simp only [addParam, heq, hkey, hvalue]
    rfl
  -- no parameter is one of the instance vars'
  have hvars : instanceVars percentDecode decodeJsonValue
      ⟨.http, "ci".toList, none, "/".toList, some "search=a%2Bb".toList, none⟩ = [] := by
    have hfilter : ("search=a%2Bb".toList.splitOn '&').filter
        (fun s => "vars.".toList.isPrefixOf s || "vars=".toList.isPrefixOf s) = [] := by decide
    rw [instanceVars, Option.getD_some, hfilter, List.filterMap_nil, List.filterMap_nil]
    rfl
  refine ⟨hstring, ?_⟩
  rw [hstring, hurl, Option.bind_some, parsePath, hvars, parse, hquery]
  decide

theorem parsePath_toString_search_plus_ascii :
    toString (fun _ => "") (.dashboard (.normal "a+b") .viewNonArchivedPipelines) =
        "/?search=a%2Bb".toList ∧
      (fromString ("http://ci".toList ++
          toString (fun _ => "") (.dashboard (.normal "a+b") .viewNonArchivedPipelines))).bind
          (parsePath asciiPercentDecode fun _ => none) =
        some (.dashboard (.normal "a b") .viewNonArchivedPipelines) :=
  parsePath_toString_search_plus asciiPercentDecode asciiPercentDecode_law (fun _ => none)
    (fun _ => "")

end Routes

end Web
end Concourse
