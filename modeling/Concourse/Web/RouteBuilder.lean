import Concourse.Atc.Pipeline
import Concourse.Lib.ElmUrl
import Concourse.Web.DotNotation

/-!
# Routes as the web UI builds them

A `RouteBuilder` is a route's path segments and query parameters, and `build` writes them as
an absolute URL.  `pipeline` starts the route of everything in a pipeline: the segments
`teams/<team>/pipelines/<name>`, and a parameter `vars.<path>=<json>` for each leaf of the
pipeline's instance vars, its path written by `DotNotation.serialize`.

The API reads those parameters with `InstanceVarsFromQueryParams`, which parses each key as a
var reference.  A reference is cut at its first unquoted `:` into a var source and a path,
and `serialize` quotes a segment for `=`, `.` and white space but not for `:`: the leaf of a
var whose name holds a `:` comes back under another name, and the instance vars are lost.
-/

namespace Concourse

namespace Web

open ElmUrl

/-- `Concourse.PipelineIdentifier`. -/
structure PipelineIdentifier where
  teamName : String
  pipelineName : String
  pipelineInstanceVars : InstanceVars
  deriving DecidableEq, Repr

/-- `RouteBuilder.RouteBuilder`: path segments and query parameters. -/
abbrev RouteBuilder : Type :=
  List String × List QueryParameter

namespace RouteBuilder

/-- `append`: the segments and parameters of the second, then those of the first. -/
def append (b₁ b₂ : RouteBuilder) : RouteBuilder :=
  (b₂.1 ++ b₁.1, b₂.2 ++ b₁.2)

/-- `appendPath`. -/
def appendPath (path : List String) (base : RouteBuilder) : RouteBuilder :=
  append (path, []) base

/-- `appendQuery`. -/
def appendQuery (query : List QueryParameter) (base : RouteBuilder) : RouteBuilder :=
  append ([], query) base

/-- `build`. -/
def build (b : RouteBuilder) : List Char :=
  Builder.absolute (b.1.map String.toList) b.2

section Encode

variable (encode : GoJson.Value → String)

/-- The instance vars' parameters of `pipeline` as `Url.Builder.string` takes them, before it
percent-encodes them: each leaf's serialized path after `vars.`, and its JSON text. -/
def pipelineVars (instanceVars : InstanceVars) : List (String × String) :=
  (DotNotation.flatten instanceVars).map fun var =>
    let kv := DotNotation.serialize encode var
    ("vars." ++ kv.1, kv.2)

/-- `pipeline`. -/
def pipeline (id : PipelineIdentifier) : RouteBuilder :=
  (["teams", id.teamName, "pipelines", id.pipelineName],
    (pipelineVars encode id.pipelineInstanceVars).map fun kv =>
      Builder.string kv.1.toList kv.2.toList)

end Encode

end RouteBuilder

/-- An instance var named `a:b`: its leaf's parameter is `vars.a:b`, which the API reads as
the path `b` of the var source `vars.a`, so that it answers no instance vars, or the error of
the value's text. -/
theorem instanceVarsFromQueryParams_pipelineVars_colon_key (isPrint : Char → Bool)
    (encode : GoJson.Value → String) :
    RouteBuilder.pipelineVars encode [("a:b", .jsonString "x")] =
        [("vars.a:b", encode (.string "x"))] ∧
      Atc.instanceVarsFromQueryParams isPrint
          (GoText.parseQuery (RouteBuilder.pipelineVars encode [("a:b", .jsonString "x")])) =
        (GoJson.unmarshal (encode (.string "x"))).map fun _ => none := by
  have hvars : RouteBuilder.pipelineVars encode [("a:b", .jsonString "x")] =
      [("vars.a:b", encode (.string "x"))] := rfl
  have hquery : GoText.parseQuery [("vars.a:b", encode (.string "x"))] =
      [("vars.a:b", [encode (.string "x")])] := rfl
  -- the key is cut at its `:`: the source `vars.a`, the path `b`
  have href : Vars.parseReference "vars.a:b" = .ok ⟨"vars.a", "b", []⟩ := by decide +kernel
  refine ⟨hvars, ?_⟩
  rw [hvars, hquery]
  exact @Atc.instanceVarsFromQueryParams_single_of_path_ne isPrint "vars.a:b" _ _ (by decide) href
    (by decide)

end Web
end Concourse
