import Concourse.Atc.Pipeline
import Concourse.Db.BuildFactory

/-!
# The pagination links of a job's builds

`ListJobBuilds` answers a page of a job's builds, and adds one `Link` header for each page
beside it: `addNextLink` for the older page, by its `To`, and `addPreviousLink` for the newer
page, by its `From`.  Both splice the external URL and the team, pipeline and job names into
the URL as they are, and append the instance vars' query when the pipeline has instance
vars.
-/

namespace Concourse

namespace Api

open Atc GoText

/-- `atc.PaginationQueryFrom`. -/
def paginationQueryFrom : String := "from"

/-- `atc.PaginationQueryTo`. -/
def paginationQueryTo : String := "to"

/-- `atc.PaginationQueryLimit`. -/
def paginationQueryLimit : String := "limit"

/-- `atc.LinkRelNext`. -/
def linkRelNext : String := "next"

/-- `atc.LinkRelPrevious`. -/
def linkRelPrevious : String := "previous"

section Links

variable (isPrint : Char → Bool)

/-- The URL of the `Link` headers `addNextLink` and `addPreviousLink` write, for the query
parameter `param` at `value`.  The two branches of each differ in the instance vars' query
only. -/
def buildsURL (externalURL teamName : String) (pipelineRef : PipelineRef) (jobName : String)
    (param : String) (value limit : Nat) : String :=
  let url := externalURL ++ "/api/v1/teams/" ++ teamName ++ "/pipelines/" ++ pipelineRef.name ++
    "/jobs/" ++ jobName ++ "/builds?" ++ param ++ "=" ++ String.ofList (fmtInt value) ++ "&" ++
    paginationQueryLimit ++ "=" ++ String.ofList (fmtInt limit)
  match pipelineRef.instanceVars with
  | some _ => url ++ "&" ++ String.ofList (valuesEncode ((pipelineRef.queryParams isPrint).getD []))
  | none => url

/-- The `Link` header `addNextLink` and `addPreviousLink` write: `<url>; rel="rel"`. -/
def buildsLink (externalURL teamName : String) (pipelineRef : PipelineRef) (jobName : String)
    (param : String) (value limit : Nat) (rel : String) : String :=
  "<" ++ buildsURL isPrint externalURL teamName pipelineRef jobName param value limit ++
    ">; rel=\"" ++ rel ++ "\""

/-- `Server.addNextLink`: the older page, by its `To`.  A page without one dereferences
`nil`. -/
def addNextLink (externalURL teamName : String) (pipelineRef : PipelineRef) (jobName : String)
    (page : Db.Page) : Option String :=
  page.toId.map fun n =>
    buildsLink isPrint externalURL teamName pipelineRef jobName paginationQueryTo n page.limit
      linkRelNext

/-- `Server.addPreviousLink`: the newer page, by its `From`.  A page without one dereferences
`nil`. -/
def addPreviousLink (externalURL teamName : String) (pipelineRef : PipelineRef)
    (jobName : String) (page : Db.Page) : Option String :=
  page.fromId.map fun n =>
    buildsLink isPrint externalURL teamName pipelineRef jobName paginationQueryFrom n page.limit
      linkRelPrevious

/-- The values of the `Link` headers `ListJobBuilds` adds, in order. -/
def listJobBuildsLinks (externalURL teamName : String) (pipelineRef : PipelineRef)
    (jobName : String) (pagination : Db.Pagination) : Option (List String) := do
  let next ← pagination.older.mapM (addNextLink isPrint externalURL teamName pipelineRef jobName)
  let previous ←
    pagination.newer.mapM (addPreviousLink isPrint externalURL teamName pipelineRef jobName)
  pure (next.toList ++ previous.toList)

end Links

end Api
end Concourse
