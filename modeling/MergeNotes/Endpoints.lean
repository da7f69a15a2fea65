import MergeNotes.Failure
import MergeNotes.Report
import MergeNotes.Url.Parse

/-! The addresses of what a decoration reads and writes. -/

namespace MergeNotes

/-- The addresses that belong to one merge request and one revision. -/
structure Endpoints where
  status : String
  mergeRequest : String
  commits : String
  discussions : String
  deriving DecidableEq, Repr

namespace Endpoints

/-- The property that names the root of the API. -/
def apiProperty : String := "gitlab.api.url"

/-- The property that names the project. -/
def projectProperty : String := "gitlab.repository.slug"

/-- The addresses under the root of an API; each name becomes one path segment. -/
def under (api project mergeRequestId revision : String) : Endpoints :=
  -- Names are escaped, so that a slash in one of them does not begin a segment.
  let project := api ++ "/projects/" ++ Percent.component project
  let mergeRequest := project ++ "/merge_requests/" ++ Percent.component mergeRequestId
  { status := project ++ "/statuses/" ++ Percent.component revision
    mergeRequest
    commits := mergeRequest ++ "/commits"
    discussions := mergeRequest ++ "/discussions" }

/-- The addresses, if the root of the API without the slashes at its end is a URL. -/
def resolve (apiUrl project mergeRequestId revision : String) :
    Except AnalysisFailure Endpoints :=
  let api := withoutTrailingSlashes apiUrl
  match Url.parse api with
  -- The words show the root as it was given, slashes and all.
  | .error reason => .error (.invalidBaseUrl (apiUrl ++ ": " ++ reason.message))
  | .ok _ => .ok (under api project mergeRequestId revision)

/-- A property that the report must have. -/
def required (report : Report) (key : String) : Except AnalysisFailure String :=
  match report.properties.get? key with
  | some value => .ok value
  | none => .error (.missingProperty key)

/-- The addresses that a report leads to. -/
def ofReport (report : Report) : Except AnalysisFailure Endpoints := do
  let apiUrl ← required report apiProperty
  let project ← required report projectProperty
  resolve apiUrl project report.mergeRequestId report.commit

end Endpoints

end MergeNotes
