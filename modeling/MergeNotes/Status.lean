import MergeNotes.Endpoints
import MergeNotes.Form
import MergeNotes.Remote.Exchange

/-! The build status of the analysed revision, which carries its verdict and its coverage. -/

namespace MergeNotes

/-- What the server calls a verdict. -/
def Gate.state : Gate → String
  | .passed => "success"
  | .failed => "failed"

/-- The coverage that a condition stands for, which is zero where it has no value. -/
def Condition.coverage (condition : Condition) : String :=
  match condition.status, condition.value with
  -- Without a value there is nothing to report, whatever the condition says.
  | .noValue, _ | _, none => "0"
  | _, some value => value

/-- The page of the dashboard about a merge request. -/
def dashboardUrl (root projectKey mergeRequestId : String) : String :=
  withoutTrailingSlashes root ++ "/dashboard?id=" ++ Percent.component projectKey ++
    "&pullRequest=" ++ Percent.component mergeRequestId

/-- A build status. -/
structure BuildStatus where
  state : String
  targetUrl : String
  coverage : String
  deriving DecidableEq, Repr

namespace BuildStatus

/-- The metric of the condition whose value is the coverage. -/
def coverageMetric : String := "new_coverage"

/-- The status that a report asks for. -/
def ofReport (report : Report) (root : String) : Except AnalysisFailure BuildStatus :=
  match report.condition? coverageMetric with
  | none => .error (.missingCondition coverageMetric)
  | some condition =>
    .ok ⟨report.gate.state, dashboardUrl root report.projectKey report.mergeRequestId,
      condition.coverage⟩

/-- What a status says, by name. -/
def fields (status : BuildStatus) : List (String × String) :=
  [("name", "SonarQube"), ("state", status.state), ("target_url", status.targetUrl),
    ("description", "SonarQube Status"), ("coverage", status.coverage)]

/-- The address to which a status is posted, which says all of it. -/
def address (status : BuildStatus) (url : String) : Except RemoteFailure String :=
  match Url.parse url with
  | .error reason => .error (.invalidUrl (url ++ ": " ++ reason.message))
  | .ok parsed => .ok (parsed.addQuery (Form.encode status.fields)).text

end BuildStatus

/-- What came of posting a status. -/
inductive StatusOutcome where
  | posted
  /-- The server refused because the revision has that status. -/
  | alreadySet
  deriving DecidableEq, Repr

/-- The name of an outcome. -/
def StatusOutcome.name : StatusOutcome → String
  | .posted => "posted"
  | .alreadySet => "already_set"

/-- What the server says when a status is posted that is set. -/
def transitionRefusal : String := "Cannot transition status"

/-- What an answer to a status means. -/
def interpretStatus (url state : String) (status : Nat) (body : String) : Run StatusOutcome := do
  -- The words decide, whatever the status.
  if mentions body transitionRefusal then
    note (.statusAlreadySet state)
    pure .alreadySet
  else
    requireStatus url 201 status body
    pure .posted

/-- Posts a status. -/
def postStatus (token : Token) (url : String) (status : BuildStatus) : Run StatusOutcome := do
  -- An address that cannot be made is found out before anything is noted.
  let address ← Run.ofRemote (status.address url)
  note (.postingStatus status.state status.coverage)
  let answer ← exchange token .post address none
  let outcome ← interpretStatus address status.state answer.status answer.body
  if outcome = .posted then
    note (.statusPosted status.state)
  pure outcome

end MergeNotes
