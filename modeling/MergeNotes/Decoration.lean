import MergeNotes.Remote.Listing
import MergeNotes.Selection
import MergeNotes.Status

/-! The decoration of a merge request: its commits and itself are read, then the build status is
posted, then the summary, and then a comment for each selected issue. -/

namespace MergeNotes

/-- What a decoration needs besides the report. -/
structure Access where
  token : String
  /-- The root of the dashboard, to which the build status leads. -/
  root : String
  deriving DecidableEq, Repr

/-- What a decoration did. -/
structure Outcome where
  status : StatusOutcome
  commits : Nat
  inline : Nat
  skipped : Nat
  deriving DecidableEq, Repr

/-- Posts a comment. -/
def postComment (token : Token) (url : String) (comment : Comment) : Run Unit := do
  note (.postingComment url (comment.get? "position[new_path]") (comment.get? "position[new_line]"))
  let answer ← exchange token .post url (some comment)
  requireStatus url 201 answer.status answer.body
  note .commentPosted

/-- Posts comments in order. -/
def postComments (token : Token) (url : String) : List Comment → Run Unit
  | [] => pure ()
  | comment :: comments => do
    postComment token url comment
    postComments token url comments

/-- Notes addresses down. -/
def noteEndpoints (found : Except AnalysisFailure Endpoints) : Run Endpoints := do
  let endpoints ← Run.ofAnalysis found
  note (.statusAddress endpoints.status)
  note (.commitsAddress endpoints.commits)
  note (.discussionsAddress endpoints.discussions)
  pure endpoints

/-- The addresses that a report leads to, which are noted down. -/
def findEndpoints (report : Report) : Run Endpoints :=
  noteEndpoints (Endpoints.ofReport report)

/-- The token, which a header must be able to carry. -/
def requireToken (text : String) : Run Token :=
  match Token.ofString? text with
  | some token => pure token
  | none => Run.failRemote (.invalidHeader Token.headerName)

/-- Decorates the merge request of a report. All that can fail by itself does so before the first
request is made. -/
def decorate (access : Access) (report : Report) : Run Outcome := do
  note (.decorationStarted report.projectKey report.mergeRequestId report.commit)
  let endpoints ← findEndpoints report
  let buildStatus ← Run.ofAnalysis (BuildStatus.ofReport report access.root)
  let token ← requireToken access.token
  -- From here on requests are made; what was posted before a failure stays posted.
  let commits := CommitSet.ofList (← fetchCommits token endpoints.commits)
  let mergeRequest ← fetchMergeRequest token endpoints.mergeRequest
  let status ← postStatus token endpoints.status buildStatus
  postComment token endpoints.discussions (.summary report.summaryBody)
  -- An issue that cannot be decided on fails the decoration behind its summary.
  let selection ← report.select commits mergeRequest
  postComments token endpoints.discussions selection.comments
  note (.decorationDone commits.size selection.comments.length selection.skipped)
  pure ⟨status, commits.size, selection.comments.length, selection.skipped⟩

end MergeNotes
