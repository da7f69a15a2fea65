import MergeNotes.Json.Record
import MergeNotes.Text.Blank

/-! The analysis report: gate verdict, conditions, issues and the blame of their lines. -/

namespace MergeNotes

open Json (Format Fields KeyFormat)

/-- The verdict of the quality gate. -/
inductive Gate where
  | passed
  | failed
  deriving DecidableEq, Repr

/-- The names of the verdicts. -/
def Gate.names : List (String × Gate) :=
  [("OK", .passed), ("ERROR", .failed)]

/-- The name of a verdict. -/
def Gate.name : Gate → String
  | .passed => "OK"
  | .failed => "ERROR"

/-- The verdict in JSON. -/
def Gate.format : Format Gate :=
  .choice names name

/-- How one condition of the gate was evaluated. -/
inductive Evaluation where
  | passed
  | warned
  | failed
  | noValue
  deriving DecidableEq, Repr

/-- The names of the evaluations. -/
def Evaluation.names : List (String × Evaluation) :=
  [("OK", .passed), ("WARN", .warned), ("ERROR", .failed), ("NO_VALUE", .noValue)]

/-- The name of an evaluation. -/
def Evaluation.name : Evaluation → String
  | .passed => "OK"
  | .warned => "WARN"
  | .failed => "ERROR"
  | .noValue => "NO_VALUE"

/-- The evaluation in JSON. -/
def Evaluation.format : Format Evaluation :=
  .choice names name

/-- One condition of the gate, with the raw value of its metric. -/
structure Condition where
  metricKey : String
  status : Evaluation
  value : Option String
  deriving DecidableEq, Repr

/-- The condition in JSON. -/
def Condition.format : Format Condition :=
  .record "Condition"
    (.field "metric_key" .string none <|
      .field "status" Evaluation.format none <|
      .field "value" (.option .string) (some none) .none)
    (fun (metricKey, status, value, ()) => ⟨metricKey, status, value⟩)
    (fun c => (c.metricKey, c.status, c.value, ()))

/-- How far work on an issue has come. -/
inductive IssueStatus where
  | opened
  | confirmed
  | reopened
  | resolved
  | closed
  | toReview
  | inReview
  | reviewed
  deriving DecidableEq, Repr

namespace IssueStatus

/-- The names of the statuses. -/
def names : List (String × IssueStatus) :=
  [("OPEN", .opened), ("CONFIRMED", .confirmed), ("REOPENED", .reopened), ("RESOLVED", .resolved),
    ("CLOSED", .closed), ("TO_REVIEW", .toReview), ("IN_REVIEW", .inReview),
    ("REVIEWED", .reviewed)]

/-- The name of a status. -/
def name : IssueStatus → String
  | .opened => "OPEN"
  | .confirmed => "CONFIRMED"
  | .reopened => "REOPENED"
  | .resolved => "RESOLVED"
  | .closed => "CLOSED"
  | .toReview => "TO_REVIEW"
  | .inReview => "IN_REVIEW"
  | .reviewed => "REVIEWED"

/-- The status in JSON. -/
def format : Format IssueStatus :=
  .choice names name

/-- Every issue counts as open that is neither closed nor resolved. -/
def isOpen : IssueStatus → Bool
  | .closed | .resolved => false
  | _ => true

end IssueStatus

/-- An issue on a component of the analysed project. -/
structure Issue where
  /-- The key under which the blame of the component's lines is found. -/
  component : String
  path : Option String
  line : Option UInt32
  status : IssueStatus
  severity : Option String
  message : String
  /-- A body for the comment that replaces the generated one. -/
  comment : Option String
  deriving DecidableEq, Repr

namespace Issue

/-- The issue in JSON. -/
def format : Format Issue :=
  .record "ComponentIssue"
    (.field "component" .string none <|
      .field "path" (.option .string) (some none) <|
      .field "line" (.option .u32) (some none) <|
      .field "status" IssueStatus.format none <|
      .field "severity" (.option .string) (some none) <|
      .field "message" .string (some "") <|
      .field "comment" (.option .string) (some none) .none)
    (fun (component, path, line, status, severity, message, comment, ()) =>
      ⟨component, path, line, status, severity, message, comment⟩)
    (fun i => (i.component, i.path, i.line, i.status, i.severity, i.message, i.comment, ()))

/-- The path of the issue's file, unless it is blank. -/
def filePath? (issue : Issue) : Option String :=
  issue.path.filter fun path => !isBlankText path

/-- The body of the comment on the issue. -/
def body (issue : Issue) : String :=
  match issue.comment, issue.severity with
  | some comment, _ => comment
  | none, some severity => "**" ++ severity ++ "**: " ++ issue.message
  | none, none => issue.message

end Issue

/-- The revision that last touched each line of each component. -/
abbrev Blame := Dict String (Dict UInt32 String)

/-- A finished analysis. -/
structure Report where
  /-- The revision that was analysed. -/
  commit : String
  mergeRequestId : String
  projectKey : String
  properties : Dict String String
  gate : Gate
  conditions : List Condition
  issues : List Issue
  blame : Blame
  /-- A body for the summary that replaces the generated one. -/
  summary : Option String

namespace Report

/-- The report in JSON. -/
def format : Format Report :=
  .record "AnalysisReport"
    (.field "commit_sha" .string none <|
      .field "merge_request_id" .string none <|
      .field "project_key" .string none <|
      .field "scanner_properties" (.dict .string .string) (some .empty) <|
      .field "quality_gate" Gate.format none <|
      .field "conditions" (.list Condition.format) (some []) <|
      .field "issues" (.list Issue.format) (some []) <|
      .field "blame" (.dict .string (.dict .u32 .string)) (some .empty) <|
      .field "summary_comment" (.option .string) (some none) .none)
    (fun (commit, mergeRequestId, projectKey, properties, gate, conditions, issues, blame,
      summary, ()) =>
      ⟨commit, mergeRequestId, projectKey, properties, gate, conditions, issues, blame, summary⟩)
    (fun r => (r.commit, r.mergeRequestId, r.projectKey, r.properties, r.gate, r.conditions,
      r.issues, r.blame, r.summary, ()))

/-- The first condition on a metric. -/
def condition? (report : Report) (metricKey : String) : Option Condition :=
  report.conditions.find? (·.metricKey == metricKey)

/-- The revision that last touched a line. -/
def revision? (report : Report) (component : String) (line : UInt32) : Option String :=
  (report.blame.get? component).bind (·.get? line)

/-- How many issues are open. -/
def openCount (report : Report) : Nat :=
  report.issues.countP (·.status.isOpen)

/-- The body of the summary. -/
def summaryBody (report : Report) : String :=
  match report.summary with
  | some body => body
  | none =>
    let verdict :=
      match report.gate with
      | .passed => "passed"
      | .failed => "failed"
    "Analysis of `" ++ report.projectKey ++ "`: quality gate " ++ verdict ++ ", " ++
      decimal report.openCount ++ " open issue" ++ (if report.openCount = 1 then "" else "s")

end Report

end MergeNotes
