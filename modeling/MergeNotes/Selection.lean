import MergeNotes.MergeRequest
import MergeNotes.Remote.Line
import MergeNotes.Report

/-! Which issues get a comment on their line: the open ones on lines that the merge request
touched. -/

namespace MergeNotes

/-- What becomes of an issue. -/
inductive Decision where
  | comment (comment : Comment)
  | notOpen
  /-- The issue names no file or no line. -/
  | noLocation
  /-- It is not known which revision last touched the line. -/
  | noBlame (path : String) (line : UInt32)
  /-- The revision that last touched the line is no commit of the merge request. -/
  | outside (path : String) (line : UInt32) (revision : String)
  deriving DecidableEq, Repr

/-- A comment on a line, for which the merge request must name the commits of its diff. -/
def inlineComment (mergeRequest : MergeRequest) (body path : String) (line : UInt32) :
    Except RemoteFailure Comment :=
  match Comment.inline body mergeRequest.refs path line with
  | .ok comment => .ok comment
  | .error name =>
    .error (.invalidResponse ("merge request !" ++ decimal mergeRequest.iid.toNat ++
      " has no diff_refs." ++ name))

/-- What becomes of an issue. -/
def Report.decision (report : Report) (commits : CommitSet) (mergeRequest : MergeRequest)
    (issue : Issue) : Except RemoteFailure Decision :=
  -- Of an issue that is not open nothing else is asked, not even whether it has a place.
  if !issue.status.isOpen then .ok .notOpen
  else
    match issue.filePath?, issue.line with
    | some path, some line =>
      match report.revision? issue.component line with
      | none => .ok (.noBlame path line)
      | some revision =>
        if commits.contains revision then
          -- Only here must the merge request name its commits.
          (inlineComment mergeRequest issue.body path line).map .comment
        else .ok (.outside path line revision)
    | _, _ => .ok .noLocation

/-- The comments to post, and how many open issues get none. -/
structure Selection where
  comments : List Comment
  skipped : Nat
  deriving DecidableEq, Repr

/-- What is noted of an issue that is passed over. -/
def Decision.skip? (issue : Issue) : Decision → Option Event
  | .comment _ | .notOpen => none
  | .noLocation => some (.issueUnlocated issue.component)
  | .noBlame path line => some (.lineUnblamed path line)
  | .outside path line revision => some (.lineOutside path line revision)

/-- The selection with one more issue, which comes before all others. -/
def Selection.add (decision : Decision) (selection : Selection) : Selection :=
  match decision with
  | .comment comment => { selection with comments := comment :: selection.comments }
  | .notOpen => selection
  | .noLocation | .noBlame .. | .outside .. => { selection with skipped := selection.skipped + 1 }

/-- Selects from a list of issues, in their order. -/
def selectFrom (report : Report) (commits : CommitSet) (mergeRequest : MergeRequest) :
    List Issue → Run Selection
  | [] => pure ⟨[], 0⟩
  | issue :: issues => do
    let decision ← Run.ofRemote (report.decision commits mergeRequest issue)
    -- What is passed over is noted; what is not open is not even that.
    match decision.skip? issue with
    | some event => note event
    | none => pure ()
    let selection ← selectFrom report commits mergeRequest issues
    pure (selection.add decision)

/-- Selects from the issues of a report. -/
def Report.select (report : Report) (commits : CommitSet) (mergeRequest : MergeRequest) :
    Run Selection :=
  selectFrom report commits mergeRequest report.issues

end MergeNotes
