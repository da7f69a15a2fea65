import MergeNotes.Proofs.Decoration.Commits
import MergeNotes.Proofs.Decoration.Plan
import MergeNotes.Proofs.Remote.Parallel

/-! Two decorations side by side: once the same commits are known, they are in step to the end. -/

namespace MergeNotes

section

variable {alike : Request → Request → Prop} {token other : Token}

theorem inStep_interpretStatus (url state : String) (status : Nat) (body : String) :
    InStep alike (interpretStatus url state status body)
      (interpretStatus url state status body) := by
  unfold interpretStatus
  -- Both interpret the same answer, and so take the same branch.
  by_cases set : mentions body transitionRefusal = true
  · rw [if_pos set]
    exact .note_bind _ (.pure _)
  · rw [if_neg set]
    exact (inStep_requireStatus url 201 status body).bind fun _ => .pure _

/-- Posting a status. -/
theorem inStep_postStatus (tokens : Token.Alike alike token other) (url : String)
    (status : BuildStatus) :
    InStep alike (postStatus token url status) (postStatus other url status) := by
  unfold postStatus
  refine (InStep.ofRemote _).bind fun address => .note_bind _ ?_
  refine (inStep_exchange tokens .post address none).bind fun answer => ?_
  refine (inStep_interpretStatus address status.state answer.status answer.body).bind
    fun outcome => ?_
  -- Only a status that is new is noted down.
  by_cases posted : outcome = .posted
  · simp only [posted, if_true]
    exact .note_bind _ (.pure _)
  · simp only [posted, if_false]
    exact (InStep.pure ()).bind fun _ => .pure _

/-- Posting a comment. -/
theorem inStep_postComment (tokens : Token.Alike alike token other) (url : String)
    (comment : Comment) :
    InStep alike (postComment token url comment) (postComment other url comment) :=
  .note_bind _ ((inStep_exchange tokens .post url (some comment)).bind fun answer =>
    (inStep_requireStatus url 201 answer.status answer.body).bind fun _ => .note _)

theorem inStep_postComments (tokens : Token.Alike alike token other) (url : String)
    (comments : List Comment) :
    InStep alike (postComments token url comments) (postComments other url comments) := by
  induction comments with
  | nil => exact .pure ()
  | cons comment comments ih => exact (inStep_postComment tokens url comment).bind fun _ => ih

/-- Selecting, which sends nothing, from commits of which the same are there. -/
theorem inStep_selectFrom (report : Report) {commits others : CommitSet}
    (same : ∀ id, commits.contains id = others.contains id) (mergeRequest : MergeRequest)
    (issues : List Issue) :
    InStep alike (selectFrom report commits mergeRequest issues)
      (selectFrom report others mergeRequest issues) := by
  induction issues with
  | nil => exact .pure _
  | cons issue issues ih =>
    rw [selectFrom, selectFrom, report.decision_congr same mergeRequest]
    -- The decision is the same, and with it what is noted down about the issue.
    refine (InStep.ofRemote _).bind fun decision => ?_
    cases decision.skip? issue with
    | none => exact ih.bind fun _ => .pure _
    | some event => exact .note_bind _ (ih.bind fun _ => .pure _)

end

/-- What a decoration does once its commits are known. -/
def Preparation.workOn (prepared : Preparation) (report : Report) (commits : CommitSet) :
    Run Outcome := do
  let mergeRequest ← fetchMergeRequest prepared.token prepared.endpoints.mergeRequest
  let status ← postStatus prepared.token prepared.endpoints.status prepared.status
  postComment prepared.token prepared.endpoints.discussions (.summary report.summaryBody)
  let selection ← report.select commits mergeRequest
  postComments prepared.token prepared.endpoints.discussions selection.comments
  note (.decorationDone commits.size selection.comments.length selection.skipped)
  pure ⟨status, commits.size, selection.comments.length, selection.skipped⟩

theorem Preparation.work_eq (prepared : Preparation) (report : Report) :
    prepared.work report = fetchCommits prepared.token prepared.endpoints.commits >>= fun ids =>
      prepared.workOn report (.ofList ids) :=
  rfl

/-- Work on commits of which the same are there, with one token or another. -/
theorem Preparation.inStep_workOn {alike : Request → Request → Prop} (prepared : Preparation)
    {other : Token} (tokens : Token.Alike alike prepared.token other) (report : Report)
    {commits others : CommitSet} (same : ∀ id, commits.contains id = others.contains id)
    (size : commits.size = others.size) :
    InStep alike (prepared.workOn report commits)
      (Preparation.workOn { prepared with token := other } report others) := by
  unfold Preparation.workOn Report.select
  refine (inStep_fetchMergeRequest tokens _).bind fun mergeRequest => ?_
  refine (inStep_postStatus tokens _ _).bind fun status => ?_
  refine (inStep_postComment tokens _ _).bind fun _ => ?_
  refine (inStep_selectFrom report same mergeRequest _).bind fun selection => ?_
  refine (inStep_postComments tokens _ _).bind fun _ => ?_
  -- The set of commits is asked once more, for how many there are.
  rw [size]
  exact .note_bind _ (.pure _)

end MergeNotes
