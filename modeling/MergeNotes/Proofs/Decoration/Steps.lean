import MergeNotes.Decoration
import MergeNotes.Proofs.Remote.Pages

/-! The posts of a decoration as steps, and its selection, which takes none. -/

namespace MergeNotes

/-- Posts a status; it is no fault that the revision has it. -/
def Step.status (url : String) (status : BuildStatus) : Step where
  method := .post
  address := status.address url
  form := none
  fault? := fun address answer =>
    if mentions answer.body transitionRefusal then none else statusFault? 201 address answer

/-- Posts a comment. -/
def Step.comment (url : String) (comment : Comment) : Step where
  method := .post
  address := .ok url
  form := some comment
  fault? := statusFault? 201

/-- What an answer to a status says, when it is without fault. -/
def Answer.statusOutcome (answer : Answer) : StatusOutcome :=
  if mentions answer.body transitionRefusal then .alreadySet else .posted

theorem statusFault?_eq_none_iff {expected : Nat} {address : String} {answer : Answer} :
    statusFault? expected address answer = none ↔ answer.status = expected := by
  unfold statusFault?
  split <;> simp_all

theorem statusFault?_eq_some_iff {expected : Nat} {address : String} {answer : Answer}
    {failure : RemoteFailure} :
    statusFault? expected address answer = some failure ↔
      answer.status ≠ expected ∧
        failure = .unexpectedStatus address expected answer.status answer.body := by
  unfold statusFault?
  split <;> simp_all [eq_comm]

/-- Only a status other than 201 is wrong with the answer to a status, and only when the answer
does not say that the revision has it. -/
theorem Step.fault?_status_eq_some_iff {url : String} {status : BuildStatus} {address : String}
    {answer : Answer} {failure : RemoteFailure} :
    (Step.status url status).fault? address answer = some failure ↔
      mentions answer.body transitionRefusal = false ∧ answer.status ≠ 201 ∧
        failure = .unexpectedStatus address 201 answer.status answer.body := by
  simp only [Step.status]
  by_cases set : mentions answer.body transitionRefusal = true
  · simp [set]
  · simp [set, statusFault?_eq_some_iff]

theorem Step.fault?_status_eq_none_iff {url : String} {status : BuildStatus} {address : String}
    {answer : Answer} :
    (Step.status url status).fault? address answer = none ↔
      mentions answer.body transitionRefusal = true ∨ answer.status = 201 := by
  simp only [Step.status]
  by_cases set : mentions answer.body transitionRefusal = true
  · simp [set]
  · simp [set, statusFault?_eq_none_iff]

/-- Posting a status is one step. -/
theorem carriesOut_postStatus (token : Token) (url : String) (status : BuildStatus)
    (before : Line) :
    CarriesOut token [.status url status]
      (fun outcome => before.reply.answer?.map Answer.statusOutcome = some outcome) before
      ((postStatus token url status).run before) := by
  unfold postStatus
  cases found : status.address url with
  | error failure =>
    -- Without an address nothing is sent.
    rw [Run.run_bind, Run.run_ofRemote_error]
    exact ⟨failure, rfl, ⟨[], _, [], before, rfl, .nil before.quiet_refl,
      .unaddressed found before.quiet_refl⟩⟩
  | ok address =>
    rw [Run.run_bind, Run.run_ofRemote_ok]
    refine .note (carriesOut_exchange (.status url status) found ?_ ?_)
    · intro answer failure line fault
      obtain ⟨unset, wrong, rfl⟩ := Step.fault?_status_eq_some_iff.1 fault
      -- A fault is a wrong status, unless the answer says that the revision has the status.
      refine ⟨line.noted (.unexpectedStatus address 201 answer.status answer.body), ?_,
        line.quiet_noted _⟩
      simp only [interpretStatus, unset, Bool.false_eq_true, if_false, Run.run_bind,
        run_requireStatus, if_neg wrong]
    · intro answer line answered faultless
      have answered : (before.noted (.postingStatus status.state status.coverage)).reply.answer? =
        some answer := answered
      rw [(before.quiet_noted _).reply] at answered
      -- Without fault the answer either says so, whatever its status, or has the right status.
      by_cases set : mentions answer.body transitionRefusal = true
      · refine ⟨.alreadySet, line.noted (.statusAlreadySet status.state), ?_,
          line.quiet_noted _, ?_⟩
        · simp only [interpretStatus, set, if_true, Run.run_bind, Run.run_note, Run.run_pure,
            reduceCtorEq, if_false]
        · simp [answered, Answer.statusOutcome, set]
      · have good : answer.status = 201 :=
          (Step.fault?_status_eq_none_iff.1 faultless).resolve_left set
        refine ⟨.posted, line.noted (.statusPosted status.state), ?_, line.quiet_noted _, ?_⟩
        · simp only [interpretStatus, if_neg set, if_pos good, if_true, Run.run_bind,
            run_requireStatus, Run.run_note, Run.run_pure]
        · simp [answered, Answer.statusOutcome, set]

/-- Posting a comment is one step. -/
theorem carriesOut_postComment (token : Token) (url : String) (comment : Comment)
    (before : Line) :
    CarriesOut token [.comment url comment] (fun _ => True) before
      ((postComment token url comment).run before) := by
  unfold postComment
  refine .note (carriesOut_exchange (.comment url comment) rfl ?_ ?_)
  · intro answer failure line fault
    -- The only fault that is looked for is in the status.
    obtain ⟨wrong, rfl⟩ := statusFault?_eq_some_iff.1 fault
    refine ⟨line.noted (.unexpectedStatus url 201 answer.status answer.body), ?_,
      line.quiet_noted _⟩
    simp only [Run.run_bind, run_requireStatus, if_neg wrong]
  · intro answer line _ faultless
    have good : answer.status = 201 := statusFault?_eq_none_iff.1 faultless
    refine ⟨(), line.noted .commentPosted, ?_, line.quiet_noted _, trivial⟩
    simp only [Run.run_bind, run_requireStatus, if_pos good, Run.run_note]

/-- Posting comments takes one step for each, in their order. -/
theorem carriesOut_postComments (token : Token) (url : String) (comments : List Comment) :
    ∀ before : Line,
      CarriesOut token (comments.map (Step.comment url)) (fun _ => True) before
        ((postComments token url comments).run before) := by
  induction comments with
  -- No comments take no steps.
  | nil => exact fun before => .pure trivial
  | cons comment comments ih =>
    intro before
    -- The first comment is one step, and the others follow it.
    rw [postComments, List.map_cons, ← List.singleton_append]
    exact (carriesOut_postComment token url comment before).bind fun _ between _ _ => ih between

/-- The selection that a merge request and its commits lead to, whatever passes on the line. -/
def Report.selection (report : Report) (commits : CommitSet) (mergeRequest : MergeRequest) :
    Except Failure Selection :=
  ((report.select commits mergeRequest).run (.fresh .nowhere [])).1

/-- Selecting from issues decides on each of them in turn, and sends nothing. -/
theorem run_selectFrom (report : Report) (commits : CommitSet) (mergeRequest : MergeRequest)
    (issues : List Issue) :
    ∀ before : Line, ∃ after, before.Quiet after ∧
      (selectFrom report commits mergeRequest issues).run before =
        (((issues.mapM (report.decision commits mergeRequest)).map
          (·.foldr Selection.add ⟨[], 0⟩)).mapError .remote, after) := by
  induction issues with
  | nil => exact fun before => ⟨before, before.quiet_refl, rfl⟩
  | cons issue issues ih =>
    intro before
    rw [selectFrom, List.mapM_cons]
    cases decided : report.decision commits mergeRequest issue with
    -- The first issue that cannot be decided on ends the selection.
    | error failure => exact ⟨before, before.quiet_refl, rfl⟩
    | ok decision =>
      rw [Run.run_bind, Run.run_ofRemote_ok]
      -- The rest may start behind a note, since an issue that is passed over is noted.
      have rest : ∀ between : Line, before.Quiet between → ∃ after, before.Quiet after ∧
          (selectFrom report commits mergeRequest issues >>= fun selection =>
            pure (selection.add decision)).run between =
          (((issues.mapM (report.decision commits mergeRequest)).map
            fun decisions => (decision :: decisions).foldr Selection.add ⟨[], 0⟩).mapError .remote,
            after) := by
        intro between noted
        obtain ⟨after, quiet, run⟩ := ih between
        refine ⟨after, noted.trans quiet, ?_⟩
        rw [Run.run_bind, run]
        cases issues.mapM (report.decision commits mergeRequest) <;> rfl
      -- On the side of the decisions the first one is put in front of the others.
      have same : (do
          let decision ← Except.ok decision
          let decisions ← issues.mapM (report.decision commits mergeRequest)
          pure (decision :: decisions)).map (List.foldr Selection.add ⟨[], 0⟩) =
          (issues.mapM (report.decision commits mergeRequest)).map
            fun decisions => (decision :: decisions).foldr Selection.add ⟨[], 0⟩ := by
        cases issues.mapM (report.decision commits mergeRequest) <;> rfl
      rw [same]
      -- Only an issue that is passed over leaves a note.
      cases skipped : decision.skip? issue with
      | none => simpa only [skipped] using rest before before.quiet_refl
      | some event =>
        simpa only [skipped, Run.run_note_bind] using rest _ (before.quiet_noted event)

/-- The selection, decision by decision. -/
theorem Report.selection_eq (report : Report) (commits : CommitSet) (mergeRequest : MergeRequest) :
    report.selection commits mergeRequest =
      ((report.issues.mapM (report.decision commits mergeRequest)).map
        (·.foldr Selection.add ⟨[], 0⟩)).mapError .remote := by
  -- What is selected does not depend on the line, so that any will do to tell it.
  obtain ⟨after, _, run⟩ := run_selectFrom report commits mergeRequest report.issues
    (.fresh .nowhere [])
  rw [Report.selection, Report.select, run]

/-- Selecting sends nothing and depends on nothing that passed on the line. -/
theorem run_select (report : Report) (commits : CommitSet) (mergeRequest : MergeRequest)
    (before : Line) :
    ∃ after, before.Quiet after ∧
      (report.select commits mergeRequest).run before =
        (report.selection commits mergeRequest, after) := by
  rw [Report.selection_eq]
  exact run_selectFrom report commits mergeRequest report.issues before

end MergeNotes
