import MergeNotes.Proofs.Decoration.Origins
import MergeNotes.Proofs.Decoration.Selected
import MergeNotes.Proofs.Decoration.Tally
import MergeNotes.Proofs.Remote.Notes

/-! The log of a decoration: it says what was posted, which issues were passed over and why, how
many there were in the end, and what the server did wrong. -/

namespace MergeNotes

variable {report : Report} {commits : CommitSet} {mergeRequest : MergeRequest} {issue : Issue}

/-- What is noted of an issue that gets no comment on its line, and how much it matters. -/
inductive Report.PassesOver (report : Report) (commits : CommitSet) (issue : Issue) :
    Level → String → Prop where
  | unlocated (unplaced : issue.filePath? = none ∨ issue.line = none) :
      PassesOver report commits issue .debug "skipping issue without path or line"
  | unblamed {path : String} {line : UInt32} (hasPath : issue.filePath? = some path)
      (hasLine : issue.line = some line)
      (unknown : report.revision? issue.component line = none) :
      PassesOver report commits issue .debug
        ("skipping " ++ (path ++ ":" ++ decimal line.toNat) ++
          " since no changeset is recorded for it")
  | outside {path revision : String} {line : UInt32} (hasPath : issue.filePath? = some path)
      (hasLine : issue.line = some line)
      (revised : report.revision? issue.component line = some revision)
      (apart : revision ∉ commits.ids) :
      PassesOver report commits issue .info
        ("skipping " ++ (path ++ ":" ++ decimal line.toNat) ++ " since commit " ++ revision ++
          " does not belong to the MR")

/-- The issues that are neither closed nor resolved, and yet get no comment on their lines. -/
def Report.passedOver (report : Report) (commits : CommitSet) (issues : List Issue) : List Issue :=
  issues.filter fun issue => decide (issue.status ≠ .closed ∧ issue.status ≠ .resolved) &&
    !decide (report.qualifies commits issue)

theorem Report.passedOver_singleton :
    report.passedOver commits [issue] =
      if issue.status.isOpen && !decide (report.qualifies commits issue) then [issue] else [] := by
  rw [IssueStatus.isOpen_eq, Report.passedOver, List.filter_cons, List.filter_nil]

/-- Notes say of each issue that is passed over why it is, in the order of the issues. -/
def Report.NotesSkips (report : Report) (commits : CommitSet) (issues : List Issue)
    (notes : List Event) : Prop :=
  List.Forall₂ (fun issue event => report.PassesOver commits issue event.level event.message)
    (report.passedOver commits issues) (notes.filter Event.isSkip)

/-- What is noted of a decision accounts for no request. -/
theorem Decision.isIdle_of_skip? {decision : Decision} {event : Event}
    (noted : decision.skip? issue = some event) : event.isIdle = true := by
  cases decision with
  | comment comment => simp [Decision.skip?] at noted
  | notOpen => simp [Decision.skip?] at noted
  | noLocation | noBlame path line | outside path line revision =>
    rw [← Option.some.inj noted]
    rfl

/-- What is noted of the first issue comes before what is noted of the others. -/
theorem Report.NotesSkips.cons {issues : List Issue} {notes more : List Event}
    (first : report.NotesSkips commits [issue] notes)
    (others : report.NotesSkips commits issues more) :
    report.NotesSkips commits (issue :: issues) (notes ++ more) := by
  unfold Report.NotesSkips Report.passedOver at *
  rw [List.filter_append, ← List.singleton_append, List.filter_append]
  exact List.rel_append first others

/-- Of an issue that is decided on there is a note exactly when it is passed over. -/
theorem Report.notesSkips_of_decision {decision : Decision}
    (decided : report.decision commits mergeRequest issue = .ok decision) :
    report.NotesSkips commits [issue] (decision.skip? issue).toList := by
  unfold Report.decision at decided
  cases isOpen : issue.status.isOpen with
  | false =>
    rw [isOpen, Bool.not_false, if_pos rfl, Except.ok.injEq] at decided
    simp [Report.NotesSkips, Report.passedOver_singleton, isOpen, ← decided, Decision.skip?]
  | true =>
    rw [isOpen, Bool.not_true, if_neg Bool.false_ne_true] at decided
    -- An open issue is passed over when it does not qualify, and one note says so.
    have alone {event : Event} (other : ¬ report.qualifies commits issue)
        (skip : event.isSkip = true)
        (passes : report.PassesOver commits issue event.level event.message) :
        report.NotesSkips commits [issue] [event] := by
      simp [Report.NotesSkips, Report.passedOver_singleton, isOpen, other, skip, passes]
    split at decided
    · rename_i path line hasPath hasLine
      have known (qualifies : report.qualifies commits issue) : ∃ revision,
          report.revision? issue.component line = some revision ∧
            commits.contains revision = true := by
        obtain ⟨_, _, other, revision, _, same, found, inside⟩ := qualifies
        rw [hasLine, Option.some.injEq] at same
        exact ⟨revision, same ▸ found, inside⟩
      cases revised : report.revision? issue.component line with
      | none =>
        rw [revised] at decided
        rw [← Except.ok.inj decided]
        refine alone (fun qualifies => ?_) rfl (.unblamed hasPath hasLine revised)
        simp [revised] at known
        exact known qualifies
      | some revision =>
        rw [revised] at decided
        dsimp only at decided
        split at decided
        · rename_i inside
          obtain ⟨comment, _, same⟩ := exists_ok_of_map decided
          have qualifies : report.qualifies commits issue :=
            ⟨isOpen, path, line, revision, hasPath, hasLine, revised, inside⟩
          simp [Report.NotesSkips, Report.passedOver_singleton, qualifies, ← same, Decision.skip?]
        · rename_i apart
          have absent : revision ∉ commits.ids := by simpa [CommitSet.contains] using apart
          rw [← Except.ok.inj decided]
          refine alone (fun qualifies => ?_) rfl (.outside hasPath hasLine revised absent)
          obtain ⟨last, found, inside⟩ := known qualifies
          rw [revised, Option.some.injEq] at found
          exact apart (found ▸ inside)
    · rename_i unplaced
      rw [← Except.ok.inj decided]
      refine alone ?_ rfl (.unlocated ?_)
      · rintro ⟨_, path, line, _, hasPath, hasLine, _⟩
        exact unplaced path line hasPath hasLine
      · by_contra placed
        rw [not_or, ← ne_eq, ← ne_eq, Option.ne_none_iff_exists',
          Option.ne_none_iff_exists'] at placed
        obtain ⟨⟨path, hasPath⟩, line, hasLine⟩ := placed
        exact unplaced path line hasPath hasLine

/-- Selecting from issues leaves a note on each that is passed over, and no other note. -/
theorem tells_selectFrom (report : Report) (commits : CommitSet) (mergeRequest : MergeRequest)
    (issues : List Issue) :
    ∀ before : Line, Tells [] (fun _ notes => report.NotesSkips commits issues notes) before
      ((selectFrom report commits mergeRequest issues).run before) := by
  induction issues with
  | nil => exact fun before => .pure .nil
  | cons issue issues ih =>
    intro before
    rw [selectFrom]
    cases decided : report.decision commits mergeRequest issue with
    | error failure =>
      obtain ⟨_, _, detail, rfl⟩ := Report.qualifies_of_decision decided
      exact .fail rfl
    | ok decision =>
      rw [Run.run_bind, Run.run_ofRemote_ok]
      have first := Report.notesSkips_of_decision decided
      -- What is noted of the first issue comes before all that is noted of the others.
      cases skipped : decision.skip? issue with
      | none =>
        rw [skipped] at first
        simp only [skipped]
        refine (ih before).bind ?_
        intro selection between notes _ others
        exact .pure (by simpa using first.cons others)
      | some event =>
        rw [skipped] at first
        simp only [skipped]
        refine .note (.idle (Decision.isIdle_of_skip? skipped)) ?_
        refine (ih _).bind ?_
        intro selection between notes _ others
        exact .pure (by simpa using first.cons others)

/-- A status is noted as posted when it was created and the words for one that is set are
missing. -/
theorem tells_postStatus (token : Token) (url : String) (status : BuildStatus) (before : Line) :
    Tells [] Skipless before ((postStatus token url status).run before) := by
  unfold postStatus
  cases found : status.address url with
  | error failure =>
    rw [Run.run_bind, Run.run_ofRemote_error]
    refine .fail ?_
    unfold BuildStatus.address at found
    split at found
    · rw [← Except.error.inj found]
      rfl
    · simp at found
  | ok address =>
    rw [Run.run_bind, Run.run_ofRemote_ok]
    refine .note (.idle rfl) ?_
    refine .exchange fun answer asked answered => ?_
    have created := Reply.isCreated_of_answer answered
    unfold interpretStatus
    cases set : mentions answer.body transitionRefusal with
    | true =>
      simp only [if_true, bind_assoc, pure_bind, reduceCtorEq, if_false]
      refine .note (.single (by simp [Event.level]) ?_ ?_) (.pure rfl)
      · rw [isPostedComment, postsForm_requestFor]
        rfl
      · rw [isPostedStatus, created]
        -- Had it been created, its words would be those of the answer.
        by_cases good : answer.status = 201
        · rw [Reply.refusesTransition_eq answered good, set, Bool.not_true, Bool.and_false]
          rfl
        · rw [beq_eq_false_iff_ne.2 good, Bool.and_false, Bool.false_and]
          rfl
    | false =>
      simp only [Bool.false_eq_true, if_false, bind_assoc, pure_bind, if_true]
      refine .requireStatus (fun wrong => .uncreated _ ?_) fun good => ?_
      · rw [created, beq_eq_false_iff_ne.2 wrong]
      · rw [good] at created
        refine .note (.single (by simp [Event.level]) ?_ ?_) (.pure rfl)
        · rw [isPostedComment, postsForm_requestFor]
          rfl
        · rw [isPostedStatus, postsBare_requestFor, created,
            Reply.refusesTransition_eq answered good, set]
          rfl

/-- A comment is noted as posted when it was created. -/
theorem tells_postComment (token : Token) (url : String) (comment : Comment) (before : Line) :
    Tells [] Skipless before ((postComment token url comment).run before) := by
  unfold postComment
  refine .note (.idle rfl) ?_
  refine .exchange fun answer asked answered => ?_
  have created := Reply.isCreated_of_answer answered
  refine .requireStatus (fun wrong => .uncreated _ ?_) fun good => ?_
  · rw [created, beq_eq_false_iff_ne.2 wrong]
  · rw [good] at created
    refine .note (.single (by decide) ?_ ?_) (.pure rfl)
    · rw [isPostedComment, postsForm_requestFor, created]
      rfl
    · rw [isPostedStatus, postsBare_requestFor]
      rfl

/-- Posting comments passes over no issue. -/
theorem tells_postComments (token : Token) (url : String) (comments : List Comment) :
    ∀ before : Line, Tells [] Skipless before
      ((postComments token url comments).run before) := by
  induction comments with
  | nil => exact fun before => .pure rfl
  | cons comment comments ih =>
    intro before
    rw [postComments]
    refine (tells_postComment token url comment before).bind ?_
    intro _ between notes _ skipless
    refine (ih between).mono ?_
    intro _ more others
    simp only [Skipless, List.filter_append] at *
    rw [skipless, others, List.append_nil]

/-- The notes of a decoration that was done end with its numbers, and say of each issue that was
passed over why it was. -/
def Outcome.Closes (outcome : Outcome) (report : Report) (commits : CommitSet)
    (notes : List Event) : Prop :=
  notes.getLast? = some (.decorationDone outcome.commits outcome.inline outcome.skipped) ∧
    report.NotesSkips commits report.issues notes

/-- A note ahead that is not about an issue changes nothing about the end. -/
theorem Outcome.Closes.cons {outcome : Outcome} {notes : List Event} {event : Event}
    (closes : outcome.Closes report commits notes) (other : event.isSkip = false) :
    outcome.Closes report commits (event :: notes) := by
  obtain ⟨last, skips⟩ := closes
  refine ⟨by rw [List.getLast?_cons, last]; rfl, ?_⟩
  rwa [Report.NotesSkips, List.filter_cons_of_neg (by simp [other])]

/-- A decoration that is prepared takes the notes of its parts, one part after the other. -/
theorem Preparation.tells_work (prepared : Preparation) (report : Report) (before : Line) :
    Tells [] (fun outcome notes => outcome.Closes report (listedCommits before.replies) notes)
      before ((prepared.work report).run before) := by
  unfold Preparation.work
  refine (tells_fetchCommits _ _ _).bind ?_
  intro ids listed first fetched firstSkips
  have commits : CommitSet.ofList ids = listedCommits before.replies := by
    have carries := carriesOut_fetchCommits prepared.token prepared.endpoints.commits before
    rw [fetched] at carries
    exact carries.2
  rw [commits]
  refine (tells_fetchMergeRequest _ _ _).bind ?_
  intro mergeRequest read second _ secondSkips
  refine (tells_postStatus _ _ _ _).bind ?_
  intro status set third _ thirdSkips
  refine (tells_postComment _ _ _ _).bind ?_
  intro _ summarized fourth _ fourthSkips
  refine (tells_selectFrom _ _ _ _ _).bind ?_
  intro selection chosen fifth _ skips
  refine (tells_postComments _ _ _ _).bind ?_
  intro _ commented sixth _ sixthSkips
  refine .note (.idle rfl) (.pure ⟨?_, ?_⟩)
  · simp
  · simp only [Report.NotesSkips, Skipless, List.filter_append] at *
    simp [*, Event.isSkip]

/-- The notes of a decoration, from its start to its end. -/
theorem tells_decorate (access : Access) (report : Report) (before : Line) :
    Tells [] (fun outcome notes => outcome.Closes report (listedCommits before.replies) notes)
      before ((decorate access report).run before) := by
  unfold decorate findEndpoints noteEndpoints requireToken
  refine .note (.idle rfl) ?_
  cases Endpoints.ofReport report with
  | error failure => exact .fail rfl
  | ok endpoints =>
    cases BuildStatus.ofReport report access.root with
    | error failure =>
      exact .noted (.idle rfl) (.noted (.idle rfl) (.noted (.idle rfl) (.fail rfl)))
    | ok status =>
      cases Token.ofString? access.token with
      | none => exact .noted (.idle rfl) (.noted (.idle rfl) (.noted (.idle rfl) (.fail rfl)))
      | some token =>
        -- Behind the notes on the addresses comes the work that was prepared.
        have work := Preparation.tells_work ⟨endpoints, status, token⟩ report
          ((((before.noted (.decorationStarted report.projectKey report.mergeRequestId
            report.commit)).noted (.statusAddress endpoints.status)).noted
            (.commitsAddress endpoints.commits)).noted (.discussionsAddress endpoints.discussions))
        exact .noted (.idle rfl) (.noted (.idle rfl) (.noted (.idle rfl) (work.mono
          fun _ _ closes => (((closes.cons rfl).cons rfl).cons rfl).cons rfl)))

/-- A step that posts, but no form. -/
def Step.postsBare (step : Step) : Bool :=
  step.method == .post && step.form.isNone

/-- Of all steps only that with the status posts no form. -/
theorem Preparation.countP_postsBare_plan (prepared : Preparation) (report : Report)
    (replies : List Reply) : (prepared.plan report replies).countP Step.postsBare = 1 := by
  have pages : (prepared.pages replies).countP Step.postsBare = 0 := by
    refine List.countP_eq_zero.2 fun step member => ?_
    simp [Step.postsBare, method_of_mem_pageSteps step member]
  have comments : (prepared.comments report replies).countP Step.postsBare = 0 := by
    refine List.countP_eq_zero.2 fun step member => ?_
    obtain ⟨comment, rfl⟩ := prepared.exists_comment_of_mem member
    simp [Step.postsBare, Step.comment]
  rw [Preparation.plan, List.countP_append, List.countP_append, pages, comments]
  rfl

/-- The status is posted once at most. -/
theorem countP_postsBare_le {token : Token} {steps : List Step} {requests : List Request}
    (same : requests.map some = steps.map (Step.request? token)) :
    requests.countP Request.postsBare ≤ steps.countP Step.postsBare := by
  induction requests generalizing steps with
  | nil => simp
  | cons request requests ih =>
    obtain ⟨step, steps, rfl, sent, others⟩ := List.map_eq_cons_iff.1 same.symm
    rw [List.countP_cons, List.countP_cons]
    have bare : request.postsBare = step.postsBare := by
      obtain ⟨_, _, asked, _, _, rfl⟩ := Step.of_request? sent
      exact postsBare_requestFor token step.method asked step.form
    rw [bare]
    exact Nat.add_le_add_right (ih others.symm) _

/-- A request is the comment on the line of an issue. -/
def Request.IsCommentOn (request : Request) (prepared : Preparation) (refs : DiffRefs)
    (issue : Issue) : Prop :=
  ∃ comment url, comment.IsOn refs issue ∧ requestUrl prepared.endpoints.discussions = .ok url ∧
    request = requestFor prepared.token .post url (some comment)

/-- A request that posts is a comment if it has a form, and else it is the status. -/
def Request.IsPostOf (request : Request) (prepared : Preparation) : Prop :=
  (request.postsForm = true ∧ ∃ comment url,
      requestUrl prepared.endpoints.discussions = .ok url ∧
      request = requestFor prepared.token .post url (some comment)) ∨
    request.postsBare = true ∧ ∃ address url,
      prepared.status.address prepared.endpoints.status = .ok address ∧
      requestUrl address = .ok url ∧ request = requestFor prepared.token .post url none

/-- Of the steps of a plan only those with the status and with comments post. -/
theorem Preparation.isPostOf_of_mem {prepared : Preparation} {replies : List Reply} {step : Step}
    {request : Request} (member : step ∈ prepared.plan report replies)
    (sent : step.request? prepared.token = some request) (posts : request.method = .post) :
    request.IsPostOf prepared := by
  obtain ⟨same, address, url, addressed, requested, rfl⟩ := Step.of_request? sent
  have posted : step.method = .post := same.symm.trans posts
  have discussed : ∀ comment, step = .comment prepared.endpoints.discussions comment →
      (requestFor prepared.token step.method url step.form).IsPostOf prepared := by
    rintro comment rfl
    rw [Step.comment, Except.ok.injEq] at addressed
    exact .inl ⟨postsForm_requestFor .., comment, url, addressed ▸ requested, rfl⟩
  rw [Preparation.plan, List.append_assoc] at member
  rcases List.mem_append.1 member with page | member
  · -- Pages are read.
    rw [method_of_mem_pageSteps step page] at posted
    cases posted
  rcases List.mem_append.1 member with core | inline
  · simp only [Preparation.core, List.mem_cons, List.not_mem_nil, or_false] at core
    rcases core with rfl | rfl | rfl
    · cases posted
    · exact .inr ⟨postsBare_requestFor .., address, url, addressed, requested, rfl⟩
    · exact discussed _ rfl
  · obtain ⟨comment, same⟩ := prepared.exists_comment_of_mem inline
    exact discussed comment same

/-- What is posted in a decoration: comments, and the status, which is posted at most once. -/
theorem decorate_posts (access : Access) (report : Report) (reach : Reach)
    (replies : List Reply) :
    let after := ((decorate access report).run (.fresh reach replies)).2
    (∀ request ∈ after.requests, request.method = .post → ∃ prepared,
      prepare access report = .ok prepared ∧ request.IsPostOf prepared) ∧
      after.requests.countP Request.postsBare ≤ 1 := by
  intro after
  have ends := decorate_ends access report (.fresh reach replies)
  cases possible : prepare access report with
  | error failure =>
    -- Nothing is sent.
    rw [possible] at ends
    obtain ⟨unprepared, run, quiet⟩ := ends
    have unsent : after.requests = [] := by
      rw [show after = unprepared from congrArg Prod.snd run]
      exact quiet.requests
    simp [unsent]
  | ok prepared =>
    rw [possible] at ends
    have same := Preparation.Ends.sent ends
    refine ⟨fun request member posts => ⟨prepared, rfl, ?_⟩, ?_⟩
    · obtain ⟨step, taken, sent⟩ := List.mem_map.1 (same ▸ List.mem_map_of_mem member)
      exact Preparation.isPostOf_of_mem (List.mem_of_mem_take taken) sent posts
    · refine (countP_postsBare_le same).trans ?_
      rw [← prepared.countP_postsBare_plan report replies]
      exact (List.take_sublist _ _).countP_le

/-- Steps with comments on issues send requests that are the comments on these issues. -/
theorem Preparation.forall₂_isCommentOn {prepared : Preparation} {refs : DiffRefs}
    {issues : List Issue} {comments : List Comment} {posts : List Request}
    (comment : List.Forall₂ (fun issue comment => comment.IsOn refs issue) issues comments)
    (same : posts.map some = (comments.map (Step.comment prepared.endpoints.discussions)).map
      (Step.request? prepared.token)) :
    List.Forall₂ (fun issue post => post.IsCommentOn prepared refs issue) issues posts := by
  induction comment generalizing posts with
  | nil =>
    rw [List.map_eq_nil_iff.1 same]
    exact .nil
  | cons isOn _ ih =>
    obtain ⟨post, posts, rfl, sent, others⟩ := List.map_eq_cons_iff.1 same
    obtain ⟨⟨url, requested, whole⟩, _⟩ := Step.decode_of_comment sent.symm
    exact .cons ⟨_, url, isOn, requested, whole⟩ (ih others)

/-- The comments on lines that a decoration posts behind the summary are those on the issues that
qualify, in the order of the issues, and the other open issues are counted. -/
theorem decorate_comments {access : Access} {report : Report} {reach : Reach}
    {replies : List Reply} {outcome : Outcome} {after : Line}
    (done : (decorate access report).run (.fresh reach replies) = (.ok outcome, after)) :
    (∃ prepared refs others summary posts, prepare access report = .ok prepared ∧
      after.requests = others ++ summary :: posts ∧
      (∀ other ∈ others, other.postsForm = false) ∧
      List.Forall₂ (fun issue post => post.IsCommentOn prepared refs issue)
        (report.issues.filter (report.qualifies (listedCommits replies) ·)) posts) ∧
      outcome.skipped = (report.passedOver (listedCommits replies) report.issues).length := by
  obtain ⟨prepared, status, selection, possible, selected, said, rfl, same⟩ :=
    exists_plan_of_done done
  have comments : prepared.comments report replies =
      selection.comments.map (.comment prepared.endpoints.discussions) := by
    rw [Preparation.comments, selected]
  obtain ⟨mergeRequest, _, chosen⟩ := Option.map_eq_some_iff.1 selected
  have selects : report.Selects (listedCommits replies) mergeRequest report.issues
      (.ok selection) := by
    rw [← chosen, Report.selection_eq]
    exact Report.selects_of_decisions report.issues
  obtain ⟨_, commented, skipped⟩ := selects
  refine ⟨?_, ?_⟩
  · -- The plan is read from its end: the comments on lines, the summary, and what comes before.
    have plan : prepared.plan report replies =
        (prepared.pages replies ++ [.read MergeRequest.format (.ok prepared.endpoints.mergeRequest),
          .status prepared.endpoints.status prepared.status]) ++
          .comment prepared.endpoints.discussions (.summary report.summaryBody) ::
            selection.comments.map (.comment prepared.endpoints.discussions) := by
      rw [prepared.plan_eq, comments]
      simp
    rw [plan, List.map_append, List.map_cons] at same
    obtain ⟨others, behind, split, earlier, later⟩ := List.map_eq_append_iff.1 same
    obtain ⟨summary, posts, rfl, _, inline⟩ := List.map_eq_cons_iff.1 later
    refine ⟨prepared, mergeRequest.refs, others, summary, posts, possible, split, ?_,
      Preparation.forall₂_isCommentOn commented inline⟩
    intro other member
    obtain ⟨step, present, sent⟩ := List.mem_map.1 (earlier ▸ List.mem_map_of_mem member)
    obtain ⟨_, _, asked, _, _, rfl⟩ := Step.of_request? sent
    rw [postsForm_requestFor]
    rcases List.mem_append.1 present with page | core
    · rw [method_of_mem_pageSteps step page]
      rfl
    · simp only [List.mem_cons, List.not_mem_nil, or_false] at core
      rcases core with rfl | rfl <;> rfl
  · show selection.skipped = _
    rw [skipped, Report.passedOver, List.countP_eq_length_filter]
    simp only [IssueStatus.isOpen_eq]

/-- The last of the events is an error if the result is a failure that is noted as one, and no other
is an error. -/
def EndsInError (result : Except Failure Outcome) (events : List Event) : Prop :=
  match result with
  | .error (.remote (.unexpectedStatus url expected actual body)) =>
    ∃ earlier, events = earlier ++ [.unexpectedStatus url expected actual body] ∧
      ∀ event ∈ earlier, event.level ≠ .error
  | .error (.remote (.paginationLoop url)) =>
    ∃ earlier, events = earlier ++ [.linkRepeated url] ∧ ∀ event ∈ earlier, event.level ≠ .error
  | _ => ∀ event ∈ events, event.level ≠ .error

theorem endsInError_closing (result : Except Failure Outcome) {notes : List Event}
    (calm : ∀ event ∈ notes, event.level ≠ .error) :
    EndsInError result (notes ++ closing result) := by
  match result with
  | .error (.remote (.unexpectedStatus ..)) => exact ⟨notes, rfl, calm⟩
  | .error (.remote (.paginationLoop _)) => exact ⟨notes, rfl, calm⟩
  | .ok _ | .error (.analysis _) | .error (.remote .timeout) | .error (.remote (.network _))
  | .error (.remote (.undecodable _)) | .error (.remote (.invalidResponse _))
  | .error (.remote (.invalidHeader _)) | .error (.remote (.invalidUrl _)) =>
    -- No other end is noted.
    show ∀ event ∈ notes ++ [], event.level ≠ .error
    rwa [List.append_nil]

/-- The note on a failure says of nothing that it was posted. -/
theorem of_mem_closing {result : Except Failure Outcome} {event : Event}
    (member : event ∈ closing result) : event ≠ .commentPosted ∧ event.isStatusPosted = false := by
  cases result with
  | ok outcome => simp [closing] at member
  | error failure =>
    rw [closing, Option.mem_toList] at member
    unfold Failure.note? at member
    split at member
    · rw [← Option.some.inj member]
      exact ⟨by simp, rfl⟩
    · rw [← Option.some.inj member]
      exact ⟨by simp, rfl⟩
    · cases member

/-- What the notes on a line say of a decoration that ended there with a result: how many comments
and whether the status was posted; once it was done, why each open issue without a comment on its
line has none, and then the numbers; and what the server did wrong, and only that. -/
structure Logged (access : Access) (report : Report) (replies : List Reply)
    (result : Except Failure Outcome) (after : Line) : Prop where
  posts : ∀ request ∈ after.requests, request.method = .post → ∃ prepared,
    prepare access report = .ok prepared ∧ request.IsPostOf prepared
  once : after.requests.countP Request.postsBare ≤ 1
  comments : after.events.count .commentPosted = (after.passed replies).countP isPostedComment
  status : (∃ state, .statusPosted state ∈ after.events) ↔
    ∃ passed ∈ after.passed replies, isPostedStatus passed = true
  /-- The comments on lines come behind the summary. -/
  inline : ∀ outcome, result = .ok outcome → ∃ prepared refs others summary posts,
    prepare access report = .ok prepared ∧ after.requests = others ++ summary :: posts ∧
      (∀ other ∈ others, other.postsForm = false) ∧
      List.Forall₂ (fun issue post => post.IsCommentOn prepared refs issue)
        (report.issues.filter (report.qualifies (listedCommits replies) ·)) posts
  skips : ∀ outcome, result = .ok outcome →
    (after.events.filter Event.isSkip).length = outcome.skipped ∧
      List.Forall₂ (fun issue event =>
          report.PassesOver (listedCommits replies) issue event.level event.message)
        (report.passedOver (listedCommits replies) report.issues)
        (after.events.filter Event.isSkip)
  last : ∀ outcome, result = .ok outcome → after.events.getLast? =
    some (.decorationDone outcome.commits outcome.inline outcome.skipped)
  errors : EndsInError result after.events

/-- The log of a decoration tells what the decoration did, whatever the settings, the report and
the replies are. -/
theorem decorate_logged (access : Access) (report : Report) (reach : Reach)
    (replies : List Reply) :
    let ending := (decorate access report).run (.fresh reach replies)
    Logged access report replies ending.1 ending.2 := by
  intro ending
  obtain ⟨posts, once⟩ := decorate_posts access report reach replies
  obtain ⟨notes, passed, records, accounts, holds⟩ :=
    tells_decorate access report (.fresh reach replies)
  have events : ending.2.events = notes ++ closing ending.1 := records.events
  have traffic : ending.2.passed replies = passed := records.passed_eq
  rw [List.nil_append] at accounts
  -- With an outcome there is no failure to note.
  have whole : ∀ {outcome}, ending.1 = .ok outcome → ending.2.events = notes := by
    intro outcome done
    rw [events, done, closing, List.append_nil]
  have run : ∀ {outcome}, ending.1 = .ok outcome →
      (decorate access report).run (.fresh reach replies) = (.ok outcome, ending.2) :=
    fun done => Prod.ext done rfl
  refine ⟨posts, once, ?comments, ?status, ?inline, ?skips, ?last, ?errors⟩
  case comments =>
    have silent : (closing ending.1).count .commentPosted = 0 :=
      List.count_eq_zero.2 fun member => (of_mem_closing member).1 rfl
    rw [events, traffic, List.count_append, silent, accounts.comments, Nat.add_zero]
  case status =>
    have noted : (∃ state, .statusPosted state ∈ ending.2.events) ↔
        0 < ending.2.events.countP Event.isStatusPosted := by
      rw [List.countP_pos_iff]
      constructor
      · rintro ⟨state, member⟩
        exact ⟨_, member, rfl⟩
      · rintro ⟨event, member, posted⟩
        unfold Event.isStatusPosted at posted
        split at posted
        · exact ⟨_, member⟩
        · cases posted
    have silent : (closing ending.1).countP Event.isStatusPosted = 0 :=
      List.countP_eq_zero.2 fun event member => by simp [(of_mem_closing member).2]
    rw [noted, events, traffic, List.countP_append, silent, accounts.statuses, Nat.add_zero,
      List.countP_pos_iff]
  case inline => exact fun outcome done => (decorate_comments (run done)).1
  case skips =>
    intro outcome done
    have skips : report.NotesSkips (listedCommits replies) report.issues notes :=
      (holds outcome done).2
    rw [whole done]
    exact ⟨skips.length_eq.symm.trans (decorate_comments (run done)).2.symm, skips⟩
  case last =>
    intro outcome done
    rw [whole done]
    exact (holds outcome done).1
  case errors =>
    rw [events]
    exact endsInError_closing ending.1 accounts.calm

end MergeNotes
