import MergeNotes.Proofs.Decoration.Steps

/-! The plan of a decoration: the requests that the settings, the report and the replies lead to.
What is sent is always a beginning of it. -/

namespace MergeNotes

/-- What a decoration has before it sends anything. -/
structure Preparation where
  endpoints : Endpoints
  status : BuildStatus
  token : Token

/-- All of a decoration that can fail without a server. -/
def prepare (access : Access) (report : Report) : Except Failure Preparation :=
  match Endpoints.ofReport report with
  | .error failure => .error (.analysis failure)
  | .ok endpoints =>
    match BuildStatus.ofReport report access.root with
    | .error failure => .error (.analysis failure)
    | .ok status =>
      match Token.ofString? access.token with
      | none => .error (.remote (.invalidHeader Token.headerName))
      | some token => .ok ⟨endpoints, status, token⟩

/-- What is prepared is the addresses, the status and the token, if there are all three. -/
theorem prepare_eq_ok_iff {access : Access} {report : Report} {prepared : Preparation} :
    prepare access report = .ok prepared ↔
      Endpoints.ofReport report = .ok prepared.endpoints ∧
        BuildStatus.ofReport report access.root = .ok prepared.status ∧
        Token.ofString? access.token = some prepared.token := by
  obtain ⟨endpoints, status, token⟩ := prepared
  unfold prepare
  cases Endpoints.ofReport report with
  | error failure => simp
  | ok found =>
    cases BuildStatus.ofReport report access.root with
    | error failure => simp
    | ok said =>
      cases Token.ofString? access.token with
      | none => simp
      | some kept => simp

namespace Preparation

/-- The steps that read the commits. -/
def pages (prepared : Preparation) (replies : List Reply) : List Step :=
  pageSteps Commit.format [] prepared.endpoints.commits replies

/-- The steps between the commits and the comments on lines. -/
def core (prepared : Preparation) (report : Report) : List Step :=
  [.read MergeRequest.format (.ok prepared.endpoints.mergeRequest),
    .status prepared.endpoints.status prepared.status,
    .comment prepared.endpoints.discussions (.summary report.summaryBody)]

/-- The merge request, which the reply behind those with the commits holds. -/
def mergeRequest? (prepared : Preparation) (replies : List Reply) : Option MergeRequest :=
  ((replies.drop (prepared.pages replies).length).headD .silence).resource? MergeRequest.format

/-- What the reply behind that with the merge request says of the status. -/
def statusOutcome? (prepared : Preparation) (replies : List Reply) : Option StatusOutcome :=
  ((replies.drop ((prepared.pages replies).length + 1)).headD .silence).answer?.map
    Answer.statusOutcome

/-- What is selected, once the merge request is known. -/
def selection? (prepared : Preparation) (report : Report) (replies : List Reply) :
    Option (Except Failure Selection) :=
  (prepared.mergeRequest? replies).map (report.selection (listedCommits replies))

/-- The steps that comment on lines, of which there are none when nothing could be selected. -/
def comments (prepared : Preparation) (report : Report) (replies : List Reply) : List Step :=
  match prepared.selection? report replies with
  | some (.ok selection) => selection.comments.map (.comment prepared.endpoints.discussions)
  | _ => []

/-- All the steps that a decoration comes to. -/
def plan (prepared : Preparation) (report : Report) (replies : List Reply) : List Step :=
  prepared.pages replies ++ prepared.core report ++ prepared.comments report replies

/-- What a decoration does once it is prepared. -/
def work (prepared : Preparation) (report : Report) : Run Outcome := do
  let commits := CommitSet.ofList (← fetchCommits prepared.token prepared.endpoints.commits)
  let mergeRequest ← fetchMergeRequest prepared.token prepared.endpoints.mergeRequest
  let status ← postStatus prepared.token prepared.endpoints.status prepared.status
  postComment prepared.token prepared.endpoints.discussions (.summary report.summaryBody)
  let selection ← report.select commits mergeRequest
  postComments prepared.token prepared.endpoints.discussions selection.comments
  note (.decorationDone commits.size selection.comments.length selection.skipped)
  pure ⟨status, commits.size, selection.comments.length, selection.skipped⟩

end Preparation

/-- A decoration is prepared first, which sends nothing, and then does its work. -/
theorem run_decorate (access : Access) (report : Report) (before : Line) :
    ∃ between, before.Quiet between ∧ (decorate access report).run before =
      match prepare access report with
      | .error failure => (.error failure, between)
      | .ok prepared => (prepared.work report).run between := by
  unfold decorate findEndpoints noteEndpoints requireToken prepare
  -- The three ways to fail come in the same order in both.
  cases Endpoints.ofReport report with
  | error failure => exact ⟨_, before.quiet_noted _, rfl⟩
  | ok endpoints =>
    have still := (((before.quiet_noted
      (.decorationStarted report.projectKey report.mergeRequestId report.commit)).trans
      (Line.quiet_noted _ (.statusAddress endpoints.status))).trans
      (Line.quiet_noted _ (.commitsAddress endpoints.commits))).trans
      (Line.quiet_noted _ (.discussionsAddress endpoints.discussions))
    cases BuildStatus.ofReport report access.root with
    | error failure => exact ⟨_, still, rfl⟩
    | ok status =>
      cases Token.ofString? access.token with
      | none => exact ⟨_, still, rfl⟩
      | some token =>
        refine ⟨_, still, ?_⟩
        simp only [Preparation.work, Run.run_bind, Run.run_ofAnalysis_ok, Run.run_note,
          Run.run_pure]

/-- How work on a prepared decoration ends. -/
inductive Preparation.Ends (prepared : Preparation) (report : Report) (before : Line) :
    Except Failure Outcome × Line → Prop where
  | broken {failure : RemoteFailure} {after : Line}
      (broken : BreaksOff prepared.token (prepared.plan report before.replies) before failure
        after) :
      Ends prepared report before (.error (.remote failure), after)
  | unselected {failure : Failure} {after : Line}
      (completes : Completes prepared.token (prepared.plan report before.replies) before after)
      (unselected : prepared.selection? report before.replies = some (.error failure)) :
      Ends prepared report before (.error failure, after)
  | done {status : StatusOutcome} {selection : Selection} {after : Line}
      (completes : Completes prepared.token (prepared.plan report before.replies) before after)
      (selected : prepared.selection? report before.replies = some (.ok selection))
      (said : prepared.statusOutcome? before.replies = some status) :
      Ends prepared report before
        (.ok ⟨status, (listedCommits before.replies).size, selection.comments.length,
          selection.skipped⟩, after)

/-- The plan, step by step behind the pages. -/
theorem Preparation.plan_eq (prepared : Preparation) (report : Report) (replies : List Reply) :
    prepared.plan report replies = prepared.pages replies ++
      ([.read MergeRequest.format (.ok prepared.endpoints.mergeRequest)] ++
        ([.status prepared.endpoints.status prepared.status] ++
          ([.comment prepared.endpoints.discussions (.summary report.summaryBody)] ++
            prepared.comments report replies))) := by
  simp only [Preparation.plan, Preparation.core, List.append_assoc, List.cons_append,
    List.nil_append]

/-- Work on a prepared decoration follows the plan, and ends in one of three ways. -/
theorem Preparation.ends_work (prepared : Preparation) (report : Report) (before : Line) :
    prepared.Ends report before ((prepared.work report).run before) := by
  have plan := prepared.plan_eq report before.replies
  unfold Preparation.work
  -- The commits come first, and in what follows they are known.
  rcases (carriesOut_fetchCommits prepared.token prepared.endpoints.commits
    before).cases_bind _ with
    ⟨failure, after, run, broken⟩ | ⟨ids, listed, run, pages, commits⟩
  · rw [run]
    exact .broken (plan ▸ broken.append _)
  rw [run, commits]
  -- Then comes the merge request, from the reply behind the pages.
  rcases (carriesOut_fetchMergeRequest prepared.token prepared.endpoints.mergeRequest
    listed).cases_bind _ with
    ⟨failure, after, run, broken⟩ | ⟨mergeRequest, read, run, first, found⟩
  · rw [run]
    exact .broken (plan ▸ pages.breaksOff (broken.append _))
  rw [run]
  have known : prepared.selection? report before.replies =
      some (report.selection (listedCommits before.replies) mergeRequest) := by
    rw [Line.reply, pages.traffic.1] at found
    rw [Preparation.selection?, Preparation.mergeRequest?, Preparation.pages, found,
      Option.map_some]
  -- The status and the summary are posted whatever the merge request says.
  rcases (carriesOut_postStatus prepared.token prepared.endpoints.status prepared.status
    read).cases_bind _ with ⟨failure, after, run, broken⟩ | ⟨status, set, run, second, answered⟩
  · rw [run]
    exact .broken (plan ▸ pages.breaksOff (first.breaksOff (broken.append _)))
  rw [run]
  have said : prepared.statusOutcome? before.replies = some status := by
    rw [Line.reply, first.traffic.1, pages.traffic.1, List.drop_drop] at answered
    exact answered
  rcases (carriesOut_postComment prepared.token prepared.endpoints.discussions
    (.summary report.summaryBody) set).cases_bind _ with
    ⟨failure, after, run, broken⟩ | ⟨_, summarized, run, third, _⟩
  · rw [run]
    exact .broken (plan ▸ pages.breaksOff (first.breaksOff (second.breaksOff (broken.append _))))
  rw [run, Run.run_bind]
  -- The selection sends nothing; when it fails, the plan ends with the summary.
  obtain ⟨chosen, quiet, run⟩ := run_select report (listedCommits before.replies) mergeRequest
    summarized
  rw [run]
  cases selected : report.selection (listedCommits before.replies) mergeRequest with
  | error failure =>
    rw [selected] at known
    have none_left : prepared.comments report before.replies = [] := by
      rw [Preparation.comments, known]
    rw [none_left] at plan
    exact .unselected (plan ▸ pages.append (first.append (second.append (third.append
      (.nil quiet))))) known
  | ok selection =>
    rw [selected] at known
    have left : prepared.comments report before.replies =
        selection.comments.map (.comment prepared.endpoints.discussions) := by
      rw [Preparation.comments, known]
    rw [left] at plan
    dsimp only
    rcases (carriesOut_postComments prepared.token prepared.endpoints.discussions
      selection.comments chosen).cases_bind _ with
      ⟨failure, after, run, broken⟩ | ⟨_, commented, run, last, _⟩
    · rw [run]
      exact .broken (plan ▸ pages.breaksOff (first.breaksOff (second.breaksOff
        (third.breaksOff ((Completes.nil quiet).breaksOff broken)))))
    · rw [run, Run.run_note_bind]
      exact .done (plan ▸ pages.append (first.append (second.append (third.append
        ((last.quiet (commented.quiet_noted _)).of_quiet quiet))))) known said

theorem Preparation.Ends.of_quiet {prepared : Preparation} {report : Report}
    {before other : Line} {ending : Except Failure Outcome × Line} (quiet : before.Quiet other)
    (ends : prepared.Ends report other ending) : prepared.Ends report before ending := by
  -- Notes use up no replies, so the plan is the same.
  have same := quiet.replies
  cases ends with
  | broken broken => exact .broken (same ▸ (Completes.nil quiet).breaksOff broken)
  | unselected completes unselected =>
    exact .unselected (same ▸ completes.of_quiet quiet) (same ▸ unselected)
  | done completes selected said =>
    rw [same] at completes selected said ⊢
    exact .done (completes.of_quiet quiet) selected said

/-- A decoration fails unprepared, or ends as its plan does. -/
theorem decorate_ends (access : Access) (report : Report) (before : Line) :
    match prepare access report with
    | .error failure =>
      ∃ after, (decorate access report).run before = (.error failure, after) ∧ before.Quiet after
    | .ok prepared => prepared.Ends report before ((decorate access report).run before) := by
  -- The notes before the first request change nothing of what is sent.
  obtain ⟨between, quiet, run⟩ := run_decorate access report before
  rw [run]
  cases prepare access report with
  | error failure => exact ⟨between, rfl, quiet⟩
  | ok prepared => exact (prepared.ends_work report between).of_quiet quiet

/-- What is prepared ends as its plan does. -/
theorem ends_of_prepare {access : Access} {report : Report} {prepared : Preparation}
    (possible : prepare access report = .ok prepared) (before : Line) :
    prepared.Ends report before ((decorate access report).run before) := by
  have ends := decorate_ends access report before
  rwa [possible] at ends

/-- The plan has three steps besides those for pages and lines. -/
theorem Preparation.plan_length (prepared : Preparation) {report : Report} {replies : List Reply}
    {selection : Selection} (selected : prepared.selection? report replies = some (.ok selection)) :
    (prepared.plan report replies).length =
      (prepared.pages replies).length + 3 + selection.comments.length := by
  simp only [Preparation.plan, Preparation.core, Preparation.comments, selected, List.length_append,
    List.length_cons, List.length_nil, List.length_map]

/-- A decoration sends the requests at the beginning of one plan, each once and each after an
accepted reply to the one before, and it succeeds exactly when it comes to the end of the plan with
all replies accepted and the comments selected. -/
theorem decorate_follows_plan (access : Access) (report : Report) (reach : Reach)
    (replies : List Reply) :
    let ending := (decorate access report).run (.fresh reach replies)
    match prepare access report with
    | .error failure => ending.1 = .error failure ∧ ending.2.requests = []
    | .ok prepared =>
      ∃ taken, taken <+: prepared.plan report replies ∧
        ending.2.requests.map some = taken.map (Step.request? prepared.token) ∧
        ending.2.replies = replies.drop taken.length ∧
        AllAccepted taken.dropLast replies ∧
        ((∃ outcome, ending.1 = .ok outcome) ↔
          taken = prepared.plan report replies ∧
            AllAccepted (prepared.plan report replies) replies ∧
            ∃ selection, prepared.selection? report replies = some (.ok selection)) ∧
        ∀ outcome, ending.1 = .ok outcome →
          ending.2.requests.length = (prepared.pages replies).length + 3 + outcome.inline := by
  intro ending
  have ends := decorate_ends access report (.fresh reach replies)
  cases possible : prepare access report with
  | error failure =>
    rw [possible] at ends
    obtain ⟨after, run, quiet⟩ := ends
    rw [show ending = _ from run]
    exact ⟨rfl, quiet.requests⟩
  | ok prepared =>
    rw [possible] at ends
    change prepared.Ends report (.fresh reach replies) ending at ends
    clear_value ending
    cases ends with
    | broken broken =>
      obtain ⟨taken, beginning, left, ⟨sent, requests, same⟩, accepted, unfinished⟩ :=
        broken.traffic
      -- What breaks off has not sent all, or has got a reply that is not accepted.
      refine ⟨taken, beginning, ?_, left, accepted, ?_, by simp⟩
      · rw [requests]
        exact same
      · constructor
        · simp
        · exact fun ⟨all, every, _⟩ => absurd ⟨all, every⟩ unfinished
    | unselected completes unselected =>
      obtain ⟨left, sent, requests, same⟩ := completes.traffic
      have accepted := completes.allAccepted
      refine ⟨_, List.prefix_refl _, ?_, left, accepted.dropLast, ?_, by simp⟩
      · rw [requests]
        exact same
      · -- All replies are accepted, and yet nothing is selected.
        constructor
        · simp
        · rintro ⟨_, _, selection, selected⟩
          have contrary := unselected.symm.trans selected
          simp at contrary
    | done completes selected =>
      obtain ⟨left, sent, requests, same⟩ := completes.traffic
      have accepted := completes.allAccepted
      refine ⟨_, List.prefix_refl _, ?_, left, accepted.dropLast,
        ⟨fun _ => ⟨rfl, accepted, _, selected⟩, fun _ => ⟨_, rfl⟩⟩, ?_⟩
      · rw [requests]
        exact same
      · rintro outcome done
        rw [Except.ok.injEq] at done
        -- There is one request for each step of the plan, and its length is known.
        have lengths := congrArg List.length same
        rw [List.length_map, List.length_map, prepared.plan_length selected] at lengths
        rw [requests, ← done]
        exact lengths

end MergeNotes
