import MergeNotes.Proofs.Decoration.Commits
import MergeNotes.Proofs.Decoration.Plan
import MergeNotes.Proofs.Result
import MergeNotes.Proofs.Text.Form

/-! What the numbers in the outcome of a decoration count: commits in the replies, issues in the
report, and comments among the requests. -/

namespace MergeNotes

open Json (Format)

variable {report : Report} {commits : CommitSet} {mergeRequest : MergeRequest}

/-- How many issues a decision adds to those that are selected or passed over. -/
def Decision.weight : Decision → Nat
  | .notOpen => 0
  | .comment _ | .noLocation | .noBlame .. | .outside .. => 1

/-- Each decision but one adds to either number. -/
theorem Selection.total_add (decision : Decision) (selection : Selection) :
    (selection.add decision).comments.length + (selection.add decision).skipped =
      decision.weight + (selection.comments.length + selection.skipped) := by
  cases decision with
  | comment comment =>
    simp only [Selection.add, List.length_cons, Decision.weight]
    omega
  | notOpen => simp only [Selection.add, Decision.weight, Nat.zero_add]
  | noLocation | noBlame path line | outside path line revision =>
    simp only [Selection.add, Decision.weight]
    omega

/-- A decision counts exactly when the issue is open. -/
theorem Report.weight_of_decision {issue : Issue} {decision : Decision}
    (decided : report.decision commits mergeRequest issue = .ok decision) :
    decision.weight = if issue.status.isOpen then 1 else 0 := by
  rw [Report.decision] at decided
  cases isOpen : issue.status.isOpen with
  | false =>
    rw [isOpen, Bool.not_false, if_pos rfl, Except.ok.injEq] at decided
    rw [← decided]
    rfl
  | true =>
    rw [isOpen, Bool.not_true, if_neg Bool.false_ne_true] at decided
    -- Whatever else is decided of it, it is not that the issue is not open.
    rw [if_pos rfl]
    split at decided
    · split at decided
      · -- Nobody is known to have written the line.
        rw [← Except.ok.inj decided]
        rfl
      · -- Its last commit is known, and is in the merge request or not.
        split at decided
        · obtain ⟨comment, _, same⟩ := exists_ok_of_map decided
          rw [← same]
          rfl
        · rw [← Except.ok.inj decided]
          rfl
    · -- It has no place.
      rw [← Except.ok.inj decided]
      rfl

/-- Every open issue is either selected or passed over. -/
theorem Report.total_of_decisions {issues : List Issue} {decisions : List Decision}
    (decided : issues.mapM (report.decision commits mergeRequest) = .ok decisions) :
    (decisions.foldr Selection.add ⟨[], 0⟩).comments.length +
        (decisions.foldr Selection.add ⟨[], 0⟩).skipped =
      issues.countP (·.status.isOpen) := by
  induction issues generalizing decisions with
  | nil =>
    rw [List.mapM_nil] at decided
    rw [← Except.ok.inj decided]
    rfl
  | cons issue issues ih =>
    -- Selecting went well for the first issue and for the others, whose numbers are added up.
    rw [List.mapM_cons] at decided
    obtain ⟨first, head, decided⟩ := exists_ok_of_bind decided
    obtain ⟨rest, tail, decided⟩ := exists_ok_of_bind decided
    rw [← Except.ok.inj decided, List.foldr_cons, Selection.total_add,
      Report.weight_of_decision head, ih tail, List.countP_cons]
    omega

/-- The open issues of a report are those that are selected and those that are passed over. -/
theorem Report.total_of_selection {selection : Selection}
    (selected : report.selection commits mergeRequest = .ok selection) :
    selection.comments.length + selection.skipped = report.openCount := by
  rw [Report.selection_eq] at selected
  cases decided : report.issues.mapM (report.decision commits mergeRequest) with
  | error failure => simp [decided, Except.map, Except.mapError] at selected
  | ok decisions =>
    rw [decided, Except.map, Except.mapError, Except.ok.injEq] at selected
    rw [← selected, Report.openCount]
    exact Report.total_of_decisions decided

/-- The ids of the commits on a page. -/
def Reply.commitIds (reply : Reply) : List String :=
  ((reply.resource? Commit.format.list).getD []).map (·.id)

/-- The items of a listing are those of the replies that its pages take. -/
theorem listedItems_eq {α : Type} (format : Format α) (replies : List Reply) :
    ∀ (visited : List String) (url : String), listedItems format replies =
      (replies.take (pageSteps format visited url replies).length).flatMap fun reply =>
        (reply.resource? format.list).getD [] := by
  induction replies with
  | nil => exact fun _ _ => rfl
  | cons reply replies ih =>
    intro visited url
    rw [listedItems, pageSteps, List.length_cons, List.take_succ_cons, List.flatMap_cons]
    -- The listing goes on as one of its own, where the first page says that it does.
    cases reply.next? with
    | none => rfl
    | some next => exact congrArg _ (ih (url :: visited) next)

/-- A listing only reads. -/
theorem method_of_mem_pageSteps {α : Type} {format : Format α} {replies : List Reply} :
    ∀ {visited : List String} {url : String}, ∀ step ∈ pageSteps format visited url replies,
      step.method = .get := by
  induction replies with
  | nil =>
    intro visited url step member
    rw [List.mem_singleton.1 member]
    rfl
  | cons reply replies ih =>
    intro visited url step member
    rw [pageSteps] at member
    rcases List.mem_cons.1 member with rfl | later
    · rfl
    · cases follows : reply.next? with
      | none => simp [follows] at later
      | some next => exact ih step (by simpa only [follows] using later)

/-- The commits are as many as there are different ids on the pages. -/
theorem Preparation.size_listedCommits (prepared : Preparation) (replies : List Reply) :
    (listedCommits replies).size =
      ((replies.take (prepared.pages replies).length).flatMap Reply.commitIds).toFinset.card := by
  rw [listedCommits, CommitSet.size_ofList, Preparation.pages,
    listedItems_eq Commit.format replies [] prepared.endpoints.commits, List.map_flatMap]
  rfl

/-- The requests of a plan that was followed to its end: those that read, the one with the status,
and those with comments. -/
theorem Preparation.requests_of_plan {prepared : Preparation} {replies : List Reply}
    {selection : Selection} {sent : List Request}
    (selected : prepared.selection? report replies = some (.ok selection))
    (same : sent.map some = (prepared.plan report replies).map (Step.request? prepared.token)) :
    ∃ readings status summary comments, sent = readings ++ status :: summary :: comments ∧
      readings.length = (prepared.pages replies).length + 1 ∧
      (∀ reading ∈ readings, reading.method = .get) ∧ status.method = .post ∧
      comments.length = selection.comments.length ∧
      (Step.comment prepared.endpoints.discussions (.summary report.summaryBody)).request?
        prepared.token = some summary ∧
      ∀ request ∈ comments, ∃ comment,
        (Step.comment prepared.endpoints.discussions comment).request? prepared.token =
          some request := by
  have comments : prepared.comments report replies =
      selection.comments.map (.comment prepared.endpoints.discussions) := by
    rw [Preparation.comments, selected]
  rw [prepared.plan_eq, comments, List.map_append] at same
  -- One request stands for each step, so that the parts of the plan are those of the requests.
  obtain ⟨pages, others, rfl, paged, same⟩ := List.map_eq_append_iff.1 same
  simp only [List.cons_append, List.nil_append, List.map_cons] at same
  obtain ⟨reading, others, rfl, read, same⟩ := List.map_eq_cons_iff.1 same
  obtain ⟨status, others, rfl, set, same⟩ := List.map_eq_cons_iff.1 same
  obtain ⟨summary, comments, rfl, summarized, same⟩ := List.map_eq_cons_iff.1 same
  refine ⟨pages ++ [reading], status, summary, comments, by simp, ?_, ?_, ?_, ?_,
    summarized.symm, ?_⟩
  · have lengths := congrArg List.length paged
    rw [List.length_map, List.length_map] at lengths
    rw [List.length_append, lengths, List.length_singleton, Preparation.pages]
  · intro request member
    rcases List.mem_append.1 member with early | last
    · -- A request among the first ones is that of a page.
      obtain ⟨step, present, found⟩ := List.mem_map.1 (paged ▸ List.mem_map_of_mem early)
      rw [(Step.of_request? found).1]
      exact method_of_mem_pageSteps step present
    · rw [List.mem_singleton.1 last, (Step.of_request? read.symm).1]
      rfl
  · rw [(Step.of_request? set.symm).1]
    rfl
  · have lengths := congrArg List.length same
    rwa [List.length_map, List.length_map, List.length_map] at lengths
  · intro request member
    obtain ⟨step, present, found⟩ := List.mem_map.1 (same ▸ List.mem_map_of_mem member)
    obtain ⟨comment, _, rfl⟩ := List.mem_map.1 present
    exact ⟨comment, found⟩

/-- Only what is closed or resolved is not open. -/
theorem IssueStatus.isOpen_eq (status : IssueStatus) :
    status.isOpen = decide (status ≠ .closed ∧ status ≠ .resolved) := by
  cases status <;> rfl

/-- The summary that is made up where the report has none of its own. -/
def Report.madeUpSummary (report : Report) (count : Nat) : String :=
  "Analysis of `" ++ report.projectKey ++ "`: quality gate " ++
    (if report.gate = .passed then "passed" else "failed") ++ ", " ++ decimal count ++
      " open issue" ++ (if count = 1 then "" else "s")

theorem Report.summaryBody_eq {report : Report} (made : report.summary = none) :
    report.summaryBody = report.madeUpSummary report.openCount := by
  unfold Report.summaryBody Report.madeUpSummary
  generalize report.openCount = count
  simp only [made]
  cases report.gate with
  | passed => simp only [if_true]
  | failed => simp only [reduceCtorEq, if_false]

/-- An outcome says the same as the replies, the report, and the requests in three parts: those
that read commits and merge request, the one with the status, and the comments behind it. -/
structure Outcome.Tallies (outcome : Outcome) (prepared : Preparation) (report : Report)
    (replies : List Reply) (readings : List Request) (status : Request) (posts : List Request) :
    Prop where
  reads : ∀ reading ∈ readings, reading.method = .get
  sets : status.method = .post
  /-- All readings but the last are pages of the listing. -/
  commits : outcome.commits =
    ((replies.take (readings.length - 1)).flatMap Reply.commitIds).toFinset.card
  said : ∃ answer, ((replies.drop readings.length).headD .silence).answer? = some answer ∧
    (outcome.status = .alreadySet ↔ "Cannot transition status".toList <:+: answer.body.toList)
  issues : outcome.inline + outcome.skipped = report.issues.countP fun issue =>
    decide (issue.status ≠ .closed ∧ issue.status ≠ .resolved)
  /-- The summary comes before a comment for each selected issue. -/
  comments : posts.length = outcome.inline + 1
  discusses : ∀ post ∈ posts, ∃ url comment,
    requestUrl prepared.endpoints.discussions = .ok url ∧
      post = requestFor prepared.token .post url (some comment)
  summary : report.summary = none → ∃ summary, posts.head? = some summary ∧
    Form.decode summary.body.toList =
      [("body", report.madeUpSummary (outcome.inline + outcome.skipped))]

/-- The words of an answer decide what it means for the status, and nothing else does. -/
theorem Answer.statusOutcome_eq_alreadySet_iff {answer : Answer} :
    answer.statusOutcome = .alreadySet ↔ mentions answer.body transitionRefusal = true := by
  rw [Answer.statusOutcome]
  by_cases set : mentions answer.body transitionRefusal = true
  · simp [set]
  · simp [set]

/-- The form of a comment is read as the fields of the comment. -/
theorem Step.decode_of_comment {token : Token} {url : String} {comment : Comment}
    {request : Request} (found : (Step.comment url comment).request? token = some request) :
    (∃ asked, requestUrl url = .ok asked ∧ request = requestFor token .post asked (some comment)) ∧
      Form.decode request.body.toList = comment.fields := by
  obtain ⟨_, address, asked, addressed, requested, rfl⟩ := Step.of_request? found
  rw [Step.comment, Except.ok.injEq] at addressed
  refine ⟨⟨asked, addressed ▸ requested, rfl⟩, ?_⟩
  rw [requestFor, String.toList_ofList]
  exact Form.decode_encode comment.fields

/-- A decoration that was done was prepared, and its requests are those of its plan. -/
theorem exists_plan_of_done {access : Access} {report : Report} {reach : Reach}
    {replies : List Reply} {outcome : Outcome} {after : Line}
    (done : (decorate access report).run (.fresh reach replies) = (.ok outcome, after)) :
    ∃ prepared status selection, prepare access report = .ok prepared ∧
      prepared.selection? report replies = some (.ok selection) ∧
      prepared.statusOutcome? replies = some status ∧
      outcome = ⟨status, (listedCommits replies).size, selection.comments.length,
        selection.skipped⟩ ∧
      after.requests.map some =
        (prepared.plan report replies).map (Step.request? prepared.token) := by
  have ends := decorate_ends access report (.fresh reach replies)
  rw [done] at ends
  cases possible : prepare access report with
  | error failure =>
    -- Unprepared, it would have failed.
    rw [possible] at ends
    obtain ⟨_, failed, _⟩ := ends
    cases failed
  | ok prepared =>
    rw [possible] at ends
    cases ends with
    | @done status selection after completes selected said =>
      obtain ⟨_, sent, requests, same⟩ := completes.traffic
      -- Nothing was sent on the line before, so that these requests are all there are.
      have whole : after.requests = sent := requests
      exact ⟨prepared, status, selection, rfl, selected, said, rfl, whole ▸ same⟩

/-- The numbers of a decoration that was done, of which none is computed from another, all say what
the replies, the report and the requests say. -/
theorem decorate_tally {access : Access} {report : Report} {reach : Reach} {replies : List Reply}
    {outcome : Outcome} {after : Line}
    (done : (decorate access report).run (.fresh reach replies) = (.ok outcome, after)) :
    ∃ prepared readings status posts, prepare access report = .ok prepared ∧
      after.requests = readings ++ status :: posts ∧
      outcome.Tallies prepared report replies readings status posts := by
  obtain ⟨prepared, status, selection, possible, selected, said, rfl, same⟩ :=
    exists_plan_of_done done
  obtain ⟨readings, posted, summary, comments, requests, count, reads, sets, length, summarized,
    commented⟩ := Preparation.requests_of_plan selected same
  obtain ⟨mergeRequest, _, chosen⟩ := Option.map_eq_some_iff.1 selected
  have total := Report.total_of_selection chosen
  refine ⟨prepared, readings, posted, summary :: comments, possible, requests,
    ⟨reads, sets, ?commits, ?said, ?issues, ?comments, ?discusses, ?summary⟩⟩
  case commits =>
    -- The reading that is no page is that of the merge request.
    rw [count, Nat.add_sub_cancel]
    exact prepared.size_listedCommits replies
  case said =>
    -- The reply behind all that was read is the one to the status.
    obtain ⟨answer, answered, outcome⟩ := Option.map_eq_some_iff.1 said
    refine ⟨answer, count ▸ answered, ?_⟩
    rw [← outcome, Answer.statusOutcome_eq_alreadySet_iff, mentions_iff]
    rfl
  case issues =>
    show selection.comments.length + selection.skipped = _
    rw [total, Report.openCount]
    simp only [IssueStatus.isOpen_eq]
  case comments => rw [List.length_cons, length]
  case discusses =>
    intro post member
    -- The summary and the others are sent to the same place.
    have discussed : ∃ comment,
        (Step.comment prepared.endpoints.discussions comment).request? prepared.token =
          some post := by
      rcases List.mem_cons.1 member with rfl | member
      · exact ⟨_, summarized⟩
      · exact commented post member
    obtain ⟨comment, found⟩ := discussed
    obtain ⟨⟨asked, requested, whole⟩, _⟩ := Step.decode_of_comment found
    exact ⟨asked, comment, requested, whole⟩
  case summary =>
    intro made
    refine ⟨summary, rfl, ?_⟩
    -- The number in the summary is that of the open issues, before any of them is decided on.
    rw [(Step.decode_of_comment summarized).2, Comment.summary, total, Report.summaryBody_eq made]

/-- A report with three issues, two of them open, and one of these on a line of a commit. -/
def talliedReport : Report where
  commit := "c"
  mergeRequestId := "7"
  projectKey := "k"
  properties := .ofList [("gitlab.api.url", "http://h"), ("gitlab.repository.slug", "p")]
  gate := .failed
  conditions := [⟨"new_coverage", .failed, none⟩]
  issues := [⟨"a", some "a.c", some 3, .reopened, none, "m", none⟩,
    ⟨"a", some "a.c", some 3, .closed, none, "m", none⟩, ⟨"a", none, none, .opened, none, "m", none⟩]
  blame := .ofList [("a", .ofList [(3, "c")])]
  summary := none

/-- Two pages with two commits, one of them twice; then the merge request, the words for a status
that is set, and two comments that are taken. -/
def talliedReplies : List Reply :=
  [.answer 200 [Utf8.bytes "<http://h>; rel=\"next\""] (Utf8.bytes "[[\"c\"],[\"d\"]]") true,
    .answer 200 [] (Utf8.bytes "[[\"c\"]]") true,
    .answer 200 [] (Utf8.bytes "[7,null,null,[\"b\",\"s\",\"h\"]]") true,
    .answer 400 [] (Utf8.bytes "Cannot transition status") true,
    .answer 201 [] [] true, .answer 201 [] [] true]

/-- The numbers for that report and those replies. -/
theorem decorate_tally_of_two :
    ∃ after prepared readings status posts,
      (decorate ⟨"t", ""⟩ talliedReport).run (.fresh .plain talliedReplies) =
        (.ok ⟨.alreadySet, 2, 1, 1⟩, after) ∧
      prepare ⟨"t", ""⟩ talliedReport = .ok prepared ∧
      after.requests = readings ++ status :: posts ∧
      Outcome.Tallies ⟨.alreadySet, 2, 1, 1⟩ prepared talliedReport talliedReplies readings status
        posts := by
  have known : ((decorate ⟨"t", ""⟩ talliedReport).run
      (.fresh .plain talliedReplies)).1.toOption = some ⟨.alreadySet, 2, 1, 1⟩ := by
    decide +kernel
  rcases ended : (decorate ⟨"t", ""⟩ talliedReport).run
    (.fresh .plain talliedReplies) with ⟨failure | outcome, after⟩
  · rw [ended] at known
    simp [Except.toOption] at known
  · rw [ended] at known
    obtain rfl : outcome = ⟨.alreadySet, 2, 1, 1⟩ := Option.some.inj known
    obtain ⟨prepared, readings, status, posts, possible, requests, tallies⟩ := decorate_tally ended
    exact ⟨after, prepared, readings, status, posts, rfl, possible, requests, tallies⟩

end MergeNotes
