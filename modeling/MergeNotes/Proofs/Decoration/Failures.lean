import MergeNotes.Proofs.Decoration.Places
import MergeNotes.Proofs.Decoration.Refusals

/-! Failures of a decoration: each kind of failure says which step it struck, and what the last
reply was. -/

namespace MergeNotes

/-! What the failures of a decoration say. -/

/-- Whether an issue lies where it would get a comment, if the merge request allowed for it. -/
def Report.qualifies (report : Report) (commits : CommitSet) (issue : Issue) : Prop :=
  issue.status.isOpen = true ∧ ∃ path line revision, issue.filePath? = some path ∧
    issue.line = some line ∧ report.revision? issue.component line = some revision ∧
    commits.contains revision = true

/-- Whether one of the three commits of a diff is missing. -/
def DiffRefs.lacks (refs : DiffRefs) : Prop :=
  refs.base = none ∨ refs.start = none ∨ refs.head = none

/-- A URL is the one to which the next request of a decoration would go. -/
def Preparation.IsNext (prepared : Preparation) (report : Report) (replies : List Reply)
    (after : Line) (url : Url) : Prop :=
  ∃ step address, (prepared.plan report replies)[after.requests.length]? = some step ∧
    step.address = .ok address ∧ requestUrl address = .ok url

/-- What is true of a prepared decoration that fails. -/
def Preparation.Explains (prepared : Preparation) (report : Report) (reach : Reach)
    (replies : List Reply) (after : Line) : Failure → Prop
  | .analysis _ | .remote (.invalidHeader _) => False
  | .remote .timeout =>
    (∃ url, prepared.IsNext report replies after url ∧ reach.connect url = .overdue) ∨
      ∃ count method url form,
        EndsIn replies after count (requestFor prepared.token method url form) .overdue
  | .remote (.network detail) =>
    (∃ url, prepared.IsNext report replies after url ∧ reach.connect url = .failed ∧
        .network detail = sendingFailed url) ∨
      ∃ count method url form reply,
        EndsIn replies after count (requestFor prepared.token method url form) reply ∧
        reply.answer? = none ∧ reply.receive url = .error (.network detail)
  | .remote (.unexpectedStatus url expected actual body) =>
    ∃ count request reply answer, EndsIn replies after count request reply ∧
      reply.answer? = some answer ∧ answer.status = actual ∧ answer.body = body ∧
      actual ≠ expected ∧
      (request.method = .get ∧ expected = 200 ∨ request.method = .post ∧ expected = 201) ∧
      (∃ asked form, requestUrl url = .ok asked ∧
        request = requestFor prepared.token request.method asked form) ∧
      (count = (prepared.pages replies).length + 1 → mentions body transitionRefusal = false)
  | .remote (.undecodable error) =>
    ∃ count request reply answer, EndsIn replies after count request reply ∧
      request.method = .get ∧ reply.answer? = some answer ∧ answer.status = 200 ∧
      (count < (prepared.pages replies).length ∧
          Commit.format.list.decodeLenient answer.body = .error error ∨
        count = (prepared.pages replies).length ∧
          MergeRequest.format.decodeLenient answer.body = .error error)
  | .remote (.paginationLoop url) =>
    ∃ count request reply, EndsIn replies after count request reply ∧
      count + 1 < (prepared.pages replies).length ∧ request.method = .get ∧
      reply.next? = some url ∧
      ∃ asked, requestUrl url = .ok asked ∧
        requestFor prepared.token .get asked none ∈ after.requests
  | .remote (.invalidUrl _) =>
    after.requests.length < (prepared.pages replies).length ∨
      after.requests.length = (prepared.pages replies).length + 1 ∧
        (∃ address, prepared.status.address prepared.endpoints.status = .ok address ∧
          Overlong address) ∨
      after.requests.length = (prepared.pages replies).length + 2 ∧
        Overlong prepared.endpoints.discussions
  | .remote (.invalidResponse _) =>
    after.requests.length = (prepared.pages replies).length + 3 ∧
      AllAccepted (prepared.pages replies ++ prepared.core report) replies ∧
      ∃ mergeRequest, prepared.mergeRequest? replies = some mergeRequest ∧
        mergeRequest.refs.lacks ∧
        ∃ issue ∈ report.issues, report.qualifies (listedCommits replies) issue

variable {prepared : Preparation} {report : Report} {reach : Reach} {replies : List Reply}
  {done rest : List Step} {step : Step}

/-! Where a course of a decoration breaks off. -/

section

variable {token : Token} {between after : Line} {failure : RemoteFailure}

/-- The commits were asked for when the whole listing was read. -/
theorem Preparation.requestable_of_pages
    (completes : Completes token done (.fresh reach replies) between)
    (whole : prepared.pages replies ⊆ done) :
    ∃ asked, requestUrl prepared.endpoints.commits = .ok asked := by
  obtain ⟨rest, head⟩ := pageSteps_head Commit.format [] prepared.endpoints.commits replies
  -- The first page is at the address of the commits, and it was read.
  have member : Step.page Commit.format [] prepared.endpoints.commits ∈ done :=
    whole (by rw [Preparation.pages, head]; exact List.mem_cons_self)
  obtain ⟨address, asked, addressed, requested⟩ := completes.requested member
  rw [Step.page_of_fresh (by simp), Step.read, Except.ok.injEq] at addressed
  exact ⟨asked, addressed ▸ requested⟩

/-- Only a page is not even tried, because it was read before. -/
theorem Preparation.explains_unaddressed
    (found : Endpoints.ofReport report = .ok prepared.endpoints)
    (place : prepared.At report replies done step)
    (completes : Completes prepared.token done (.fresh reach replies) between)
    (missing : step.address = .error failure) (quiet : between.Quiet after) :
    prepared.Explains report reach replies after (.remote failure) := by
  cases place with
  | @page done more step split =>
    obtain ⟨seen, next, rfl, _, leads, known⟩ := pageSteps_split split
    obtain ⟨member, rfl⟩ := Step.address_page_eq_error_iff.1 missing
    -- What was seen was an earlier page, so there is a step before this one.
    obtain ⟨earlier, visited⟩ := (known next member).resolve_left (by simp)
    obtain ⟨front, last, rfl⟩ : ∃ front last, done = front ++ [last] :=
      ⟨_, _, (List.dropLast_concat_getLast (List.ne_nil_of_mem visited)).symm⟩
    -- The page before was read, and its reply led back.
    obtain ⟨_, _, same, _⟩ := pageSteps_split
      (show pageSteps _ _ _ _ = front ++ last :: _ by
        rw [← Preparation.pages, split, List.append_assoc, List.singleton_append])
    obtain ⟨_, url, _, _, ⟨requests, reply⟩⟩ := completes.endsIn_last
    obtain ⟨address, asked, addressed, requested⟩ := completes.requested visited
    obtain ⟨request, present, shown⟩ := completes.mem_requests visited
    obtain ⟨_, rfl⟩ := Step.address_page_eq_ok_iff.1 addressed
    simp only [Step.request?, addressed, requested, Option.some.injEq] at shown
    -- That reply is the last one, and the earlier page left its request.
    refine ⟨front.length, _, _, ⟨quiet.requests ▸ requests, reply⟩, ?_, by rw [same]; rfl,
      leads front last rfl, asked, requested, ?_⟩
    · rw [split]
      simp only [List.length_append, List.length_cons, List.length_nil]
      omega
    · rw [quiet.requests]
      exact shown ▸ present
  -- Behind the pages every step has an address, that of the status because it could be read.
  | mergeRequest => simp [Step.read] at missing
  | status =>
    obtain ⟨asked, possible⟩ := prepared.requestable_of_pages completes
      (List.subset_append_left _ _)
    obtain ⟨address, addressed, _⟩ := (Endpoints.requestable found possible).2.1 prepared.status
    rw [Step.status, addressed] at missing
    simp at missing
  | summary => simp [Step.comment] at missing
  | inline earlier comment => simp [Step.comment] at missing

/-- A URL stands in the way of a request for a page; of later requests only its length can. -/
theorem Preparation.explains_refused (found : Endpoints.ofReport report = .ok prepared.endpoints)
    (place : prepared.At report replies done step)
    (completes : Completes prepared.token done (.fresh reach replies) between) {address : String}
    (addressed : step.address = .ok address) (refused : requestUrl address = .error failure)
    (quiet : between.Quiet after) :
    prepared.Explains report reach replies after (.remote failure) := by
  obtain ⟨detail, rfl⟩ := exists_invalidUrl_of_requestUrl refused
  -- Nothing was sent for the step, so there are as many requests as steps before it.
  have count : after.requests.length = done.length := by
    rw [quiet.requests, completes.length_requests]
  -- Wherever the pages are among these steps, a request for the commits was possible.
  have possible := fun whole => prepared.requestable_of_pages completes whole
  cases place with
  | @page done more step split =>
    refine .inl ?_
    rw [count, split, List.length_append, List.length_cons]
    omega
  | mergeRequest =>
    obtain ⟨asked, possible⟩ := possible (List.Subset.refl _)
    obtain ⟨url, requested⟩ := (Endpoints.requestable found possible).1
    rw [Step.read, Except.ok.injEq] at addressed
    rw [addressed, refused] at requested
    simp at requested
  | status =>
    obtain ⟨asked, possible⟩ := possible (List.subset_append_left _ _)
    obtain ⟨text, same, overlong⟩ := (Endpoints.requestable found possible).2.1 prepared.status
    rw [Step.status, same, Except.ok.injEq] at addressed
    refine .inr (.inl ⟨?_, text, same, overlong _ (addressed ▸ refused)⟩)
    rw [count, List.length_append]
    rfl
  | summary =>
    obtain ⟨asked, possible⟩ := possible (List.subset_append_left _ _)
    rw [Step.comment, Except.ok.injEq] at addressed
    refine .inr (.inr ⟨?_, (Endpoints.requestable found possible).2.2 _ (addressed ▸ refused)⟩)
    rw [count, List.length_append]
    rfl
  | inline earlier comment =>
    -- The summary went to the same address.
    obtain ⟨other, asked, same, requested⟩ := completes.requested
      (List.mem_append_left earlier (List.mem_append_right _
        (show Step.comment prepared.endpoints.discussions (.summary report.summaryBody) ∈
          prepared.core report from by simp [Preparation.core])))
    rw [Step.comment, Except.ok.injEq] at addressed same
    rw [← same, addressed, refused] at requested
    simp at requested

/-- A wrong status of the last answer explains the failure that quotes it. -/
theorem Preparation.explains_unexpectedStatus {count expected : Nat} {method : Method} {url : Url}
    {form : Option Comment} {reply : Reply} {answer : Answer} {address : String}
    (last : EndsIn replies after count (requestFor prepared.token method url form) reply)
    (asked : requestUrl address = .ok url) (answered : reply.answer? = some answer)
    (wrong : answer.status ≠ expected)
    (fits : method = .get ∧ expected = 200 ∨ method = .post ∧ expected = 201)
    (unset : count = (prepared.pages replies).length + 1 →
      mentions answer.body transitionRefusal = false) :
    prepared.Explains report reach replies after
      (.remote (.unexpectedStatus address expected answer.status answer.body)) :=
  ⟨count, _, reply, answer, last, answered, rfl, rfl, wrong, fits, ⟨url, form, asked, rfl⟩, unset⟩

/-- A fault of what was to be read is a wrong status or a body that cannot be decoded. -/
theorem Preparation.explains_read {α : Type} {format : Json.Format α} {count : Nat} {url : Url}
    {form : Option Comment} {reply : Reply} {answer : Answer} {address : String}
    {asked : Except RemoteFailure String}
    (last : EndsIn replies after count (requestFor prepared.token .get url form) reply)
    (requested : requestUrl address = .ok url) (answered : reply.answer? = some answer)
    (fault : (Step.read format asked).fault? address answer = some failure)
    (early : count ≤ (prepared.pages replies).length)
    (reads : ∀ error, format.decodeLenient answer.body = .error error →
      count < (prepared.pages replies).length ∧
          Commit.format.list.decodeLenient answer.body = .error error ∨
        count = (prepared.pages replies).length ∧
          MergeRequest.format.decodeLenient answer.body = .error error) :
    prepared.Explains report reach replies after (.remote failure) := by
  -- An answer to a reading is at fault for its status or, if that is right, for its body.
  rcases Step.fault?_read_eq_some_iff.1 fault with ⟨wrong, rfl⟩ | ⟨good, error, body, rfl⟩
  · exact explains_unexpectedStatus last requested answered wrong (.inl ⟨rfl, rfl⟩)
      fun _ => by omega
  · exact ⟨count, _, reply, answer, last, rfl, answered, good, reads error body⟩

/-- A faulty answer has a wrong status, or is not what was to be read. -/
theorem Preparation.explains_faulty (place : prepared.At report replies done step)
    (completes : Completes prepared.token done (.fresh reach replies) between) {address : String}
    {url : Url} {answer : Answer} (sends : step.Sends prepared.token address url between after)
    (answered : between.reply.answer? = some answer)
    (fault : step.fault? address answer = some failure) :
    prepared.Explains report reach replies after (.remote failure) := by
  -- The request of the step is the last one, and its reply is the one that is faulty.
  have last := completes.endsIn sends
  have asked := sends.requested
  cases place with
  | @page done more step split =>
    have before : done.length < (prepared.pages replies).length := by
      rw [split, List.length_append, List.length_cons]
      omega
    obtain ⟨seen, next, rfl, _⟩ := pageSteps_split split
    exact explains_read last asked answered fault (by omega) fun error body => .inl ⟨before, body⟩
  | mergeRequest =>
    exact explains_read last asked answered fault (Nat.le_refl _) fun error body => .inr ⟨rfl, body⟩
  | status =>
    obtain ⟨unset, wrong, rfl⟩ := Step.fault?_status_eq_some_iff.1 fault
    exact explains_unexpectedStatus last asked answered wrong (.inr ⟨rfl, rfl⟩) fun _ => unset
  | summary =>
    -- More than the status was posted before a comment.
    obtain ⟨wrong, rfl⟩ := statusFault?_eq_some_iff.1 fault
    refine explains_unexpectedStatus last asked answered wrong (.inr ⟨rfl, rfl⟩) fun count => ?_
    simp at count
  | inline earlier comment =>
    obtain ⟨wrong, rfl⟩ := statusFault?_eq_some_iff.1 fault
    refine explains_unexpectedStatus last asked answered wrong (.inr ⟨rfl, rfl⟩) fun count => ?_
    simp [Preparation.core] at count

/-- Whatever a course breaks off with is explained by where it does. -/
theorem Preparation.explains_of_breaksOff
    (found : Endpoints.ofReport report = .ok prepared.endpoints)
    (broken : BreaksOff prepared.token (prepared.plan report replies) (.fresh reach replies) failure
      after) : prepared.Explains report reach replies after (.remote failure) := by
  obtain ⟨done, step, rest, between, split, completes, breaks⟩ := broken
  -- Each way to break off is explained by the place of the step in the plan.
  have place := prepared.at_of_plan split
  cases breaks with
  | unaddressed missing quiet => exact explains_unaddressed found place completes missing quiet
  | refused addressed refused quiet =>
    exact explains_refused found place completes addressed refused quiet
  | @unreached address url _ addressed requested apart quiet =>
    have next : prepared.IsNext report replies after url := by
      refine ⟨step, address, ?_, addressed, requested⟩
      rw [quiet.requests, completes.length_requests, split]
      simp
    rw [completes.reach] at apart ⊢
    -- The connection took too long, or it failed.
    rcases Reach.cases_of_apart apart with ⟨late, failed⟩ | ⟨refused, failed⟩
    · rw [failed]
      exact .inl ⟨url, next, late⟩
    · rw [failed]
      exact .inl ⟨url, next, refused, rfl⟩
  | unanswered sends unread =>
    have last := completes.endsIn sends
    obtain ⟨⟨rfl, late⟩ | ⟨detail, rfl⟩, silent⟩ := Reply.receive_eq_error unread
    · exact .inr ⟨_, _, _, _, late ▸ last⟩
    · exact .inr ⟨_, _, _, _, _, last, silent, unread⟩
  | faulty sends answered fault => exact explains_faulty place completes sends answered fault

end

/-! Where a selection fails. -/

/-- A comment on a line is only refused for a commit that is missing. -/
theorem Comment.lacks_of_inline {body path name : String} {refs : DiffRefs} {line : UInt32}
    (refused : Comment.inline body refs path line = .error name) : refs.lacks := by
  -- The three commits are required in this order.
  obtain ⟨base, start, head⟩ := refs
  rcases base with _ | base
  · exact .inl rfl
  rcases start with _ | start
  · exact .inr (.inl rfl)
  rcases head with _ | head
  · exact .inr (.inr rfl)
  · -- Nothing is missing, so nothing is refused.
    simp [Comment.inline, Comment.inline.required, bind, Except.bind] at refused

/-- Only an issue that would get a comment makes a selection fail. -/
theorem Report.qualifies_of_decision {report : Report} {commits : CommitSet}
    {mergeRequest : MergeRequest} {issue : Issue} {failure : RemoteFailure}
    (failed : report.decision commits mergeRequest issue = .error failure) :
    report.qualifies commits issue ∧ mergeRequest.refs.lacks ∧
      ∃ detail, failure = .invalidResponse detail := by
  -- All that can fail in a decision comes behind the tests on the issue.
  unfold Report.decision at failed
  split at failed
  · simp at failed
  · rename_i isOpen
    split at failed
    · rename_i path line hasPath hasLine
      cases revised : report.revision? issue.component line with
      | none => simp [revised] at failed
      | some revision =>
        rw [revised] at failed
        dsimp only at failed
        split at failed
        · rename_i inside
          cases made : Comment.inline issue.body mergeRequest.refs path line with
          | ok comment => simp [inlineComment, made, Except.map] at failed
          | error name =>
            simp only [inlineComment, made, Except.map, Except.error.injEq] at failed
            exact ⟨⟨by simpa using isOpen, path, line, revision, hasPath, hasLine, revised, inside⟩,
              Comment.lacks_of_inline made, _, failed.symm⟩
        · simp at failed
    · simp at failed

/-- A selection that fails is explained by the merge request and an issue. -/
theorem Preparation.explains_of_selection {failure : Failure} {after : Line}
    (completes : Completes prepared.token (prepared.plan report replies) (.fresh reach replies)
      after)
    (failed : prepared.selection? report replies = some (.error failure)) :
    prepared.Explains report reach replies after failure := by
  -- Where nothing is selected, the plan ends with the summary.
  have core : prepared.plan report replies = prepared.pages replies ++ prepared.core report := by
    rw [Preparation.plan, Preparation.comments, failed, List.append_nil]
  obtain ⟨mergeRequest, known, selected⟩ := Option.map_eq_some_iff.1 failed
  rw [Report.selection_eq] at selected
  cases decided : report.issues.mapM (report.decision (listedCommits replies) mergeRequest) with
  | ok decisions => simp [decided, Except.map, Except.mapError] at selected
  | error reason =>
    rw [decided] at selected
    change Except.error (Failure.remote reason) = _ at selected
    rw [Except.error.injEq] at selected
    -- Some issue could not be decided on.
    obtain ⟨issue, member, refused⟩ := exists_error_of_mapM decided
    obtain ⟨qualifies, lacks, detail, rfl⟩ := Report.qualifies_of_decision refused
    rw [← selected]
    rw [core] at completes
    refine ⟨?_, completes.allAccepted, mergeRequest, known, lacks, issue, member, qualifies⟩
    rw [completes.length_requests, List.length_append]
    rfl

/-- The addresses of a prepared decoration are those of its report. -/
theorem ofReport_of_prepare {access : Access}
    (possible : prepare access report = .ok prepared) :
    Endpoints.ofReport report = .ok prepared.endpoints :=
  (prepare_eq_ok_iff.1 possible).1

/-- A decoration that cannot be prepared lacks something in the analysis or in the token. -/
theorem prepare_eq_error {access : Access} {failure : Failure}
    (impossible : prepare access report = .error failure) :
    (∃ reason, failure = .analysis reason) ∨
      failure = .remote (.invalidHeader Token.headerName) := by
  -- The three ways to fail, in their order.
  unfold prepare at impossible
  split at impossible
  · rw [Except.error.injEq] at impossible
    exact .inl ⟨_, impossible.symm⟩
  · split at impossible
    · rw [Except.error.injEq] at impossible
      exact .inl ⟨_, impossible.symm⟩
    · split at impossible
      · rw [Except.error.injEq] at impossible
        exact .inr impossible.symm
      · simp at impossible

/-- A decoration that fails either lacks something before it sends anything, or has sent the
requests at the beginning of its plan, of which its failure says how they ended. -/
theorem decorate_failure_explained {access : Access} {report : Report} {reach : Reach}
    {replies : List Reply} {failure : Failure} {after : Line}
    (failed : (decorate access report).run (.fresh reach replies) = (.error failure, after)) :
    (∀ reason, prepare access report = .error reason →
      failure = reason ∧ after.requests = [] ∧
        ((∃ lack, failure = .analysis lack) ∨
          failure = .remote (.invalidHeader Token.headerName))) ∧
    ∀ prepared, prepare access report = .ok prepared →
      after.requests.map some =
          ((prepared.plan report replies).take after.requests.length).map
            (Step.request? prepared.token) ∧
        prepared.Explains report reach replies after failure := by
  constructor
  · -- What cannot be prepared has sent nothing, and fails with the reason.
    intro reason impossible
    have ends := decorate_ends access report (.fresh reach replies)
    rw [impossible] at ends
    obtain ⟨still, run, quiet⟩ := ends
    obtain ⟨same, rfl⟩ := Prod.mk.inj (failed.symm.trans run)
    rw [Except.error.injEq] at same
    subst same
    exact ⟨rfl, quiet.requests, prepare_eq_error impossible⟩
  · intro prepared possible
    -- What is prepared ends as its plan does, and of the three ways two are failures.
    have ends := ends_of_prepare possible (.fresh reach replies)
    rw [failed] at ends
    cases ends with
    | broken broken =>
      obtain ⟨taken, beginning, _, ⟨sent, requests, same⟩, _⟩ := broken.traffic
      have requests : after.requests = sent := requests
      rw [requests]
      exact ⟨requests_of_beginning beginning same,
        prepared.explains_of_breaksOff (ofReport_of_prepare possible) broken⟩
    | unselected completes unselected =>
      obtain ⟨_, sent, requests, same⟩ := completes.traffic
      have requests : after.requests = sent := requests
      rw [requests]
      exact ⟨requests_of_beginning (List.prefix_refl _) same,
        prepared.explains_of_selection completes unselected⟩

/-- A report without issues about merge request 7 of project "p". -/
def bareReport (coverage : String) : Report where
  commit := "c0ffee"
  mergeRequestId := "7"
  projectKey := "k"
  properties := .ofList [("gitlab.api.url", "http://h/api"), ("gitlab.repository.slug", "p")]
  gate := .passed
  conditions := [⟨"new_coverage", .passed, some coverage⟩]
  issues := []
  blame := .empty
  summary := none

/-- What decorating it is prepared with. -/
def barePreparation (coverage : String) : Preparation where
  endpoints :=
    { status := "http://h/api/projects/p/statuses/c0ffee"
      mergeRequest := "http://h/api/projects/p/merge_requests/7"
      commits := "http://h/api/projects/p/merge_requests/7/commits"
      discussions := "http://h/api/projects/p/merge_requests/7/discussions" }
  status := ⟨"success", dashboardUrl "http://s" "k" "7", coverage⟩
  token := ⟨"t", by decide⟩

theorem prepare_bare (coverage : String) :
    prepare ⟨"t", "http://s"⟩ (bareReport coverage) = .ok (barePreparation coverage) := by
  -- The addresses do not depend on the coverage.
  have found : Endpoints.ofReport (bareReport "") = .ok (barePreparation "").endpoints := by
    decide +kernel
  have found : Endpoints.ofReport (bareReport coverage) = .ok _ := found
  rw [prepare, found]
  rfl

/-- The replies for a merge request without commits. -/
def bareReplies : List Reply :=
  [.answer 200 [] (Utf8.bytes "[]") true, .answer 200 [] (Utf8.bytes "\x7b\"iid\":7\x7d") true]

/-- Whether a request can be sent can be computed. -/
theorem Step.isSendable_of_connects {reach : Reach} {step : Step} {address : String}
    (addressed : step.address = .ok address)
    (connects : (requestUrl address).map (reach.connects ·) = .ok true) :
    step.IsSendable reach := by
  cases requested : requestUrl address with
  | error failure => simp [requested, Except.map] at connects
  | ok url =>
    -- An address that leads to a server is one that a request is made for.
    rw [requested, Except.map, Except.ok.injEq] at connects
    exact ⟨address, url, addressed, requested, connects⟩

theorem bare_readings (coverage : String) : (barePreparation coverage).readings bareReplies =
    [.page Commit.format [] "http://h/api/projects/p/merge_requests/7/commits",
      .read MergeRequest.format (.ok "http://h/api/projects/p/merge_requests/7")] :=
  rfl

theorem bare_accepted (coverage : String) :
    AllAccepted ((barePreparation coverage).readings bareReplies) bareReplies := by
  rw [bare_readings]
  refine ⟨⟨_, ⟨200, [], "[]"⟩, rfl, ?_, ?_⟩, ⟨_, ⟨200, [], "\x7b\"iid\":7\x7d"⟩, rfl, ?_, ?_⟩,
    trivial⟩
  all_goals decide +kernel

theorem bare_sendable (coverage : String) :
    ∀ step ∈ (barePreparation coverage).readings bareReplies, step.IsSendable .plain := by
  rw [bare_readings]
  intro step member
  rcases List.mem_cons.1 member with rfl | member
  · refine Step.isSendable_of_connects rfl ?_
    decide +kernel
  · rw [List.mem_singleton.1 member]
    refine Step.isSendable_of_connects rfl ?_
    decide +kernel

/-- With a coverage that is too long for a URL, the commits and the merge request are read, and
then the status is refused. -/
theorem refused_of_long_coverage {coverage : String}
    (long : longestRequestUrl < coverage.toList.length) :
    ∃ detail after, (decorate ⟨"t", "http://s"⟩ (bareReport coverage)).run
        (.fresh .plain bareReplies) = (.error (.remote (.invalidUrl detail)), after) ∧
      after.requests.map (·.url) = ["http://h/api/projects/p/merge_requests/7/commits",
        "http://h/api/projects/p/merge_requests/7"] := by
  have ends := ends_of_prepare (prepare_bare coverage) (.fresh .plain bareReplies)
  -- From here on it matters only how the run ends.
  generalize (decorate ⟨"t", "http://s"⟩ (bareReport coverage)).run
    (.fresh .plain bareReplies) = ending at ends ⊢
  have read : Url.parse "http://h/api/projects/p/statuses/c0ffee" = .ok
      ⟨"http".toList, some ⟨none, .name "h".toList, none⟩,
        .rooted ["api".toList, "projects".toList, "p".toList, "statuses".toList, "c0ffee".toList],
        none, none⟩ := by decide +kernel
  obtain ⟨address, addressed, overlong⟩ :=
    @BuildStatus.overlong_of_coverage (barePreparation coverage).status _ _ read (by decide) long
  obtain ⟨⟨detail, refused⟩, requests⟩ := ends.refused_of_overlong (bare_accepted coverage)
    (bare_sendable coverage) addressed overlong
  refine ⟨detail, _, Prod.ext refused rfl, ?_⟩
  -- The requests that were sent are those of the two steps that read.
  have urls := congrArg (List.map fun request? => request?.elim "" Request.url) requests
  rw [List.map_map, List.map_map] at urls
  rw [bare_readings] at urls
  refine urls.trans ?_
  change List.map (_ ∘ Step.request? (barePreparation "").token) _ = _
  decide +kernel

/-- Where the commits are not found, the last request is the one for them. -/
theorem decorate_failure_not_found :
    ∃ after, (decorate ⟨"t", "http://s"⟩ (bareReport "9")).run
        (.fresh .plain [.answer 404 [] (Utf8.bytes "gone") true]) =
          (.error (.remote (.unexpectedStatus "http://h/api/projects/p/merge_requests/7/commits"
            200 404 "gone")), after) ∧
      (barePreparation "9").Explains (bareReport "9") .plain
        [.answer 404 [] (Utf8.bytes "gone") true] after (.remote (.unexpectedStatus
          "http://h/api/projects/p/merge_requests/7/commits" 200 404 "gone")) := by
  have result : ((decorate ⟨"t", "http://s"⟩ (bareReport "9")).run
      (.fresh .plain [.answer 404 [] (Utf8.bytes "gone") true])).1 =
        .error (.remote (.unexpectedStatus "http://h/api/projects/p/merge_requests/7/commits"
          200 404 "gone")) := by decide +kernel
  -- Only the result is computed; the line behind it stays as it is.
  rcases failed : (decorate ⟨"t", "http://s"⟩ (bareReport "9")).run
    (.fresh .plain [.answer 404 [] (Utf8.bytes "gone") true]) with ⟨outcome, after⟩
  rw [failed] at result
  have result : outcome = _ := result
  subst result
  exact ⟨after, rfl, ((decorate_failure_explained failed).2 _ (prepare_bare "9")).2⟩

/-- A coverage of 70000 characters is refused only after the merge request was read. -/
theorem long_coverage_refused_after_reading :
    ∃ detail after, (decorate ⟨"t", "http://s"⟩
        (bareReport (String.ofList (List.replicate 70000 'a')))).run (.fresh .plain bareReplies) =
          (.error (.remote (.invalidUrl detail)), after) ∧
      after.requests.map (·.url) = ["http://h/api/projects/p/merge_requests/7/commits",
        "http://h/api/projects/p/merge_requests/7"] := by
  refine refused_of_long_coverage ?_
  rw [String.toList_ofList, List.length_replicate]
  decide

end MergeNotes
