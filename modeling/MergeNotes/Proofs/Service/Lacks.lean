import MergeNotes.Proofs.Decoration.Failures
import MergeNotes.Proofs.Service.Passage

/-! What a decoration can lack by itself: the first thing that is missing is what it fails with,
before it sends anything, and where nothing is missing no later failure says so. -/

namespace MergeNotes

/-- What can be wrong with a report or a token, whatever the server does. -/
inductive Lack where
  /-- The report does not name the root of the API. -/
  | apiUrl
  /-- The report does not name the project. -/
  | project
  /-- The root of the API is no URL. -/
  | baseUrl
  /-- The quality gate has no condition on the coverage. -/
  | coverage
  /-- No header can carry the token. -/
  | token
  deriving DecidableEq, Repr

namespace Lack

/-- All that can be wrong, in the order in which it is looked for. -/
def inOrder : List Lack :=
  [.apiUrl, .project, .baseUrl, .coverage, .token]

/-- What is looked for earlier. -/
def earlier (lack : Lack) : List Lack :=
  inOrder.takeWhile (· ≠ lack)

/-- Whether something is wrong with a report and a token. -/
def Holds (report : Report) (token : String) : Lack → Prop
  | .apiUrl => report.properties.get? "gitlab.api.url" = none
  | .project => report.properties.get? "gitlab.repository.slug" = none
  | .baseUrl => ∃ apiUrl reason, report.properties.get? "gitlab.api.url" = some apiUrl ∧
      Url.parse (withoutTrailingSlashes apiUrl) = .error reason
  | .coverage => ∀ condition ∈ report.conditions, condition.metricKey ≠ "new_coverage"
  | .token => ∃ byte ∈ Utf8.bytes token, isHeaderByte byte = false

/-- How a decoration fails for what is wrong. -/
def Says (report : Report) (failure : Failure) : Lack → Prop
  | .apiUrl => failure = .analysis (.missingProperty "gitlab.api.url")
  | .project => failure = .analysis (.missingProperty "gitlab.repository.slug")
  | .baseUrl => ∃ apiUrl reason, report.properties.get? "gitlab.api.url" = some apiUrl ∧
      Url.parse (withoutTrailingSlashes apiUrl) = .error reason ∧
      failure = .analysis (.invalidBaseUrl (apiUrl ++ ": " ++ reason.message))
  | .coverage => failure = .analysis (.missingCondition "new_coverage")
  | .token => failure = .remote (.invalidHeader "PRIVATE-TOKEN")

/-- Something is wrong, and nothing is that is looked for earlier. -/
def IsFirst (report : Report) (token : String) (lack : Lack) : Prop :=
  lack.Holds report token ∧ ∀ other ∈ lack.earlier, ¬ other.Holds report token

end Lack

/-- The coverage is missing exactly when there is no condition on it. -/
theorem Lack.coverage_iff (report : Report) (token : String) :
    Lack.coverage.Holds report token ↔ report.condition? BuildStatus.coverageMetric = none := by
  simp only [Lack.Holds, Report.condition?, BuildStatus.coverageMetric, List.find?_eq_none,
    beq_iff_eq, ne_eq]

/-- The token is at fault exactly when it cannot be made one. -/
theorem Lack.token_iff (report : Report) (token : String) :
    Lack.token.Holds report token ↔ Token.ofString? token = none := by
  unfold Lack.Holds Token.ofString?
  by_cases sendable : (Utf8.bytes token).all isHeaderByte = true
  · -- Each byte can be sent, so none is at fault.
    rw [dif_pos sendable]
    simp only [reduceCtorEq, iff_false, not_exists, not_and]
    intro byte member
    rw [List.all_eq_true.1 sendable byte member]
    decide
  · rw [dif_neg sendable]
    simp only [iff_true]
    simpa using sendable

/-- The addresses that a report leads to, or the first thing that stands in their way. -/
theorem Endpoints.ofReport_lacks (report : Report) (token : String) :
    (∃ lack failure, Lack.IsFirst report token lack ∧ Lack.Says report (.analysis failure) lack ∧
      Endpoints.ofReport report = .error failure) ∨
    (¬ Lack.apiUrl.Holds report token ∧ ¬ Lack.project.Holds report token ∧
      ¬ Lack.baseUrl.Holds report token) ∧
      ∃ endpoints, Endpoints.ofReport report = .ok endpoints := by
  unfold Endpoints.ofReport Endpoints.required
  -- What is there takes the argument on, until something is missing.
  cases root : report.properties.get? Endpoints.apiProperty with
  | none => exact .inl ⟨.apiUrl, _, ⟨root, by simp [Lack.earlier, Lack.inOrder]⟩, rfl, rfl⟩
  | some apiUrl =>
    have root : report.properties.get? "gitlab.api.url" = some apiUrl := root
    have rooted : ¬ Lack.apiUrl.Holds report token := by simp [Lack.Holds, root]
    cases slug : report.properties.get? Endpoints.projectProperty with
    | none =>
      exact .inl ⟨.project, _, ⟨slug, by simp [Lack.earlier, Lack.inOrder, rooted]⟩, rfl, rfl⟩
    | some project =>
      have slug : report.properties.get? "gitlab.repository.slug" = some project := slug
      have named : ¬ Lack.project.Holds report token := by simp [Lack.Holds, slug]
      simp only [Endpoints.resolve, bind, Except.bind]
      cases read : Url.parse (withoutTrailingSlashes apiUrl) with
      | error reason =>
        exact .inl ⟨.baseUrl, _, ⟨⟨apiUrl, reason, root, read⟩,
          by simp [Lack.earlier, Lack.inOrder, rooted, named]⟩, ⟨apiUrl, reason, root, read, rfl⟩,
          rfl⟩
      | ok base =>
        have based : ¬ Lack.baseUrl.Holds report token := by simp [Lack.Holds, root, read]
        exact .inr ⟨⟨rooted, named, based⟩, _, rfl⟩

/-- What a decoration is prepared with, or the first thing that it lacks. -/
theorem prepare_lacks (access : Access) (report : Report) :
    (∃ lack failure, Lack.IsFirst report access.token lack ∧ Lack.Says report failure lack ∧
      prepare access report = .error failure) ∨
    (∀ lack, ¬ Lack.Holds report access.token lack) ∧
      ∃ prepared, prepare access report = .ok prepared := by
  rcases Endpoints.ofReport_lacks report access.token with
    ⟨lack, failure, first, told, missing⟩ | ⟨⟨rooted, named, based⟩, endpoints, found⟩
  · -- Without addresses nothing else is looked for.
    exact .inl ⟨lack, _, first, told, by rw [prepare, missing]⟩
  · rw [prepare, found]
    cases condition : report.condition? BuildStatus.coverageMetric with
    | none =>
      refine .inl ⟨.coverage, .analysis (.missingCondition "new_coverage"),
        ⟨(Lack.coverage_iff report access.token).2 condition,
          by simp [Lack.earlier, Lack.inOrder, rooted, named, based]⟩, rfl, ?_⟩
      have missing : BuildStatus.ofReport report access.root =
          .error (.missingCondition "new_coverage") := by
        rw [BuildStatus.ofReport, condition]
        rfl
      rw [missing]
    | some present =>
      have covered : ¬ Lack.coverage.Holds report access.token := by
        rw [Lack.coverage_iff, condition]
        simp
      simp only [BuildStatus.ofReport, condition]
      cases sendable : Token.ofString? access.token with
      | none =>
        exact .inl ⟨.token, _, ⟨(Lack.token_iff report access.token).2 sendable,
          by simp [Lack.earlier, Lack.inOrder, rooted, named, based, covered]⟩, rfl, rfl⟩
      | some token =>
        have sent : ¬ Lack.token.Holds report access.token := by
          rw [Lack.token_iff, sendable]
          simp
        refine .inr ⟨fun lack => ?_, _, rfl⟩
        cases lack with
        | apiUrl => exact rooted
        | project => exact named
        | baseUrl => exact based
        | coverage => exact covered
        | token => exact sent

/-- Behind the checks no failure is one of the report's, or of the token's. -/
theorem Preparation.Ends.not_lacking {prepared : Preparation} {report : Report} {reach : Reach}
    {replies : List Reply} {failure : Failure} {after : Line}
    (found : Endpoints.ofReport report = .ok prepared.endpoints)
    (ends : prepared.Ends report (.fresh reach replies) (.error failure, after)) :
    (∀ lack, failure ≠ .analysis lack) ∧ ∀ name, failure ≠ .remote (.invalidHeader name) := by
  have explained : prepared.Explains report reach replies after failure := by
    cases ends with
    | broken broken => exact prepared.explains_of_breaksOff found broken
    | unselected completes unselected => exact prepared.explains_of_selection completes unselected
  -- What explains a failure explains none of these.
  constructor
  · rintro lack rfl
    exact explained
  · rintro name rfl
    exact explained

/-- A failure is the analysis's for all that can be lacking but the token. -/
theorem Lack.Says.kind {lack : Lack} {report : Report} {failure : Failure}
    (told : lack.Says report failure) :
    if lack = .token then failure = .remote (.invalidHeader "PRIVATE-TOKEN")
    else ∃ reason, failure = .analysis reason := by
  cases lack with
  | apiUrl => exact ⟨_, told⟩
  | project => exact ⟨_, told⟩
  | baseUrl =>
    obtain ⟨apiUrl, reason, _, _, same⟩ := told
    exact ⟨_, same⟩
  | coverage => exact ⟨_, told⟩
  | token => exact told

/-- Where the token is the first thing that is lacking, it is the only one. -/
theorem Lack.IsFirst.eq_token {report : Report} {token : String}
    (first : Lack.token.IsFirst report token) {lack : Lack} (holds : lack.Holds report token) :
    lack = .token := by
  by_contra other
  -- All that is not the token is looked for earlier.
  have member : lack ∈ Lack.token.earlier := by
    cases lack <;> first | decide | exact absurd rfl other
  exact first.2 lack member holds

/-- Up to its first request a decoration is about what it lacks; behind that it never is. -/
theorem decorate_lacks (access : Access) (report : Report) {reach : Reach} {replies : List Reply}
    {before : Line} (quiet : (Line.fresh reach replies).Quiet before) :
    (∃ first failure after, Lack.IsFirst report access.token first ∧
      Lack.Says report failure first ∧
      (decorate access report).run before = (.error failure, after) ∧ before.Quiet after) ∨
    (∀ lack, ¬ Lack.Holds report access.token lack) ∧ ∀ failure after,
      (decorate access report).run before = (.error failure, after) →
      (∀ lack, failure ≠ .analysis lack) ∧ ∀ name, failure ≠ .remote (.invalidHeader name) := by
  have ends := decorate_ends access report before
  rcases prepare_lacks access report with
    ⟨first, failure, isFirst, told, impossible⟩ | ⟨none_holds, prepared, possible⟩
  · rw [impossible] at ends
    obtain ⟨after, run, still⟩ := ends
    exact .inl ⟨first, failure, after, isFirst, told, run, still⟩
  · rw [possible] at ends
    refine .inr ⟨none_holds, fun failure after run => ?_⟩
    rw [run] at ends
    exact (ends.of_quiet quiet).not_lacking (ofReport_of_prepare possible)

/-- A decoration fails for the analysis exactly when something other than the token is lacking. -/
theorem decorate_eq_analysis_iff (access : Access) (report : Report) {reach : Reach}
    {replies : List Reply} {before : Line} (quiet : (Line.fresh reach replies).Quiet before) :
    (∃ reason, ((decorate access report).run before).1 = .error (.analysis reason)) ↔
      ∃ lack ≠ .token, Lack.Holds report access.token lack := by
  rcases decorate_lacks access report quiet with
    ⟨first, failure, after, isFirst, told, run, _⟩ | ⟨none_holds, later⟩
  · rw [run]
    have kind := told.kind
    by_cases last : first = .token
    · -- The token comes last, so that nothing of the analysis is lacking.
      subst last
      rw [if_pos rfl] at kind
      constructor
      · rintro ⟨reason, same⟩
        simp [kind] at same
      · rintro ⟨lack, other, holds⟩
        exact absurd (isFirst.eq_token holds) other
    · rw [if_neg last] at kind
      obtain ⟨reason, rfl⟩ := kind
      exact ⟨fun _ => ⟨first, last, isFirst.1⟩, fun _ => ⟨reason, rfl⟩⟩
  · constructor
    · rintro ⟨reason, same⟩
      exact absurd rfl ((later _ _ (Prod.ext same rfl)).1 reason)
    · rintro ⟨lack, _, holds⟩
      exact absurd holds (none_holds lack)

/-- The answer to a trigger that knows the secret, by how the decoration ended. -/
def Response.ofResult (time : String) : Except Failure Outcome → Response
  | .ok outcome => (outcome.envelope time).respond 200
  | .error failure =>
    (ServiceFailure.notDecorated failure).envelope.respond
      (ServiceFailure.notDecorated failure).status

/-- A trigger with the secret is answered by how its decoration ends, on a line on which nothing
was sent before. -/
theorem Trigger.serve_known {trigger : Trigger} {secret : String} (visible : trimmed secret ≠ "")
    (known : trimmed trigger.secret = trimmed secret) (access : Access)
    (requestId : Option String) (stamp : Stamp) (line : Line) :
    ∃ before, line.Quiet before ∧
      ((trigger.serve secret access requestId stamp).run line).1 =
        .ofResult stamp.time ((decorate access trigger.report).run before).1 := by
  have named : line.Quiet (line.named requestId) := by
    unfold Line.named
    cases requestId.filter isPlainValue with
    | none => exact line.quiet_refl
    | some id => exact line.quiet_noted _
  refine ⟨_, named.trans (Line.quiet_noted _ (.triggerAccepted trigger.report.commit)), ?_⟩
  rw [Trigger.run_serve, refuseSecret?_eq visible, if_pos known]
  dsimp only
  rcases (decorate access trigger.report).run _ with ⟨failure | outcome, after⟩
  · rfl
  · rfl

/-- An answer blames the analysis exactly when that is what the decoration failed for; any other
answer tells of an outcome or blames the server. -/
theorem Response.ofResult_cases (time : String) (result : Except Failure Outcome) :
    ((∃ message, Response.ofResult time result =
        (Envelope.failure "INVALID_ANALYSIS" message []).respond 422) ↔
      ∃ reason, result = .error (.analysis reason)) ∧
    ((¬ ∃ reason, result = .error (.analysis reason)) →
      (∃ outcome : Outcome, Response.ofResult time result = (outcome.envelope time).respond 200) ∨
        ∃ message, Response.ofResult time result =
          (Envelope.failure "DECORATION_FAILED" message []).respond 502) := by
  -- The status alone tells the three kinds of answers apart.
  have status : ∀ {envelope : Envelope} {code : Nat} {response : Response},
      response = envelope.respond code → response.status = code := by
    rintro envelope code _ rfl
    rfl
  match result with
  | .ok outcome =>
    refine ⟨⟨fun ⟨message, same⟩ => ?_, by simp⟩, fun _ => .inl ⟨outcome, rfl⟩⟩
    simpa [Response.ofResult, Envelope.respond] using status same
  | .error (.analysis reason) =>
    exact ⟨⟨fun _ => ⟨reason, rfl⟩, fun _ => ⟨reason.message, rfl⟩⟩,
      fun other => absurd ⟨reason, rfl⟩ other⟩
  | .error (.remote failure) =>
    refine ⟨⟨fun ⟨message, same⟩ => ?_, by simp⟩, fun _ => .inr ⟨_, rfl⟩⟩
    simpa [Response.ofResult, Envelope.respond, ServiceFailure.status] using status same

/-- A decoration that lacks something fails with the first thing that it lacks, sends nothing and
uses up no reply; one that lacks nothing never fails as if it did. A trigger with the secret is
answered accordingly: the analysis is to blame exactly when something other than the token is
lacking, and otherwise the answer tells of an outcome or of a server that is to blame. -/
theorem decorate_lacking (access : Access) (report : Report) (reach : Reach)
    (replies : List Reply) :
    ((∃ lack, Lack.Holds report access.token lack) →
      ∃ first failure after, Lack.IsFirst report access.token first ∧
        Lack.Says report failure first ∧
        (decorate access report).run (.fresh reach replies) = (.error failure, after) ∧
        after.requests = [] ∧ after.replies = replies) ∧
    ((∀ lack, ¬ Lack.Holds report access.token lack) → ∀ failure after,
      (decorate access report).run (.fresh reach replies) = (.error failure, after) →
      (∀ lack, failure ≠ .analysis lack) ∧ ∀ name, failure ≠ .remote (.invalidHeader name)) ∧
    ∀ (trigger : Trigger) (secret : String) (requestId : Option String) (stamp : Stamp),
      trigger.report = report → trimmed secret ≠ "" → trimmed trigger.secret = trimmed secret →
      let response := ((trigger.serve secret access requestId stamp).run (.fresh reach replies)).1
      ((∃ message, response = (Envelope.failure "INVALID_ANALYSIS" message []).respond 422) ↔
        ∃ lack ≠ .token, Lack.Holds report access.token lack) ∧
      ((¬ ∃ lack ≠ .token, Lack.Holds report access.token lack) →
        (∃ outcome : Outcome, response = (outcome.envelope stamp.time).respond 200) ∨
          ∃ message, response = (Envelope.failure "DECORATION_FAILED" message []).respond 502) := by
  refine ⟨fun ⟨lack, holds⟩ => ?_, fun none_holds failure after run => ?_, ?_⟩
  · rcases decorate_lacks access report (Line.quiet_refl (.fresh reach replies)) with
      ⟨first, failure, after, isFirst, told, run, still⟩ | ⟨none_holds, _⟩
    · exact ⟨first, failure, after, isFirst, told, run, still.requests, still.replies⟩
    · exact absurd holds (none_holds lack)
  · rcases decorate_lacks access report (Line.quiet_refl (.fresh reach replies)) with
      ⟨first, _, _, isFirst, _⟩ | ⟨_, later⟩
    · exact absurd isFirst.1 (none_holds first)
    · exact later failure after run
  · rintro trigger secret requestId stamp rfl visible known response
    obtain ⟨before, quiet, answer⟩ := trigger.serve_known visible known access requestId stamp
      (.fresh reach replies)
    -- The answer blames the analysis when the decoration does.
    rw [← decorate_eq_analysis_iff access trigger.report quiet, show response = _ from answer]
    exact Response.ofResult_cases stamp.time _

/-- A report about an API at some address, with some conditions. -/
def lackingReport (apiUrl : String) (conditions : List Condition) : Report where
  commit := "c"
  mergeRequestId := "7"
  projectKey := "k"
  properties := .ofList [("gitlab.api.url", apiUrl), ("gitlab.repository.slug", "p")]
  gate := .passed
  conditions
  issues := []
  blame := .empty
  summary := none

/-- Nothing is lacking where the address, the coverage and the token are as they should be. -/
theorem lackingReport_complete :
    ∀ lack, ¬ Lack.Holds (lackingReport "http://h" [⟨"new_coverage", .passed, none⟩]) "t" lack := by
  intro lack holds
  cases lack with
  | apiUrl => exact absurd holds (by unfold Lack.Holds; decide +kernel)
  | project => exact absurd holds (by unfold Lack.Holds; decide +kernel)
  | baseUrl =>
    obtain ⟨apiUrl, reason, present, read⟩ := holds
    have known : (lackingReport "http://h" [⟨"new_coverage", .passed, none⟩]).properties.get?
      "gitlab.api.url" = some "http://h" := by decide +kernel
    rw [known, Option.some.injEq] at present
    have good : (Url.parse (withoutTrailingSlashes "http://h")).toOption.isSome = true := by
      decide +kernel
    rw [present, read] at good
    simp [Except.toOption] at good
  | coverage => exact holds _ List.mem_cons_self rfl
  | token => exact absurd holds (by unfold Lack.Holds; decide)

/-- Of an address that is no URL, a coverage that is missing and a token that breaks off the header
the address comes first; and where nothing is lacking, silence is no fault of the report. -/
theorem decorate_lacking_three :
    (∃ after, (decorate ⟨"\n", ""⟩ (lackingReport "h" [])).run (.fresh .plain [.silence]) =
        (.error (.analysis (.invalidBaseUrl "h: relative URL without a base")), after) ∧
      after.requests = [] ∧ after.replies = [.silence]) ∧
    (∃ message, ((Trigger.serve ⟨"s", lackingReport "h" []⟩ " s" ⟨"\n", ""⟩ none ⟨"", ""⟩).run
        (.fresh .plain [.silence])).1 =
      (Envelope.failure "INVALID_ANALYSIS" message []).respond 422) ∧
    ∀ failure after, (decorate ⟨"t", ""⟩ (lackingReport "http://h"
        [⟨"new_coverage", .passed, none⟩])).run (.fresh .plain [.silence]) =
          (.error failure, after) →
      ∀ lack, failure ≠ .analysis lack := by
  have uncovered : Lack.coverage.Holds (lackingReport "h" []) "\n" := fun _ member => by
    simp [lackingReport] at member
  obtain ⟨lacking, _, served⟩ :=
    decorate_lacking ⟨"\n", ""⟩ (lackingReport "h" []) .plain [.silence]
  refine ⟨?_, ?_, ?_⟩
  · have first : ((decorate ⟨"\n", ""⟩ (lackingReport "h" [])).run (.fresh .plain [.silence])).1 =
        .error (.analysis (.invalidBaseUrl "h: relative URL without a base")) := by decide +kernel
    obtain ⟨_, failure, after, _, _, run, requests, replies⟩ := lacking ⟨.coverage, uncovered⟩
    rw [run] at first
    exact ⟨after, run.trans (Prod.ext first rfl), requests, replies⟩
  · exact (served ⟨"s", lackingReport "h" []⟩ " s" none ⟨"", ""⟩ rfl (by decide) (by decide)).1.2
      ⟨.coverage, by decide, uncovered⟩
  · have complete := (decorate_lacking ⟨"t", ""⟩ (lackingReport "http://h"
      [⟨"new_coverage", .passed, none⟩]) .plain [.silence]).2.1 lackingReport_complete
    exact fun failure after run => (complete failure after run).1

end MergeNotes
