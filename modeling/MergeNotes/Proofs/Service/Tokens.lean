import MergeNotes.Proofs.Decoration.Parallel
import MergeNotes.Proofs.Service.Passage

/-! What the access token is good for: one header of every request, and nothing else that a
decoration or the service does. -/

namespace MergeNotes

/-- The tokens that a request carries. -/
def Request.tokens (request : Request) : List String :=
  (request.headers.filter (·.1 == "private-token")).map (·.2)

/-- A request as it looks to one who must not see its token. -/
def Request.veiled (request : Request) : Request :=
  { request with headers := request.headers.map fun (name, value) =>
      (name, if name = "private-token" then "" else value) }

/-- Two requests carry one token each, and differ in nothing else. -/
structure Request.DiffersInToken (first second : String) (request other : Request) : Prop where
  veiled : request.veiled = other.veiled
  token : request.tokens = [first]
  other : other.tokens = [second]

/-- The headers of a request, of which only one has to do with the token. -/
theorem requestHeaders_eq (token : Token) (form : Option Comment) :
    requestHeaders token form =
      ("accept", "application/json") ::
        ((form.map fun _ => ("content-type", "application/x-www-form-urlencoded")).toList ++
          [("private-token", arriving token.text), ("user-agent", "mr-decorator/0.1")]) := by
  have accept : arriving "application/json" = "application/json" := by decide
  have agent : arriving "mr-decorator/0.1" = "mr-decorator/0.1" := by decide
  unfold requestHeaders Token.headers
  simp only [List.map_cons, List.map_nil, accept, agent]
  -- A form brings one header more, which takes its place by name.
  cases form with
  | none => rfl
  | some comment => rfl

theorem Token.text_of_ofString? {text : String} {token : Token}
    (kept : Token.ofString? text = some token) : token.text = text := by
  unfold Token.ofString? at kept
  split at kept
  · rw [Option.some.injEq] at kept
    rw [← kept]
  · simp at kept

/-- Requests for the same differ in the token at most. -/
theorem Token.alike_differsInToken (token other : Token) :
    Token.Alike (Request.DiffersInToken (arriving token.text) (arriving other.text)) token
      other := by
  intro method url form
  constructor
  · simp only [requestFor, Request.veiled, Request.mk.injEq, true_and, and_true]
    rw [requestHeaders_eq, requestHeaders_eq]
    cases form <;> rfl
  · simp only [requestFor, Request.tokens]
    rw [requestHeaders_eq]
    cases form <;> rfl
  · simp only [requestFor, Request.tokens]
    rw [requestHeaders_eq]
    cases form <;> rfl

section

variable {alike : Request → Request → Prop}

/-- Finding the addresses of a report, which takes no token. -/
theorem inStep_findEndpoints (report : Report) :
    InStep alike (findEndpoints report) (findEndpoints report) :=
  (InStep.ofAnalysis _).bind fun _ => .note_bind _ <| .note_bind _ <| .note_bind _ <| .pure _

/-- What is done behind the checks, with one token or another. -/
theorem Preparation.inStep_work (prepared : Preparation) {other : Token}
    (tokens : Token.Alike alike prepared.token other) (report : Report) :
    InStep alike (prepared.work report)
      (Preparation.work { prepared with token := other } report) :=
  (inStep_fetchCommits tokens prepared.endpoints.commits).bind fun ids =>
    prepared.inStep_workOn tokens report (fun id => Eq.refl ((CommitSet.ofList ids).contains id))
      rfl

/-- Decorations with two tokens that can be sent are in step. -/
theorem inStep_decorate {first second : String} {token other : Token}
    (kept : Token.ofString? first = some token) (sent : Token.ofString? second = some other)
    (tokens : Token.Alike alike token other) (root : String) (report : Report) :
    InStep alike (decorate ⟨first, root⟩ report) (decorate ⟨second, root⟩ report) := by
  have required : ∀ {text : String} {token : Token}, Token.ofString? text = some token →
      requireToken text = (pure token : Run Token) := by
    intro text token known
    rw [requireToken, known]
  -- Up to the check of the token nothing asks for it.
  refine .note_bind _ ((inStep_findEndpoints report).bind fun endpoints => ?_)
  refine (InStep.ofAnalysis _).bind fun status => ?_
  rw [required kept, required sent, pure_bind, pure_bind]
  exact Preparation.inStep_work ⟨endpoints, status, token⟩ tokens report

end

/-- Two responses say the same, but for the time at which a decoration was done. -/
def Response.SameButTime (time other : String) (response opposite : Response) : Prop :=
  opposite = response ∨
    ∃ outcome : Outcome, response = (outcome.envelope time).respond 200 ∧
      opposite = (outcome.envelope other).respond 200

/-- Two lines have seen the same pass, but for the tokens of the requests. -/
structure Line.SameButToken (first second : String) (line other : Line) : Prop where
  events : other.events = line.events
  replies : other.replies = line.replies
  requests : List.Forall₂ (Request.DiffersInToken first second) line.requests other.requests

theorem Line.SameButToken.noted {first second : String} {line other : Line}
    (same : line.SameButToken first second other) (event : Event) :
    (line.noted event).SameButToken first second (other.noted event) :=
  ⟨by rw [Line.noted, Line.noted, same.events], same.replies, same.requests⟩

/-- A line without requests carries no token at all. -/
theorem Line.sameButToken_refl {first second : String} {line : Line} (unsent : line.requests = []) :
    line.SameButToken first second line :=
  ⟨rfl, rfl, unsent ▸ .nil⟩

/-- Runs in step from one line end with the same result, and with the same line but for the
tokens. -/
theorem InStep.exists_sameButToken {α : Type} {first second : String} {work other : Run α}
    (inStep : InStep (Request.DiffersInToken first second) work other) (line : Line)
    (unsent : line.requests = []) :
    ∃ result after opposite, work.run line = (result, after) ∧
      other.run line = (result, opposite) ∧ after.SameButToken first second opposite := by
  obtain ⟨result, left, sent, others, events, run, rerun, paired⟩ := inStep line line rfl rfl
  refine ⟨result, _, _, run, rerun, rfl, rfl, ?_⟩
  -- There was no request before, so the new ones are all.
  simp only [Line.further, unsent, List.nil_append]
  exact paired

/-- Of two tokens that can be sent it makes no difference which one there is: decorations have the
same result, take the same notes and leave the same replies, triggers get the same response but for
its time, and the requests are the same but for the one header in which each carries its token. -/
theorem decorate_discreet (root : String) (reach : Reach) (replies : List Reply)
    {first second : String} (sendable : (Token.ofString? first).isSome)
    (sendable' : (Token.ofString? second).isSome) :
    (∀ report : Report, ∃ result after other,
      (decorate ⟨first, root⟩ report).run (.fresh reach replies) = (result, after) ∧
      (decorate ⟨second, root⟩ report).run (.fresh reach replies) = (result, other) ∧
      after.SameButToken (arriving first) (arriving second) other) ∧
    ∀ (trigger : Trigger) (secret : String) (requestId : Option String) (stamp restamp : Stamp),
      ∃ response opposite after other,
        (trigger.serve secret ⟨first, root⟩ requestId stamp).run (.fresh reach replies) =
          (response, after) ∧
        (trigger.serve secret ⟨second, root⟩ requestId restamp).run (.fresh reach replies) =
          (opposite, other) ∧
        response.SameButTime stamp.time restamp.time opposite ∧
        after.SameButToken (arriving first) (arriving second) other := by
  obtain ⟨token, kept⟩ := Option.isSome_iff_exists.1 sendable
  obtain ⟨other, sent⟩ := Option.isSome_iff_exists.1 sendable'
  have tokens := token.alike_differsInToken other
  rw [Token.text_of_ofString? kept, Token.text_of_ofString? sent] at tokens
  have inStep := inStep_decorate kept sent tokens root
  refine ⟨fun report => (inStep report).exists_sameButToken _ rfl, ?_⟩
  intro trigger secret requestId stamp restamp
  rw [Trigger.run_serve, Trigger.run_serve]
  have named : ((Line.fresh reach replies).named requestId).requests = [] := by
    unfold Line.named
    cases requestId.filter isPlainValue <;> rfl
  cases refuseSecret? secret trigger.secret with
  -- A refusal asks for no token, and has no time.
  | some refusal =>
    exact ⟨refusal, refusal, _, _, rfl, rfl, .inl rfl, Line.sameButToken_refl named⟩
  | none =>
    obtain ⟨result, after, opposite, run, rerun, same⟩ :=
      (inStep trigger.report).exists_sameButToken
        (((Line.fresh reach replies).named requestId).noted
          (.triggerAccepted trigger.report.commit)) named
    dsimp only
    rw [run, rerun]
    cases result with
    -- What went wrong has no time either; what went well is the same outcome at two times.
    | error failure => exact ⟨_, _, _, _, rfl, rfl, .inl rfl, same.noted _⟩
    | ok outcome => exact ⟨_, _, _, _, rfl, rfl, .inr ⟨outcome, rfl, rfl⟩, same⟩

/-- A report with one issue, which leads to the merge request 7 of the project `p` over encrypted
connections. -/
def discreetReport : Report where
  commit := "c"
  mergeRequestId := "7"
  projectKey := "k"
  properties := .ofList [("gitlab.api.url", "https://h"), ("gitlab.repository.slug", "p")]
  gate := .passed
  conditions := [⟨"new_coverage", .passed, none⟩]
  issues := [⟨"a", some "a.c", some 3, .opened, none, "m", none⟩]
  blame := .ofList [("a", .ofList [(3, "c")])]
  summary := none

/-- Two pages, on the first of which is the commit of the issue; then the merge request, the status
and two comments that are taken. -/
def discreetReplies : List Reply :=
  [.answer 200 [Utf8.bytes "<https://h/2>; rel=\"next\""] (Utf8.bytes "[[\"c\"]]") true,
    .answer 200 [] (Utf8.bytes "[]") true,
    .answer 200 [] (Utf8.bytes "[7,null,null,[\"b\",\"s\",\"h\"]]") true,
    .answer 201 [] [] true, .answer 201 [] [] true, .answer 201 [] [] true]

/-- A plain token and one that has to be trimmed on its way bring the same decoration about, each
with six requests that carry it once. -/
theorem decorate_discreet_answered :
    (∃ result after other,
      (decorate ⟨"t", ""⟩ discreetReport).run (.fresh .everywhere discreetReplies) =
        (result, after) ∧
      (decorate ⟨"\tü ", ""⟩ discreetReport).run (.fresh .everywhere discreetReplies) =
        (result, other) ∧
      after.SameButToken "t" "ü" other) ∧
    ((decorate ⟨"t", ""⟩ discreetReport).run (.fresh .everywhere discreetReplies)).1.toOption =
      some ⟨.posted, 1, 1, 0⟩ ∧
    ((decorate ⟨"t", ""⟩ discreetReport).run
      (.fresh .everywhere discreetReplies)).2.requests.map Request.tokens =
        List.replicate 6 ["t"] := by
  have padded : arriving "\tü " = "ü" := by decide
  have plain : arriving "t" = "t" := by decide
  have discreet := (@decorate_discreet "" .everywhere discreetReplies "t" "\tü " (by decide)
    (by decide)).1 discreetReport
  rw [plain, padded] at discreet
  -- Both are read off one run.
  have ended : (fun ending : Except Failure Outcome × Line =>
      (ending.1.toOption, ending.2.requests.map Request.tokens))
        ((decorate ⟨"t", ""⟩ discreetReport).run (.fresh .everywhere discreetReplies)) =
      (some ⟨.posted, 1, 1, 0⟩, List.replicate 6 ["t"]) := by
    decide +kernel
  exact ⟨discreet, Prod.mk.inj ended⟩

end MergeNotes
