import MergeNotes.Proofs.Service.Passage

/-! Which answers of the service come in an envelope: all but those to bodies that it does not look
into. -/

namespace MergeNotes

/-- A response is in an envelope: its only content type is that of JSON, and its body holds data
with the status 200, and a failure with any other one. -/
structure Response.IsAnswer (response : Response) : Prop where
  contentType : response.headers.filter (·.1 == "content-type") =
    [("content-type", "application/json")]
  body : (∃ data, response.status = 200 ∧ response.body = (Envelope.success data).body) ∨
    ∃ code message details,
      response.status ≠ 200 ∧ response.body = (Envelope.failure code message details).body

/-- The sender says that the body is JSON. -/
def Incoming.SaysJson (incoming : Incoming) : Prop :=
  ((incoming.header? "content-type").filter isPlainValue).any MediaType.isJson = true

theorem isAnswer_success (data : Json.Value) : ((Envelope.success data).respond 200).IsAnswer :=
  ⟨rfl, .inl ⟨data, rfl, rfl⟩⟩

theorem isAnswer_failure {status : Nat} (other : status ≠ 200) (code message : String)
    (details : List Detail) : ((Envelope.failure code message details).respond status).IsAnswer :=
  ⟨rfl, .inr ⟨code, message, details, other, rfl⟩⟩

/-- Plain text is no envelope. -/
theorem not_isAnswer_plain (status : Nat) (text : String) :
    ¬ (Response.plain status text).IsAnswer :=
  fun answer => absurd answer.contentType (by simp [Response.plain])

/-- No failure has the status of a success. -/
theorem ServiceFailure.status_ne (failure : ServiceFailure) : failure.status ≠ 200 := by
  rcases failure with missing | _ | _ | reason | reason
  all_goals simp [ServiceFailure.status]

/-- Whatever becomes of a trigger, the answer to it is in an envelope. -/
theorem Trigger.isAnswer_serve (trigger : Trigger) (secret : String) (access : Access)
    (requestId : Option String) (stamp : Stamp) (line : Line) :
    ((trigger.serve secret access requestId stamp).run line).1.IsAnswer := by
  rw [Trigger.run_serve]
  cases refused : refuseSecret? secret trigger.secret with
  | some refusal =>
    obtain ⟨status, code, message, hint, other, rfl⟩ := exists_secretRefusal refused
    exact isAnswer_failure other _ _ _
  | none =>
    dsimp only
    split
    · exact isAnswer_success _
    · exact isAnswer_failure (ServiceFailure.status_ne _) _ _ _

/-- Plain text does not claim to be JSON. -/
theorem Response.not_saysJson_plain (status : Nat) (text : String) :
    ¬ (Response.plain status text).SaysJson := by
  have type : (Response.plain status text).plainHeader? "content-type" =
      some "text/plain; charset=utf-8" := by
    rw [Response.plainHeader?, Response.plain, List.lookup_cons_self]
    decide
  rw [← Response.isJson_iff, Response.isJson, type]
  decide

/-- The envelope around a response leaves its status as it is. -/
theorem Response.status_enveloped (response : Response) (code freshId : String) :
    (response.enveloped code freshId).status = response.status := by
  have status : (response.identified freshId).status = response.status := by
    unfold Response.identified
    split <;> rfl
  exact status

/-- A refusal that is put into an envelope is in one. -/
theorem Response.isAnswer_enveloped {response : Response} (other : response.status ≠ 200)
    (code freshId : String) : (response.enveloped code freshId).IsAnswer := by
  refine ⟨?_, .inr ⟨_, _, _, response.status_enveloped code freshId ▸ other, rfl⟩⟩
  -- The content type is set in place of any other, and only the length is taken away.
  simpa [Response.enveloped, Response.setHeader, Response.withoutHeader, List.filter_filter] using
    fun name (_ : String) _ (same : name = "content-type") _ => same

/-- The refusal of a body that was looked into goes out in an envelope. -/
theorem isAnswer_explained_plain {status : Nat} {code : String × String}
    (known : rejectionCode? status = some code) (text freshId : String) (line : Line) :
    (((Response.plain status text).explained freshId).run line).1.IsAnswer := by
  have other : status ≠ 200 := by
    rintro rfl
    simp [rejectionCode?] at known
  have same : rejectionCode? (Response.plain status text).status = some code := known
  rw [Response.run_explained_of_refusal same (Response.not_saysJson_plain status text)]
  exact Response.isAnswer_enveloped other code.1 freshId

/-- The refusal of a body that was not looked into goes out as it is. -/
theorem run_explained_plain {status : Nat} (unknown : rejectionCode? status = none)
    (text freshId : String) (line : Line) :
    ((Response.plain status text).explained freshId).run line = (.plain status text, line) :=
  Response.run_explained_of_other unknown freshId line

/-- A request to where triggers are taken is refused, or its trigger is served. -/
theorem Incoming.dispatch_posted {incoming : Incoming} (posted : incoming.IsPosted)
    (settings : Settings) (stamp : Stamp) :
    incoming.dispatch settings stamp =
      match incoming.trigger with
      | .error refusal => pure refusal
      | .ok trigger =>
        trigger.serve settings.secret settings.access (incoming.header? "x-request-id") stamp := by
  unfold Incoming.dispatch
  refine (if_neg (not_not_intro posted.path)).trans
    ((if_neg (not_not_intro posted.method)).trans ?_)
  cases incoming.trigger <;> rfl

/-- The refusal of a body that is not said to be JSON. -/
def Response.untyped : Response :=
  .plain 415 "Expected request with `Content-Type: application/json`"

/-- The refusal of a body that is too long. -/
def Response.overlong : Response :=
  .plain 413 "Failed to buffer the request body: length limit exceeded"

/-- A body that is said to be JSON and not too long is looked into: it holds a trigger, or is
refused with a status that is put into an envelope. -/
theorem Incoming.trigger_of_saysJson {incoming : Incoming} (typed : incoming.SaysJson)
    (short : incoming.body.length ≤ longestBody) :
    (∃ trigger, incoming.trigger = .ok trigger) ∨
      ∃ status code text, rejectionCode? status = some code ∧
        incoming.trigger = .error (.plain status text) := by
  have typed : ((incoming.header? "content-type").filter isPlainValue).any MediaType.isJson =
    true := typed
  unfold Incoming.trigger
  simp only [typed, Bool.not_true, Bool.false_eq_true, if_false, if_neg (Nat.not_lt.2 short)]
  cases Json.readWhole Trigger.format.read incoming.body with
  | ok trigger => exact .inl ⟨trigger, rfl⟩
  | error error =>
    cases fault : error.fault with
    | grammar defect => exact .inr ⟨400, _, _, rfl, by simp only [fault]; rfl⟩
    | content mismatch => exact .inr ⟨422, _, _, rfl, by simp only [fault]; rfl⟩

/-- A request to where triggers are taken is answered in an envelope, whatever becomes of it,
exactly when its body is looked into; a body that is not said to be JSON, or is too long, is refused
in plain text. -/
theorem Incoming.serve_answers {incoming : Incoming} (posted : incoming.IsPosted)
    (settings : Settings) (stamp : Stamp) (line : Line) :
    let response := ((incoming.serve settings stamp).run line).1
    (response.IsAnswer ↔ incoming.SaysJson ∧ incoming.body.length ≤ longestBody) ∧
      (¬ incoming.SaysJson → response = .untyped) ∧
      (incoming.SaysJson → longestBody < incoming.body.length → response = .overlong) := by
  intro response
  have dispatched := dispatch_posted posted settings stamp
  -- What is refused without an envelope stays without one.
  have refused : ∀ {status text}, rejectionCode? status = none →
      incoming.trigger = .error (.plain status text) → response = .plain status text := by
    intro status text unknown found
    rw [found] at dispatched
    unfold response Incoming.serve
    rw [dispatched]
    exact congrArg Prod.fst (run_explained_plain unknown text stamp.id line)
  have untyped : ¬ incoming.SaysJson → response = .untyped := fun other =>
    refused rfl (if_pos (by simpa [SaysJson] using other))
  have overlong : incoming.SaysJson → longestBody < incoming.body.length →
      response = .overlong := by
    intro typed long
    refine refused rfl ?_
    have typed : ((incoming.header? "content-type").filter isPlainValue).any MediaType.isJson =
      true := typed
    unfold Incoming.trigger
    simp only [typed, Bool.not_true, Bool.false_eq_true, if_false, if_pos long]
  have answered : incoming.SaysJson → incoming.body.length ≤ longestBody → response.IsAnswer := by
    intro typed short
    unfold response Incoming.serve
    rw [dispatched]
    rcases trigger_of_saysJson typed short with
      ⟨trigger, found⟩ | ⟨status, code, text, known, found⟩
    · have whole := trigger.isEnvelope_serve settings.secret settings.access
        (incoming.header? "x-request-id") stamp line
      have answer := trigger.isAnswer_serve settings.secret settings.access
        (incoming.header? "x-request-id") stamp line
      -- The answer to a trigger is in an envelope already, and goes out as it is.
      rw [found, StateT.run_bind]
      exact (congrArg Prod.fst (whole.run_explained stamp.id _)).symm ▸ answer
    · rw [found]
      exact isAnswer_explained_plain known text stamp.id line
  refine ⟨⟨fun answer => ?_, fun ⟨typed, short⟩ => answered typed short⟩, untyped, overlong⟩
  have typed : incoming.SaysJson := Classical.byContradiction fun other =>
    not_isAnswer_plain _ _ (untyped other ▸ answer)
  refine ⟨typed, Nat.not_lt.1 fun long => ?_⟩
  exact not_isAnswer_plain _ _ (overlong typed long ▸ answer)

/-- The trigger of a stranger is said to be JSON, and is short. -/
theorem Incoming.serve_answers_stranger :
    strangerRequest.IsPosted ∧ strangerRequest.SaysJson ∧
      ((strangerRequest.serve ⟨"s", "s", "s", "s"⟩ ⟨"now", "id"⟩).run
        (.fresh .plain [.silence])).1.IsAnswer := by
  have posted : strangerRequest.IsPosted := ⟨by decide, rfl⟩
  have typed : strangerRequest.SaysJson := by
    unfold Incoming.SaysJson
    decide +kernel
  have answers := Incoming.serve_answers posted ⟨"s", "s", "s", "s"⟩ ⟨"now", "id"⟩
    (.fresh .plain [.silence])
  exact ⟨posted, typed, answers.1.2 ⟨typed, by decide +kernel⟩⟩

/-- A request that does not say what its body is. -/
def untypedRequest : Incoming where
  method := "POST"
  path := "/decorate/gitlab/mr"
  headers := []
  body := Utf8.bytes "\x7b\x7d"

/-- A service that has started answers such a request in plain text. -/
theorem untypedRequest_unanswered :
    Settings.ofLookup (fun _ => some "s") = .ok ⟨"s", "s", "s", "s"⟩ ∧
      untypedRequest.IsPosted ∧
      ¬ ((untypedRequest.serve ⟨"s", "s", "s", "s"⟩ ⟨"now", "id"⟩).run
        (.fresh .plain [.silence])).1.IsAnswer := by
  have served : ((untypedRequest.serve ⟨"s", "s", "s", "s"⟩ ⟨"now", "id"⟩).run
      (.fresh .plain [.silence])).1 = .untyped := by decide +kernel
  exact ⟨rfl, ⟨by decide, rfl⟩, served ▸ not_isAnswer_plain _ _⟩

end MergeNotes
