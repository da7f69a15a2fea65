import MergeNotes.Proofs.Decoration.Plan
import MergeNotes.Proofs.Service.Frame
import MergeNotes.Proofs.Service.Guard

/-! What passes through the service unaltered: a trigger in JSON on its way in, and the answer to it
on its way out. -/

namespace MergeNotes

/-- A text posted as JSON to where triggers are taken. -/
def Incoming.ofText (text : String) : Incoming where
  method := "POST"
  path := triggerPath
  headers := [("content-type", "application/json")]
  body := Utf8.bytes text

/-- A response is an envelope and nothing besides. -/
def Response.IsEnvelope (response : Response) : Prop :=
  ∃ (envelope : Envelope) (status : Nat), response = envelope.respond status

namespace Response.IsEnvelope

variable {response : Response}

theorem headers (whole : response.IsEnvelope) :
    response.headers = [("content-type", "application/json")] := by
  obtain ⟨envelope, status, rfl⟩ := whole
  rfl

theorem isJson (whole : response.IsEnvelope) : response.isJson = true := by
  -- Only the headers are asked, and they are the same for all envelopes.
  rw [Response.isJson, Response.plainHeader?, whole.headers]
  decide

/-- What is an envelope needs no other one, whatever its status. -/
theorem run_explained (whole : response.IsEnvelope) (freshId : String) (line : Line) :
    (response.explained freshId).run line = (response, line) :=
  run_explained_of_saysJson (isJson_iff.1 whole.isJson) freshId line

end Response.IsEnvelope

/-- A secret is refused in one way or another, but never with the status of a success. -/
theorem exists_secretRefusal {expected given : String} {refusal : Response}
    (refused : refuseSecret? expected given = some refusal) :
    ∃ status code message hint,
      status ≠ 200 ∧ refusal = secretRefusal status code message hint := by
  unfold refuseSecret? at refused
  split at refused
  · rw [Option.some.injEq] at refused
    exact ⟨500, _, _, _, by decide, refused.symm⟩
  · split at refused
    · rw [Option.some.injEq] at refused
      exact ⟨401, _, _, _, by decide, refused.symm⟩
    · simp at refused

/-- A secret is refused in an envelope. -/
theorem isEnvelope_of_refuseSecret? {expected given : String} {refusal : Response}
    (refused : refuseSecret? expected given = some refusal) : refusal.IsEnvelope := by
  obtain ⟨status, code, message, hint, _, rfl⟩ := exists_secretRefusal refused
  exact ⟨_, status, rfl⟩

/-- A line on which the identifier of a request was noted down, where there is a plain one. -/
def Line.named (line : Line) (requestId : Option String) : Line :=
  match requestId.filter isPlainValue with
  | some id => line.noted (.requestNamed id)
  | none => line

/-- The answers to a trigger: its secret is refused, or its report is decorated, well or not. -/
theorem Trigger.run_serve (trigger : Trigger) (secret : String) (access : Access)
    (requestId : Option String) (stamp : Stamp) (line : Line) :
    (trigger.serve secret access requestId stamp).run line =
      match refuseSecret? secret trigger.secret with
      | some refusal => (refusal, (line.named requestId).noted .triggerRejected)
      | none =>
        match (decorate access trigger.report).run
            ((line.named requestId).noted (.triggerAccepted trigger.report.commit)) with
        | (.ok outcome, after) => ((outcome.envelope stamp.time).respond 200, after)
        | (.error failure, after) =>
          ((ServiceFailure.notDecorated failure).envelope.respond
              (ServiceFailure.notDecorated failure).status,
            after.noted (.decorationFailed (ServiceFailure.notDecorated failure).message)) := by
  -- The line is named first, and both sides go on from there.
  have named : (trigger.serve secret access requestId stamp).run line =
      (trigger.serve secret access none stamp).run (line.named requestId) := by
    unfold Trigger.serve Line.named
    cases requestId.filter isPlainValue <;> rfl
  rw [named]
  unfold Trigger.serve
  cases refuseSecret? secret trigger.secret with
  | some refusal => rfl
  | none =>
    simp only [Option.filter_none, StateT.run_bind]
    have noted : (note (.triggerAccepted trigger.report.commit)).run (line.named requestId) =
      ((), (line.named requestId).noted (.triggerAccepted trigger.report.commit)) := rfl
    simp only [bind, noted]
    -- What is made of the decoration depends on how it ends.
    rcases ended : (decorate access trigger.report).run
      ((line.named requestId).noted (.triggerAccepted trigger.report.commit)) with
      ⟨failure | outcome, after⟩
    all_goals
      have ended : StateT.run (decorate access trigger.report).run
        ((line.named requestId).noted (.triggerAccepted trigger.report.commit)) = _ := ended
      rw [ended]
      rfl

/-- Every trigger is answered in an envelope. -/
theorem Trigger.isEnvelope_serve (trigger : Trigger) (secret : String) (access : Access)
    (requestId : Option String) (stamp : Stamp) (line : Line) :
    ((trigger.serve secret access requestId stamp).run line).1.IsEnvelope := by
  rw [Trigger.run_serve]
  cases refused : refuseSecret? secret trigger.secret with
  | some refusal => exact isEnvelope_of_refuseSecret? refused
  | none =>
    dsimp only
    split
    · exact ⟨_, _, rfl⟩
    · exact ⟨_, _, rfl⟩

/-- The identifier that an answer may get is of no account to a trigger. -/
theorem Trigger.run_serve_congr (trigger : Trigger) (secret : String) (access : Access)
    (requestId : Option String) (time id other : String) (line : Line) :
    (trigger.serve secret access requestId ⟨time, id⟩).run line =
      (trigger.serve secret access requestId ⟨time, other⟩).run line := by
  rw [Trigger.run_serve, Trigger.run_serve]

namespace Incoming

theorem header?_ofText (text name : String) :
    (Incoming.ofText text).header? name =
      if name = "content-type" then some "application/json" else none := by
  have lower : "content-type".toLower = "content-type" := by decide +kernel
  have padded : String.ofList (dropWhileEnd isPadding
    ("application/json".toList.dropWhile isPadding)) = "application/json" := by decide
  simp only [Incoming.header?, Incoming.ofText, List.find?, lower]
  by_cases same : name = "content-type"
  · simp only [same, beq_self_eq_true, if_true, Option.map_some, padded]
  · have other : ("content-type" == name) = false := beq_eq_false_iff_ne.2 (Ne.symm same)
    simp only [other, if_neg same, Option.map_none]

/-- A text that reads as a trigger is that trigger, where it is not too long. -/
theorem trigger_ofText {text : String} {trigger : Trigger}
    (read : Trigger.format.readText text = .ok trigger)
    (short : (Utf8.bytes text).length ≤ longestBody) :
    (Incoming.ofText text).trigger = .ok trigger := by
  have json : (((Incoming.ofText text).header? "content-type").filter isPlainValue).any
      MediaType.isJson = true := by
    rw [header?_ofText, if_pos rfl]
    decide
  have fits : ¬ longestBody < (Incoming.ofText text).body.length := Nat.not_lt.2 short
  -- Both ways the body is read as a whole.
  have whole : Json.readWhole Trigger.format.read (Incoming.ofText text).body = .ok trigger := read
  unfold Incoming.trigger
  simp only [json, Bool.not_true, Bool.false_eq_true, if_false, if_neg fits, whole]

/-- A trigger in a text is dispatched as that trigger, without an identifier. -/
theorem dispatch_ofText {text : String} {trigger : Trigger}
    (read : Trigger.format.readText text = .ok trigger)
    (short : (Utf8.bytes text).length ≤ longestBody) (settings : Settings) (stamp : Stamp) :
    (Incoming.ofText text).dispatch settings stamp =
      trigger.serve settings.secret settings.access none stamp := by
  have path : (Incoming.ofText text).path.toList.takeWhile (· != '?') = triggerPath.toList := by
    change triggerPath.toList.takeWhile (· != '?') = triggerPath.toList
    decide
  have method : (Incoming.ofText text).method = "POST" := rfl
  have unnamed : (Incoming.ofText text).header? "x-request-id" = none := by
    rw [header?_ofText, if_neg (by decide)]
  unfold Incoming.dispatch
  simp only [path, method, ne_eq, not_true_eq_false, if_false, trigger_ofText read short, unnamed]

end Incoming

/-- The service does nothing to a trigger in JSON, and nothing to the answer: both that and what
becomes of the line are what they are without it, the answer is in JSON and has no other header, and
the one about an analysis that lacks something says that and no more. -/
theorem Incoming.serve_ofText {lookup : String → Option String} {settings : Settings}
    (started : Settings.ofLookup lookup = .ok settings) {text : String} {trigger : Trigger}
    (read : Trigger.format.readText text = .ok trigger)
    (short : (Utf8.bytes text).length ≤ longestBody) (time id other : String) (line : Line) :
    let served := ((Incoming.ofText text).serve settings ⟨time, id⟩).run line
    let direct := (trigger.serve settings.secret settings.access none ⟨time, other⟩).run line
    served = direct ∧ served.1.headers = [("content-type", "application/json")] ∧
      ∀ lack after, trimmed trigger.secret = trimmed settings.secret →
        (decorate settings.access trigger.report).run
            (line.noted (.triggerAccepted trigger.report.commit)) =
          (.error (.analysis lack), after) →
        served.1 = (Envelope.failure "INVALID_ANALYSIS" lack.message []).respond 422 := by
  intro served direct
  -- The answer is an envelope, so that it goes out as it is.
  have whole : direct.1.IsEnvelope := trigger.isEnvelope_serve _ _ _ _ _
  have same : served = direct := by
    have stamped : (trigger.serve settings.secret settings.access none ⟨time, id⟩).run line =
      direct := trigger.run_serve_congr _ _ _ _ _ _ _
    unfold served Incoming.serve
    rw [Incoming.dispatch_ofText read short, StateT.run_bind, stamped]
    exact whole.run_explained id direct.2
  refine ⟨same, same ▸ whole.headers, fun lack after known lacking => ?_⟩
  -- With the secret of the settings nothing is refused, and no identifier is noted down.
  have accepted : refuseSecret? settings.secret trigger.secret = none := by
    rw [refuseSecret?_eq (Settings.secret_of_ofLookup started), if_pos known]
  have unnamed : line.named none = line := rfl
  rw [same]
  unfold direct
  rw [Trigger.run_serve, accepted, unnamed, lacking]
  rfl

/-- A trigger with the secret `s` whose report says nothing of the API is answered with what its
analysis lacks, and with nothing else. -/
theorem Incoming.serve_ofText_lacking :
    (((Incoming.ofText "[\"s\",[\"c\",\"1\",\"p\",\x7b\x7d,\"OK\"]]").serve
      ⟨"s", "s", "s", "s"⟩ ⟨"now", "id"⟩).run (.fresh .plain [.silence])).1 =
    (Envelope.failure "INVALID_ANALYSIS"
      (AnalysisFailure.missingProperty "gitlab.api.url").message []).respond 422 := by
  -- The text reads as a trigger, the report of which fails before anything is sent.
  obtain ⟨trigger, read, told⟩ := @exists_ok_of_toOption _ _ _
    (Trigger.format.readText "[\"s\",[\"c\",\"1\",\"p\",\x7b\x7d,\"OK\"]]")
    (fun trigger => (trigger.secret, trigger.report.properties.get? "gitlab.api.url"))
    ("s", none) (by decide +kernel)
  obtain ⟨secret, missing⟩ := Prod.mk.inj told
  have lacking : prepare ⟨"s", "s"⟩ trigger.report =
      .error (.analysis (.missingProperty "gitlab.api.url")) := by
    have missing : trigger.report.properties.get? Endpoints.apiProperty = none := missing
    rw [prepare, Endpoints.ofReport, Endpoints.required, missing]
    rfl
  have ends := decorate_ends ⟨"s", "s"⟩ trigger.report
    ((Line.fresh .plain [.silence]).noted (.triggerAccepted trigger.report.commit))
  rw [lacking] at ends
  obtain ⟨after, run, _⟩ := ends
  have served := @Incoming.serve_ofText (fun _ => some "s") ⟨"s", "s", "s", "s"⟩ rfl _ _ read
    (by decide +kernel) "now" "id" "" (.fresh .plain [.silence])
  exact served.2.2 _ after (by rw [secret]) run

end MergeNotes
