import MergeNotes.Service.Failure

/-! Triggers: the decoration of a merge request, asked for by one who knows the secret. -/

namespace MergeNotes

open Json (Format)

/-- What is sent to have a merge request decorated. -/
structure Trigger where
  secret : String
  report : Report

/-- The trigger in JSON. -/
def Trigger.format : Format Trigger :=
  .record "DecorateMrRequest"
    (.field "secret" .string none <| .field "report" Report.format none .none)
    (fun (secret, report, ()) => ⟨secret, report⟩)
    (fun t => (t.secret, t.report, ()))

/-- What is new with every response. -/
structure Stamp where
  time : String
  id : String
  deriving DecidableEq, Repr

/-- The refusal of a trigger by reason of its secret. -/
def secretRefusal (status : Nat) (code message hint : String) : Response :=
  (Envelope.failure code message [⟨some "secret", some hint⟩]).respond status

/-- The refusal of a trigger whose secret is not the expected one; blanks at the ends of either do
not count, and a blank secret matches nothing. -/
def refuseSecret? (expected given : String) : Option Response :=
  -- A service without a secret trusts no one.
  if trimmed expected = "" then
    some (secretRefusal 500 "SERVER_CONFIG_ERROR" "Trigger secret is not configured."
      "Trigger secret is not configured on the server side.")
  else if trimmed given = "" ∨ trimmed given ≠ trimmed expected then
    some (secretRefusal 401 "UNAUTHORIZED" "Invalid trigger secret."
      "Secret does not match the configured trigger secret.")
  else none

/-- What is said about a decoration that was done. -/
def Outcome.envelope (outcome : Outcome) (time : String) : Envelope :=
  .success <| .object
    [("message", .string ("Merge request decorated: " ++ decimal outcome.inline ++
        " inline comment(s), " ++ decimal outcome.skipped ++ " skipped.")),
      ("outcome", .object
        [("status", .string outcome.status.name), ("commits", .number (.natural outcome.commits)),
          ("inline_posted", .number (.natural outcome.inline)),
          ("skipped", .number (.natural outcome.skipped))]),
      ("finished_at", .string time)]

/-- Serves a trigger. -/
def Trigger.serve (trigger : Trigger) (secret : String) (access : Access)
    (requestId : Option String) (stamp : Stamp) : StateM Line Response := do
  match requestId.filter isPlainValue with
  | some id => note (.requestNamed id)
  | none => pure ()
  -- The secret is looked at before anything of the report is.
  match refuseSecret? secret trigger.secret with
  | some refusal =>
    note .triggerRejected
    pure refusal
  | none =>
    note (.triggerAccepted trigger.report.commit)
    match ← (decorate access trigger.report).run with
    | .ok outcome => pure ((outcome.envelope stamp.time).respond 200)
    | .error failure =>
      let failure := ServiceFailure.notDecorated failure
      note (.decorationFailed failure.message)
      pure (failure.envelope.respond failure.status)

end MergeNotes
