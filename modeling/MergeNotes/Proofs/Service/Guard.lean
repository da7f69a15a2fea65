import MergeNotes.Proofs.Remote.Traffic
import MergeNotes.Proofs.Result
import MergeNotes.Proofs.Text.Trim
import MergeNotes.Service.Server

/-! What the secret guards: only triggers that know it lead to traffic with the server, and all
others are refused in the same words. -/

namespace MergeNotes

/-- One exchange of the service, with the line to the server before and behind it. -/
structure Served where
  incoming : Incoming
  response : Response
  before : Line
  after : Line

/-- The exchanges that come of requests in turn. -/
def serveAll (settings : Settings) : List (Incoming × Stamp) → Line → List Served
  | [], _ => []
  | (incoming, stamp) :: session, before =>
    let (response, after) := (incoming.serve settings stamp).run before
    ⟨incoming, response, before, after⟩ :: serveAll settings session after

/-- An exchange makes itself felt at the server: a request is sent or a reply is used up. -/
def Served.Contacts (served : Served) : Prop :=
  served.after.requests ≠ served.before.requests ∨ served.after.replies ≠ served.before.replies

namespace Incoming

/-- A request goes to where triggers are taken. -/
structure IsPosted (incoming : Incoming) : Prop where
  path : incoming.path.toList.takeWhile (· != '?') = triggerPath.toList
  method : incoming.method = "POST"

/-- A request holds a trigger that knows the secret. -/
structure IsAuthorized (incoming : Incoming) (settings : Settings) : Prop where
  posted : incoming.IsPosted
  trigger : ∃ trigger, Json.readWhole Trigger.format.read incoming.body = .ok trigger ∧
    trimmed trigger.secret = trimmed settings.secret ∧ trimmed trigger.secret ≠ ""

end Incoming

/-- The refusal of every trigger that does not know the secret. -/
def unauthorized : Response :=
  secretRefusal 401 "UNAUTHORIZED" "Invalid trigger secret."
    "Secret does not match the configured trigger secret."

/-- A setting that is found is not blank. -/
theorem Settings.isBlankText_of_required {lookup : String → Option String} {name value : String}
    (found : Settings.required lookup name = .ok value) : isBlankText value = false := by
  unfold Settings.required at found
  split at found
  · split at found
    · simp at found
    · -- Of what is found, only what is not blank is given out.
      rename_i visible
      rw [Except.ok.injEq] at found
      rw [← found]
      exact Bool.eq_false_iff.2 visible
  · simp at found

/-- A service that starts has a secret. -/
theorem Settings.secret_of_ofLookup {lookup : String → Option String} {settings : Settings}
    (started : Settings.ofLookup lookup = .ok settings) : trimmed settings.secret ≠ "" := by
  -- The secret is the last of four, each of which must be there.
  obtain ⟨address, _, started⟩ := exists_ok_of_bind started
  obtain ⟨token, _, started⟩ := exists_ok_of_bind started
  obtain ⟨root, _, started⟩ := exists_ok_of_bind started
  obtain ⟨secret, found, started⟩ := exists_ok_of_bind started
  rw [Except.ok.injEq] at started
  rw [← started]
  exact trimmed_ne_empty (Settings.isBlankText_of_required found)

/-- The body of a request that holds a trigger is the JSON of it. -/
theorem Incoming.readWhole_of_trigger {incoming : Incoming} {trigger : Trigger}
    (found : incoming.trigger = .ok trigger) :
    Json.readWhole Trigger.format.read incoming.body = .ok trigger := by
  unfold Incoming.trigger at found
  split at found
  · simp at found
  · split at found
    · simp at found
    · split at found
      · -- The first reading that works out is of the body as a whole.
        rename_i read
        rw [Except.ok.injEq] at found
        rw [read, found]
      · split at found <;> simp at found

/-- With a secret set, a trigger is refused exactly when its own is another, blanks at the ends
aside. -/
theorem refuseSecret?_eq {expected : String} (visible : trimmed expected ≠ "") (given : String) :
    refuseSecret? expected given =
      if trimmed given = trimmed expected then none else some unauthorized := by
  unfold refuseSecret?
  rw [if_neg visible]
  by_cases same : trimmed given = trimmed expected
  · rw [if_pos same, if_neg]
    -- A blank secret is none, which the one that is set is not.
    rintro (blank | other)
    · exact visible (same ▸ blank)
    · exact other same
  · rw [if_neg same, if_pos (.inr same)]
    rfl

/-- A trigger without the secret is refused, and nothing else happens. -/
theorem Trigger.serve_unauthorized {trigger : Trigger} {settings : Settings}
    (visible : trimmed settings.secret ≠ "")
    (other : trimmed trigger.secret ≠ trimmed settings.secret) (requestId : Option String)
    (stamp : Stamp) (before : Line) :
    ∃ after, before.Quiet after ∧
      (trigger.serve settings.secret settings.access requestId stamp).run before =
        (unauthorized, after) := by
  unfold Trigger.serve
  rw [refuseSecret?_eq visible, if_neg other]
  -- An identifier is noted down if there is none; neither way is anything sent.
  cases requestId.filter isPlainValue with
  | none => exact ⟨_, before.quiet_noted _, rfl⟩
  | some id => exact ⟨_, (before.quiet_noted _).trans (Line.quiet_noted _ _), rfl⟩

/-- What goes out in place of a response is that response, unless its status is one with which
bodies are refused; nothing is sent either way. -/
theorem Response.run_explained (response : Response) (freshId : String) (before : Line) :
    ∃ out after, before.Quiet after ∧ (response.explained freshId).run before = (out, after) ∧
      (rejectionCode? response.status = none → out = response) := by
  unfold Response.explained
  cases code : rejectionCode? response.status with
  -- Without a code the response goes out as it came in.
  | none => exact ⟨response, before, before.quiet_refl, rfl, fun _ => rfl⟩
  | some refusal =>
    cases response.isJson with
    | true => exact ⟨response, before, before.quiet_refl, rfl, by simp⟩
    | false => exact ⟨_, _, before.quiet_noted _, rfl, by simp⟩

/-- Only a request with a trigger that knows the secret makes itself felt at the server. -/
theorem Incoming.authorized_or_quiet (incoming : Incoming) {settings : Settings} (stamp : Stamp)
    (visible : trimmed settings.secret ≠ "") (before : Line) :
    incoming.IsAuthorized settings ∨
      before.Quiet ((incoming.dispatch settings stamp).run before).2 := by
  unfold Incoming.dispatch
  -- The checks come in the order of the service: path, method, body, secret.
  by_cases path : incoming.path.toList.takeWhile (· != '?') = triggerPath.toList
  · rw [if_neg (not_not_intro path)]
    by_cases method : incoming.method = "POST"
    · rw [if_neg (not_not_intro method)]
      cases found : incoming.trigger with
      -- A request without a trigger is answered at once.
      | error refusal => exact .inr before.quiet_refl
      | ok trigger =>
        by_cases same : trimmed trigger.secret = trimmed settings.secret
        · exact .inl ⟨⟨path, method⟩, trigger, incoming.readWhole_of_trigger found, same,
            same ▸ visible⟩
        · obtain ⟨after, quiet, run⟩ := trigger.serve_unauthorized visible same
            (incoming.header? "x-request-id") stamp before
          dsimp only
          rw [run]
          exact .inr quiet
    · rw [if_pos method]
      exact .inr before.quiet_refl
  · rw [if_pos path]
    exact .inr before.quiet_refl

/-- One exchange: it leaves the server alone unless it is authorized, and refuses every trigger
with another secret in the same words. -/
theorem Incoming.serve_guarded (incoming : Incoming) {settings : Settings} (stamp : Stamp)
    (visible : trimmed settings.secret ≠ "") (before : Line) :
    (incoming.IsAuthorized settings ∨ before.Quiet ((incoming.serve settings stamp).run before).2) ∧
      ∀ trigger, incoming.IsPosted → incoming.trigger = .ok trigger →
        trimmed trigger.secret ≠ trimmed settings.secret →
        ((incoming.serve settings stamp).run before).1 = unauthorized ∧
          before.Quiet ((incoming.serve settings stamp).run before).2 := by
  -- The response is explained on its way out, which no refusal of a trigger needs.
  obtain ⟨out, after, still, run, same⟩ := Response.run_explained
    ((incoming.dispatch settings stamp).run before).1 stamp.id
    ((incoming.dispatch settings stamp).run before).2
  have served : (incoming.serve settings stamp).run before = (out, after) := run
  rw [served]
  refine ⟨(incoming.authorized_or_quiet stamp visible before).imp_right (·.trans still), ?_⟩
  intro trigger posted found other
  obtain ⟨between, quiet, refused⟩ := trigger.serve_unauthorized visible other
    (incoming.header? "x-request-id") stamp before
  have dispatched : (incoming.dispatch settings stamp).run before = (unauthorized, between) := by
    unfold Incoming.dispatch
    rw [if_neg (not_not_intro posted.path), if_neg (not_not_intro posted.method), found]
    exact refused
  rw [dispatched] at still same
  exact ⟨same rfl, quiet.trans still⟩

/-- Whatever is asked of a service that has started, only requests that are authorized make
themselves felt at the server; and every trigger that is taken up with another secret gets one and
the same response, which depends on nothing that is to be kept from those who do not know it. -/
theorem serveAll_guarded {lookup : String → Option String} {settings : Settings}
    (started : Settings.ofLookup lookup = .ok settings) (session : List (Incoming × Stamp))
    (line : Line) :
    ∀ served ∈ serveAll settings session line,
      (served.Contacts → served.incoming.IsAuthorized settings) ∧
        ∀ trigger, served.incoming.IsPosted → served.incoming.trigger = .ok trigger →
          trimmed trigger.secret ≠ trimmed settings.secret →
          served.response = unauthorized ∧ ¬ served.Contacts := by
  have visible := Settings.secret_of_ofLookup started
  -- Each exchange is guarded on whatever line the ones before it leave.
  induction session generalizing line with
  | nil => simp [serveAll]
  | cons head session ih =>
    obtain ⟨incoming, stamp⟩ := head
    intro served member
    rcases List.mem_cons.1 member with rfl | later
    · obtain ⟨guarded, refused⟩ := incoming.serve_guarded stamp visible line
      refine ⟨fun contacts => guarded.resolve_right fun quiet => ?_,
        fun trigger posted found other => ?_⟩
      · exact contacts.elim (· quiet.requests) (· quiet.replies)
      · obtain ⟨same, quiet⟩ := refused trigger posted found other
        exact ⟨same, fun contacts => contacts.elim (· quiet.requests) (· quiet.replies)⟩
    · exact ih _ served later

/-- A trigger with the secret `t`, in the shortest form that is read as one. -/
def strangerRequest : Incoming where
  method := "POST"
  path := "/decorate/gitlab/mr"
  headers := [("content-type", "application/json")]
  body := Utf8.bytes "[\"t\",[\"c\",\"1\",\"p\",\x7b\x7d,\"OK\"]]"

/-- Where the secret is `s`, the one who says `t` is refused. -/
theorem serveAll_refuses_stranger :
    (serveAll ⟨"s", "s", "s", "s"⟩ [(strangerRequest, ⟨"", ""⟩)]
      (.fresh .plain [.silence])).map Served.response = [unauthorized] := by
  have read : strangerRequest.trigger.toOption.map Trigger.secret = some "t" := by decide +kernel
  -- The request is read as a trigger, so that there is a secret to compare.
  cases found : strangerRequest.trigger with
  | error refusal => simp [found, Except.toOption] at read
  | ok trigger =>
    simp only [found, Except.toOption, Option.map_some, Option.some.injEq] at read
    have other : trimmed trigger.secret ≠ trimmed "s" := by rw [read]; decide
    have guarded := @serveAll_guarded (fun _ => some "s") ⟨"s", "s", "s", "s"⟩ rfl
      [(strangerRequest, ⟨"", ""⟩)] (.fresh .plain [.silence]) _ List.mem_cons_self
    have refused := (guarded.2 trigger ⟨by decide, rfl⟩ found other).1
    exact congrArg (· :: []) refused

end MergeNotes
