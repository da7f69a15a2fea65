import MergeNotes.Proofs.Service.Frame
import MergeNotes.Proofs.Service.Passage

/-! A service that starts is configured: it starts with settings that are all given, and no request
finds one of them wanting. -/

namespace MergeNotes

variable {lookup : String → Option String} {canListen : String → Bool} {settings : Settings}

namespace Settings

/-- The names of the settings, in the order in which they are looked up. -/
def names : List String :=
  ["API_ADDRESS", "GITLAB_TOKEN", "PUBLIC_ROOT_URL", "TRIGGER_SECRET"]

/-- A setting is given if it is there and holds something besides blanks. -/
def isGiven (lookup : String → Option String) (name : String) : Bool :=
  (lookup name).any (!isBlankText ·)

/-- The first setting that is not given. -/
def firstMissing? (lookup : String → Option String) : Option String :=
  names.find? (!isGiven lookup ·)

/-- A setting that is given is taken as it is, and no other one is taken. -/
theorem required_eq (lookup : String → Option String) (name : String) :
    required lookup name =
      if isGiven lookup name then .ok ((lookup name).getD "") else .error ⟨name⟩ := by
  unfold required isGiven
  cases lookup name with
  | none => rfl
  | some value =>
    show (if isBlankText value then _ else _) = if !isBlankText value then _ else _
    cases isBlankText value <;> rfl

/-- The settings are found if all are given, and otherwise the first that is not is named. -/
theorem ofLookup_eq (lookup : String → Option String) :
    ofLookup lookup =
      match firstMissing? lookup with
      | some name => .error ⟨name⟩
      | none =>
        .ok ⟨(lookup "API_ADDRESS").getD "", (lookup "GITLAB_TOKEN").getD "",
          (lookup "PUBLIC_ROOT_URL").getD "", (lookup "TRIGGER_SECRET").getD ""⟩ := by
  unfold ofLookup firstMissing? names
  simp only [required_eq, List.find?]
  -- The names are gone through from the first to the last, on both sides.
  cases isGiven lookup "API_ADDRESS" with
  | false => rfl
  | true =>
    cases isGiven lookup "GITLAB_TOKEN" with
    | false => rfl
    | true =>
      cases isGiven lookup "PUBLIC_ROOT_URL" with
      | false => rfl
      | true => cases isGiven lookup "TRIGGER_SECRET" <;> rfl

theorem isGiven_iff {name : String} :
    isGiven lookup name = true ↔ ∃ value, lookup name = some value ∧ isBlankText value = false := by
  simp only [isGiven, Option.any_eq_true, Bool.not_eq_true']

/-- None is missing exactly if all are given. -/
theorem firstMissing?_eq_none :
    firstMissing? lookup = none ↔ ∀ name ∈ names, isGiven lookup name = true := by
  rw [firstMissing?, List.find?_eq_none]
  apply forall₂_congr
  intro name _
  rw [Bool.not_eq_true', Bool.not_eq_false]

/-- The address is among the settings that are given. -/
theorem exists_address_of_complete (complete : firstMissing? lookup = none) :
    ∃ address, lookup "API_ADDRESS" = some address := by
  have given := firstMissing?_eq_none.1 complete "API_ADDRESS" (by decide)
  obtain ⟨address, present, _⟩ := isGiven_iff.1 given
  exact ⟨address, present⟩

/-- The secret of a service is the one that is given. -/
theorem secret_eq_of_ofLookup (found : ofLookup lookup = .ok settings) :
    lookup "TRIGGER_SECRET" = some settings.secret := by
  rw [ofLookup_eq] at found
  split at found
  · cases found
  · rename_i complete
    have given := firstMissing?_eq_none.1 complete "TRIGGER_SECRET" (by decide)
    obtain ⟨secret, present, _⟩ := isGiven_iff.1 given
    -- What is there is taken as it is.
    rw [← Except.ok.inj found, present]
    rfl

end Settings

/-- The service names the first setting that is not given; with all of them, all depends on whether
the address can be listened on. -/
theorem startService_eq (canListen : String → Bool) (lookup : String → Option String) :
    startService canListen lookup =
      match Settings.firstMissing? lookup with
      | some name => .error (.missingSetting ⟨name⟩)
      | none =>
        if canListen ((lookup "API_ADDRESS").getD "") then
          (Settings.ofLookup lookup).mapError .missingSetting
        else .error .notListening := by
  unfold startService
  rw [Settings.ofLookup_eq]
  cases Settings.firstMissing? lookup with
  | some name => rfl
  | none => rfl

/-- The three ends of a start: a setting is missing, or all are given, and then the address can be
listened on or not. -/
theorem startService_cases (canListen : String → Bool) (lookup : String → Option String) :
    (∃ name, Settings.firstMissing? lookup = some name ∧
        startService canListen lookup = .error (.missingSetting ⟨name⟩)) ∨
      ∃ address, Settings.firstMissing? lookup = none ∧ lookup "API_ADDRESS" = some address ∧
        (canListen address = true ∧ (∃ settings, startService canListen lookup = .ok settings) ∨
          canListen address = false ∧ startService canListen lookup = .error .notListening) := by
  rw [startService_eq, Settings.ofLookup_eq]
  cases missing : Settings.firstMissing? lookup with
  | some name => exact .inl ⟨name, rfl, rfl⟩
  | none =>
    obtain ⟨address, present⟩ := Settings.exists_address_of_complete missing
    refine .inr ⟨address, rfl, present, ?_⟩
    rw [present, Option.getD_some]
    cases canListen address with
    | true => exact .inl ⟨rfl, _, rfl⟩
    | false => exact .inr ⟨rfl, rfl⟩

/-- A service serves with the settings that it finds. -/
theorem ofLookup_of_startService (started : startService canListen lookup = .ok settings) :
    Settings.ofLookup lookup = .ok settings := by
  unfold startService at started
  obtain ⟨found, looked, started⟩ := exists_ok_of_bind started
  -- Nothing is done to the settings after they are found.
  split at started
  · rw [← Except.ok.inj started]
    exact mapError_eq_ok_iff.1 looked
  · cases started

namespace Incoming

variable {incoming : Incoming}

/-- A request that holds no trigger is refused with one of these statuses. -/
theorem status_of_trigger {refusal : Response} (refused : incoming.trigger = .error refusal) :
    refusal.status ∈ [400, 413, 415, 422] := by
  unfold Incoming.trigger at refused
  -- The checks come in the order of the service: the type, the length, the content.
  split at refused
  · rw [← Except.error.inj refused]
    show 415 ∈ [400, 413, 415, 422]
    decide
  · split at refused
    · rw [← Except.error.inj refused]
      show 413 ∈ [400, 413, 415, 422]
      decide
    · split at refused
      · cases refused
      · split at refused
        · rw [← Except.error.inj refused]
          exact List.mem_cons_self
        · rw [← Except.error.inj refused]
          show 422 ∈ [400, 413, 415, 422]
          decide

/-- A request is posted with a trigger, which is then served, or is refused at once. -/
theorem dispatch_cases (incoming : Incoming) (settings : Settings) (stamp : Stamp) :
    (∃ trigger, incoming.IsPosted ∧ incoming.trigger = .ok trigger ∧
        incoming.dispatch settings stamp =
          trigger.serve settings.secret settings.access (incoming.header? "x-request-id") stamp) ∨
      ∃ refusal : Response, refusal.status ∈ [400, 404, 405, 413, 415, 422] ∧
        incoming.dispatch settings stamp = pure refusal := by
  unfold Incoming.dispatch
  by_cases path : incoming.path.toList.takeWhile (· != '?') = triggerPath.toList
  · rw [if_neg (not_not_intro path)]
    by_cases method : incoming.method = "POST"
    · rw [if_neg (not_not_intro method)]
      cases found : incoming.trigger with
      | ok trigger => exact .inl ⟨trigger, ⟨path, method⟩, rfl, rfl⟩
      | error refusal =>
        have statuses := status_of_trigger found
        exact .inr ⟨refusal, by revert statuses; simp; omega, rfl⟩
    · rw [if_pos method]
      exact .inr ⟨_, by decide, rfl⟩
  · rw [if_pos path]
    exact .inr ⟨_, by decide, rfl⟩

end Incoming

/-- A trigger that knows the secret is answered for its decoration, and not for its secret. -/
theorem Trigger.status_serve {trigger : Trigger} {secret : String} (visible : trimmed secret ≠ "")
    (same : trimmed trigger.secret = trimmed secret) (access : Access) (requestId : Option String)
    (stamp : Stamp) (line : Line) :
    ((trigger.serve secret access requestId stamp).run line).1.status ∈ [200, 422, 502] := by
  rw [Trigger.run_serve, refuseSecret?_eq visible, if_pos same]
  dsimp only
  split
  · exact List.mem_cons_self
  · -- The analysis is at fault, or the server is.
    rename_i failure _ _
    cases failure with
    | analysis lack =>
      show 422 ∈ [200, 422, 502]
      decide
    | remote failure =>
      show 502 ∈ [200, 422, 502]
      decide

/-- The statuses with which a service that has a secret answers; it denies a right only to those
who post a trigger with another secret. -/
theorem Incoming.status_serve (incoming : Incoming) {settings : Settings}
    (visible : trimmed settings.secret ≠ "") (stamp : Stamp) (line : Line) :
    ((incoming.serve settings stamp).run line).1.status ∈
        [200, 400, 404, 405, 413, 415, 422, 502] ∨
      ((incoming.serve settings stamp).run line).1.status = 401 ∧ incoming.IsPosted ∧
        ∃ trigger, incoming.trigger = .ok trigger ∧
          trimmed trigger.secret ≠ trimmed settings.secret := by
  have status : ((incoming.serve settings stamp).run line).1.status =
      ((incoming.dispatch settings stamp).run line).1.status := Response.status_explained _ _ _
  rw [status]
  rcases incoming.dispatch_cases settings stamp with
    ⟨trigger, posted, found, dispatched⟩ | ⟨refusal, refused, dispatched⟩
  · rw [dispatched]
    by_cases same : trimmed trigger.secret = trimmed settings.secret
    · have statuses := Trigger.status_serve visible same settings.access
        (incoming.header? "x-request-id") stamp line
      have known : [200, 422, 502] ⊆ [200, 400, 404, 405, 413, 415, 422, 502] := by decide
      exact .inl (known statuses)
    · obtain ⟨after, _, run⟩ := trigger.serve_unauthorized visible same
        (incoming.header? "x-request-id") stamp line
      rw [run]
      exact .inr ⟨rfl, posted, trigger, found, same⟩
  · rw [dispatched]
    have known : [400, 404, 405, 413, 415, 422] ⊆ [200, 400, 404, 405, 413, 415, 422, 502] := by
      decide
    exact .inl (known refused)

/-- A response blames neither the service for its settings nor those who know its secret. -/
def Settings.Suffices (settings : Settings) (incoming : Incoming) (response : Response) : Prop :=
  response.status ≠ 500 ∧
    ∀ trigger, Json.readWhole Trigger.format.read incoming.body = .ok trigger →
      trimmed trigger.secret = trimmed settings.secret → response.status ≠ 401

/-- In an exchange, settings with a secret suffice. -/
theorem Incoming.suffices_serve (incoming : Incoming) {settings : Settings}
    (visible : trimmed settings.secret ≠ "") (stamp : Stamp) (line : Line) :
    settings.Suffices incoming ((incoming.serve settings stamp).run line).1 := by
  rcases incoming.status_serve visible stamp line with
    answered | ⟨denied, posted, trigger, taken, other⟩
  · constructor
    · intro fault
      rw [fault] at answered
      revert answered
      decide
    · intro trigger _ _ denied
      rw [denied] at answered
      revert answered
      decide
  · constructor
    · rw [denied]
      decide
    · -- The trigger that is taken up is the one that the body holds.
      intro same read known
      rw [incoming.readWhole_of_trigger taken, Except.ok.injEq] at read
      exact absurd (read ▸ known) other

/-- What holds of one exchange on every line holds of all exchanges. -/
theorem forall_mem_serveAll {property : Incoming → Response → Prop}
    (each : ∀ incoming stamp line,
      property incoming ((Incoming.serve incoming settings stamp).run line).1)
    (session : List (Incoming × Stamp)) (line : Line) :
    ∀ served ∈ serveAll settings session line, property served.incoming served.response := by
  induction session generalizing line with
  | nil => exact fun served member => absurd member List.not_mem_nil
  | cons head session ih =>
    obtain ⟨incoming, stamp⟩ := head
    -- The others are exchanged on the line that the first one leaves.
    exact List.forall_mem_cons.2 ⟨each incoming stamp line, ih _⟩

/-- The service starts exactly with all settings given and an address that can be listened on. If it
does not, it names the first setting that is not given or, with all of them, says that it cannot
listen. And whatever is asked of a service that starts, and whatever it hears from the server, it
never finds itself without a secret, and denies no right to those who know the one that is given. -/
theorem startService_configured (canListen : String → Bool) (lookup : String → Option String) :
    ((∃ settings, startService canListen lookup = .ok settings) ↔
        (∀ name ∈ Settings.names, ∃ value,
          lookup name = some value ∧ isBlankText value = false) ∧
          ∃ address, lookup "API_ADDRESS" = some address ∧ canListen address = true) ∧
      (∀ failure, startService canListen lookup = .error failure ↔
        (∃ name, Settings.firstMissing? lookup = some name ∧ failure = .missingSetting ⟨name⟩) ∨
          Settings.firstMissing? lookup = none ∧ failure = .notListening ∧
            ∃ address, lookup "API_ADDRESS" = some address ∧ canListen address = false) ∧
      ∀ settings, startService canListen lookup = .ok settings →
        lookup "TRIGGER_SECRET" = some settings.secret ∧
          ∀ session line, ∀ served ∈ serveAll settings session line,
            served.response.status ≠ 500 ∧
              ∀ trigger, Json.readWhole Trigger.format.read served.incoming.body = .ok trigger →
                trimmed trigger.secret = trimmed settings.secret →
                served.response.status ≠ 401 := by
  refine ⟨?starts, fun failure => ?fails, fun settings started => ?serves⟩
  case starts =>
    rw [← forall₂_congr fun name _ => Settings.isGiven_iff, ← Settings.firstMissing?_eq_none]
    rcases startService_cases canListen lookup with
      ⟨name, missing, ended⟩ |
      ⟨address, complete, present, ⟨listens, settings, ended⟩ | ⟨deaf, ended⟩⟩
    · simp [ended, missing]
    · simp [ended, complete, present, listens]
    · simp [ended, present, deaf]
  case fails =>
    rcases startService_cases canListen lookup with
      ⟨name, missing, ended⟩ |
      ⟨address, complete, present, ⟨listens, settings, ended⟩ | ⟨deaf, ended⟩⟩
    · simp [ended, missing, @eq_comm _ _ failure]
    · simp [ended, complete, present, listens]
    · simp [ended, complete, present, deaf, @eq_comm _ _ failure]
  case serves =>
    have found := ofLookup_of_startService started
    exact ⟨Settings.secret_eq_of_ofLookup found, forall_mem_serveAll fun incoming stamp line =>
      incoming.suffices_serve (Settings.secret_of_ofLookup found) stamp line⟩

/-- An environment with the secret `t`, which has blanks around it, some address and some token. -/
def environmentWith (address token : String) (name : String) : Option String :=
  [("API_ADDRESS", address), ("GITLAB_TOKEN", token), ("PUBLIC_ROOT_URL", "https://s"),
    ("TRIGGER_SECRET", "\u00A0t ")].lookup name

/-- With a blank token the service does not start, and says so; with another it starts, and the one
who says `t` is not denied the right to it. -/
theorem startService_configured_padded :
    startService (· == "127.0.0.1:8080") (environmentWith "127.0.0.1:8080" " ") =
        .error (.missingSetting ⟨"GITLAB_TOKEN"⟩) ∧
      ∀ served ∈ serveAll ⟨"127.0.0.1:8080", "g", "https://s", "\u00A0t "⟩
          [(strangerRequest, ⟨"", ""⟩)] (.fresh .plain [.silence]),
        served.response.status ≠ 500 ∧ served.response.status ≠ 401 := by
  obtain ⟨_, fails, _⟩ := startService_configured (· == "127.0.0.1:8080")
    (environmentWith "127.0.0.1:8080" " ")
  obtain ⟨_, _, serves⟩ := startService_configured (· == "127.0.0.1:8080")
    (environmentWith "127.0.0.1:8080" "g")
  refine ⟨(fails _).2 (.inl ⟨"GITLAB_TOKEN", by decide, rfl⟩), fun served member => ?_⟩
  obtain ⟨_, all⟩ := serves ⟨"127.0.0.1:8080", "g", "https://s", "\u00A0t "⟩ rfl
  obtain ⟨configured, known⟩ := all _ _ served member
  -- The only request is read as a trigger with the secret.
  obtain ⟨trigger, taken, told⟩ := @exists_ok_of_toOption _ _ _ strangerRequest.trigger
    Trigger.secret "t" (by decide +kernel)
  have only : served.incoming = strangerRequest := by
    rw [List.mem_singleton.1 member]
  refine ⟨configured, known trigger ?_ ?_⟩
  · rw [only]
    exact strangerRequest.readWhole_of_trigger taken
  · rw [told]
    decide

/-- With all settings given, but an address that is none, the service neither starts nor names a
setting. -/
theorem startService_unlistened :
    (∀ name ∈ Settings.names, ∃ value,
        environmentWith "x" "g" name = some value ∧ isBlankText value = false) ∧
      startService (· == "127.0.0.1:8080") (environmentWith "x" "g") = .error .notListening := by
  have complete : Settings.firstMissing? (environmentWith "x" "g") = none := by decide
  refine ⟨fun name member => ?_, rfl⟩
  exact Settings.isGiven_iff.1 (Settings.firstMissing?_eq_none.1 complete name member)

end MergeNotes
