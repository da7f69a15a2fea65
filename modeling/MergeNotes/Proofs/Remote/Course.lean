import MergeNotes.Proofs.Remote.Traffic

/-! Runs as courses of steps, each of which is one request: a run takes its steps in order, and
ends at the first that goes wrong. -/

namespace MergeNotes

variable {α β : Type}

/-- One request of a plan, and what is made of its answer. -/
structure Step where
  method : Method
  /-- Where the request goes, or why it is not even tried. -/
  address : Except RemoteFailure String
  form : Option Comment
  /-- What is wrong with the answer from an address, if anything is. -/
  fault? : String → Answer → Option RemoteFailure

/-- The wrong status of an answer. -/
def statusFault? (expected : Nat) (address : String) (answer : Answer) : Option RemoteFailure :=
  if answer.status = expected then none
  else some (.unexpectedStatus address expected answer.status answer.body)

namespace Step

/-- The request of a step reaches the server. -/
structure Sends (token : Token) (step : Step) (address : String) (url : Url)
    (before after : Line) : Prop where
  addressed : step.address = .ok address
  requested : requestUrl address = .ok url
  reached : before.reach.connects url = true
  quiet : (before.sent (requestFor token step.method url step.form)).Quiet after

/-- A step goes wrong, for one of five reasons. -/
inductive Breaks (token : Token) (step : Step) (before : Line) : RemoteFailure → Line → Prop where
  | unaddressed {failure : RemoteFailure} {after : Line} (missing : step.address = .error failure)
      (quiet : before.Quiet after) : Breaks token step before failure after
  | refused {address : String} {failure : RemoteFailure} {after : Line}
      (addressed : step.address = .ok address) (refused : requestUrl address = .error failure)
      (quiet : before.Quiet after) : Breaks token step before failure after
  | unreached {address : String} {url : Url} {after : Line} (addressed : step.address = .ok address)
      (requested : requestUrl address = .ok url) (apart : before.reach.connects url = false)
      (quiet : before.Quiet after) : Breaks token step before (before.reach.failure url) after
  | unanswered {address : String} {url : Url} {failure : RemoteFailure} {after : Line}
      (sends : step.Sends token address url before after)
      (broken : before.reply.receive url = .error failure) : Breaks token step before failure after
  | faulty {address : String} {url : Url} {answer : Answer} {failure : RemoteFailure} {after : Line}
      (sends : step.Sends token address url before after)
      (answered : before.reply.answer? = some answer)
      (fault : step.fault? address answer = some failure) : Breaks token step before failure after

end Step

/-- Steps are taken in order, and all of them go well. -/
inductive Completes (token : Token) : List Step → Line → Line → Prop where
  | nil {before after : Line} (quiet : before.Quiet after) : Completes token [] before after
  | cons {step : Step} {steps : List Step} {address : String} {url : Url} {answer : Answer}
      {before between after : Line} (sends : step.Sends token address url before between)
      (answered : before.reply.answer? = some answer)
      (faultless : step.fault? address answer = none)
      (rest : Completes token steps between after) : Completes token (step :: steps) before after

/-- Steps are taken in order until one of them goes wrong. -/
inductive BreaksOff (token : Token) (steps : List Step) (before : Line) (failure : RemoteFailure)
    (after : Line) : Prop where
  | intro (done : List Step) (step : Step) (rest : List Step) (between : Line)
      (split : steps = done ++ step :: rest) (completes : Completes token done before between)
      (breaks : step.Breaks token between failure after) :
      BreaksOff token steps before failure after

/-- A run takes steps: a value with some property means that all went well, and a failure that
one of them went wrong. -/
def CarriesOut (token : Token) (steps : List Step) (property : α → Prop) (before : Line) :
    Except Failure α × Line → Prop
  | (.ok value, after) => Completes token steps before after ∧ property value
  | (.error failure, after) =>
    ∃ remote, failure = .remote remote ∧ BreaksOff token steps before remote after

theorem Step.Sends.of_quiet {token : Token} {step : Step} {address : String} {url : Url}
    {before other after : Line} (quiet : before.Quiet other)
    (sends : step.Sends token address url other after) :
    step.Sends token address url before after :=
  ⟨sends.addressed, sends.requested, quiet.reach ▸ sends.reached,
    (quiet.sent _).trans sends.quiet⟩

theorem Step.Breaks.of_quiet {token : Token} {step : Step} {before other after : Line}
    {failure : RemoteFailure} (quiet : before.Quiet other)
    (breaks : step.Breaks token other failure after) : step.Breaks token before failure after := by
  cases breaks with
  | unaddressed missing still => exact .unaddressed missing (quiet.trans still)
  | refused addressed refused still => exact .refused addressed refused (quiet.trans still)
  | unreached addressed requested apart still =>
    rw [quiet.reach] at apart ⊢
    exact .unreached addressed requested apart (quiet.trans still)
  | unanswered sends broken => exact .unanswered (sends.of_quiet quiet) (quiet.reply ▸ broken)
  | faulty sends answered fault =>
    exact .faulty (sends.of_quiet quiet) (quiet.reply ▸ answered) fault

theorem Completes.of_quiet {token : Token} {steps : List Step} {before other after : Line}
    (quiet : before.Quiet other) (completes : Completes token steps other after) :
    Completes token steps before after := by
  cases completes with
  | nil still => exact .nil (quiet.trans still)
  | cons sends answered faultless rest =>
    exact .cons (sends.of_quiet quiet) (quiet.reply ▸ answered) faultless rest

/-- Courses of steps follow one another. -/
theorem Completes.append {token : Token} {first second : List Step} {before between after : Line}
    (earlier : Completes token first before between)
    (later : Completes token second between after) :
    Completes token (first ++ second) before after := by
  -- The last state of the first course is where the second begins, up to notes.
  induction earlier with
  | nil quiet => exact later.of_quiet quiet
  | cons sends answered faultless _ ih => exact .cons sends answered faultless (ih later)

/-- Notes behind the last step make no difference. -/
theorem Completes.quiet {token : Token} {steps : List Step} {before between after : Line}
    (completes : Completes token steps before between) (quiet : between.Quiet after) :
    Completes token steps before after := by
  simpa using completes.append (.nil quiet)

/-- What breaks off still breaks off when there would have been more to do. -/
theorem BreaksOff.append {token : Token} {steps : List Step} {before after : Line}
    {failure : RemoteFailure} (broken : BreaksOff token steps before failure after)
    (more : List Step) : BreaksOff token (steps ++ more) before failure after := by
  obtain ⟨done, step, rest, between, split, completes, breaks⟩ := broken
  exact ⟨done, step, rest ++ more, between, by rw [split, List.append_assoc, List.cons_append],
    completes, breaks⟩

/-- A course that breaks off behind another one breaks off as a whole. -/
theorem Completes.breaksOff {token : Token} {steps more : List Step} {before between after : Line}
    {failure : RemoteFailure} (completes : Completes token steps before between)
    (broken : BreaksOff token more between failure after) :
    BreaksOff token (steps ++ more) before failure after := by
  -- What was completed before the break goes in front of what was completed first.
  obtain ⟨done, step, rest, last, split, later, breaks⟩ := broken
  exact ⟨steps ++ done, step, rest, last, by rw [split, List.append_assoc],
    completes.append later, breaks⟩

namespace CarriesOut

variable {token : Token} {steps : List Step} {property : α → Prop} {before : Line}

/-- A value that needs no request. -/
theorem pure {value : α} (holds : property value) :
    CarriesOut token [] property before ((Pure.pure value : Run α).run before) :=
  ⟨.nil before.quiet_refl, holds⟩

/-- What a run takes from one state of the line it takes from any other with the same traffic. -/
theorem of_quiet {other : Line} {ending : Except Failure α × Line} (quiet : before.Quiet other)
    (carries : CarriesOut token steps property other ending) :
    CarriesOut token steps property before ending := by
  match ending, carries with
  | (.ok value, after), ⟨completes, holds⟩ => exact ⟨completes.of_quiet quiet, holds⟩
  | (.error failure, after),
    ⟨remote, same, ⟨done, step, rest, between, split, completes, breaks⟩⟩ =>
    exact ⟨remote, same, ⟨done, step, rest, between, split, completes.of_quiet quiet, breaks⟩⟩

/-- A note ahead of a run takes no step. -/
theorem note {event : Event} {next : Unit → Run α}
    (carries : CarriesOut token steps property (before.noted event)
      ((next ()).run (before.noted event))) :
    CarriesOut token steps property before
      (((liftM (MergeNotes.note event) : Run Unit) >>= next).run before) := by
  rw [Run.run_note_bind]
  -- A note leaves the line as it was but for the note.
  exact carries.of_quiet (before.quiet_noted event)

/-- A run either breaks off, or has its value and goes on from there. -/
theorem cases_bind {work : Run α}
    (carries : CarriesOut token steps property before (work.run before)) (next : α → Run β) :
    (∃ remote after, (work >>= next).run before = (.error (.remote remote), after) ∧
      BreaksOff token steps before remote after) ∨
    ∃ value between, (work >>= next).run before = (next value).run between ∧
      Completes token steps before between ∧ property value := by
  rw [Run.run_bind]
  match work.run before, carries with
  | (.ok value, between), ⟨completes, holds⟩ => exact .inr ⟨value, between, rfl, completes, holds⟩
  | (.error failure, after), ⟨remote, same, broken⟩ =>
    subst same
    exact .inl ⟨remote, after, rfl, broken⟩

/-- Runs one after the other take their steps one after the other. -/
theorem bind {more : List Step} {goal : β → Prop} {work : Run α} {next : α → Run β}
    (first : CarriesOut token steps property before (work.run before))
    (second : ∀ value between, property value → Completes token steps before between →
      CarriesOut token more goal between ((next value).run between)) :
    CarriesOut token (steps ++ more) goal before ((work >>= next).run before) := by
  rcases first.cases_bind next with
    ⟨remote, after, run, broken⟩ | ⟨value, between, run, completes, holds⟩
  · rw [run]
    exact ⟨remote, rfl, broken.append more⟩
  · rw [run]
    have carries := second value between holds completes
    match (next value).run between, carries with
    | (.ok final, after), ⟨later, reached⟩ => exact ⟨completes.append later, reached⟩
    | (.error failure, after), ⟨remote, same, broken⟩ =>
      exact ⟨remote, same, completes.breaksOff broken⟩

end CarriesOut

/-- The request of a step, where one is possible. -/
def Step.request? (token : Token) (step : Step) : Option Request :=
  match step.address with
  | .error _ => none
  | .ok address =>
    match requestUrl address with
    | .error _ => none
    | .ok url => some (requestFor token step.method url step.form)

/-- A request that a step leads to has its method, and goes where its address says. -/
theorem Step.of_request? {token : Token} {step : Step} {request : Request}
    (found : step.request? token = some request) :
    request.method = step.method ∧ ∃ address url, step.address = .ok address ∧
      requestUrl address = .ok url ∧ request = requestFor token step.method url step.form := by
  unfold Step.request? at found
  split at found
  · simp at found
  · split at found
    · simp at found
    · rename_i address addressed _ url requested
      rw [Option.some.injEq] at found
      exact ⟨found ▸ rfl, address, url, addressed, requested, found.symm⟩

/-- A reply is what a step needs: it is complete, and without fault. -/
def Step.Accepts (step : Step) (reply : Reply) : Prop :=
  ∃ address answer, step.address = .ok address ∧ reply.answer? = some answer ∧
    step.fault? address answer = none

/-- The replies in their order are what steps in their order need. -/
def AllAccepted : List Step → List Reply → Prop
  | [], _ => True
  | step :: steps, replies => step.Accepts (replies.headD .silence) ∧ AllAccepted steps replies.tail

/-- To be accepted up to the end is to be accepted at the end too. -/
theorem allAccepted_append {first second : List Step} :
    ∀ {replies : List Reply}, AllAccepted (first ++ second) replies ↔
      AllAccepted first replies ∧ AllAccepted second (replies.drop first.length) := by
  -- Along the steps of the first part, each of which takes one reply from the front.
  induction first with
  | nil => simp [AllAccepted]
  | cons step first ih =>
    intro replies
    simp only [List.cons_append, AllAccepted, ih, List.length_cons, List.drop_tail, and_assoc]

/-- What is accepted throughout is accepted up to the last step. -/
theorem AllAccepted.dropLast {steps : List Step} {replies : List Reply}
    (accepted : AllAccepted steps replies) : AllAccepted steps.dropLast replies := by
  -- All but the last step are a beginning of the steps.
  rw [← List.take_append_drop (steps.length - 1) steps, allAccepted_append] at accepted
  rw [List.dropLast_eq_take]
  exact accepted.1

theorem Step.Sends.request? {token : Token} {step : Step} {address : String} {url : Url}
    {before after : Line} (sends : step.Sends token address url before after) :
    step.request? token = some (requestFor token step.method url step.form) := by
  simp only [Step.request?, sends.addressed, sends.requested]

/-- Each step that is taken sends its request, and uses up one reply. -/
theorem Completes.traffic {token : Token} {steps : List Step} {before after : Line}
    (completes : Completes token steps before after) :
    after.replies = before.replies.drop steps.length ∧
      ∃ sent, after.requests = before.requests ++ sent ∧
        sent.map some = steps.map (Step.request? token) := by
  induction completes with
  | nil quiet =>
    -- Notes alone send nothing.
    rw [quiet.replies, quiet.requests]
    exact ⟨by rw [List.length_nil, List.drop_zero], [], by rw [List.append_nil], rfl⟩
  | @cons step steps address url answer before between after sends _ _ _ ih =>
    -- The request of this step comes before those of the rest, and its reply is used up.
    obtain ⟨left, sent, requests, same⟩ := ih
    refine ⟨?_, requestFor token step.method url step.form :: sent, ?_, ?_⟩
    · rw [left, sends.quiet.replies, Line.sent, List.length_cons, List.drop_tail]
    · rw [requests, sends.quiet.requests, Line.sent, List.append_assoc, List.singleton_append]
    · rw [List.map_cons, List.map_cons, same, sends.request?]

/-- Steps are completed by replies that they accept. -/
theorem Completes.allAccepted {token : Token} {steps : List Step} {before after : Line}
    (completes : Completes token steps before after) : AllAccepted steps before.replies := by
  induction completes with
  | nil => trivial
  | cons sends answered faultless _ ih =>
    refine ⟨⟨_, _, sends.addressed, answered, faultless⟩, ?_⟩
    -- The step used up the first reply, so that the rest is about the others.
    rwa [sends.quiet.replies] at ih

/-- Steps never change which servers can be reached. -/
theorem Completes.reach {token : Token} {steps : List Step} {before after : Line}
    (completes : Completes token steps before after) : after.reach = before.reach := by
  induction completes with
  | nil quiet => exact quiet.reach
  | cons sends _ _ _ ih => exact ih.trans sends.quiet.reach

/-- For each step that is taken a request is possible. -/
theorem Completes.requested {token : Token} {steps : List Step} {before after : Line}
    (completes : Completes token steps before after) {step : Step} (member : step ∈ steps) :
    ∃ address url, step.address = .ok address ∧ requestUrl address = .ok url := by
  induction completes with
  | nil => simp at member
  | cons sends _ _ _ ih =>
    -- The step itself was sent, and a later one was by what holds of the rest.
    rcases List.mem_cons.1 member with rfl | later
    · exact ⟨_, _, sends.addressed, sends.requested⟩
    · exact ih later

/-- What is not received is not accepted; a reply that is received at one address is received at
any. -/
theorem Step.not_accepts_of_receive {step : Step} {reply : Reply} {url : Url}
    {failure : RemoteFailure} (broken : reply.receive url = .error failure) :
    ¬ step.Accepts reply := by
  rintro ⟨_, answer, _, answered, _⟩
  rw [Reply.receive_eq_ok_iff.2 answered] at broken
  simp at broken

/-- A reply with a fault is not accepted. -/
theorem Step.not_accepts_of_fault {step : Step} {reply : Reply} {address : String} {answer : Answer}
    {failure : RemoteFailure} (addressed : step.address = .ok address)
    (answered : reply.answer? = some answer) (fault : step.fault? address answer = some failure) :
    ¬ step.Accepts reply := by
  rintro ⟨_, answer, found, same, faultless⟩
  rw [addressed, Except.ok.injEq] at found
  rw [answered, Option.some.injEq] at same
  -- The answer is the one that was found at fault.
  rw [← found, ← same, fault] at faultless
  simp at faultless

/-- A step that goes wrong either sends nothing, or sends its request and gets a reply that it
does not accept. -/
theorem Step.Breaks.traffic {token : Token} {step : Step} {before after : Line}
    {failure : RemoteFailure} (breaks : step.Breaks token before failure after) :
    before.Quiet after ∨
      (∃ address url, step.Sends token address url before after) ∧ ¬ step.Accepts before.reply := by
  cases breaks with
  -- Three ways to fail come before anything is sent, and two after.
  | unaddressed _ quiet => exact .inl quiet
  | refused _ _ quiet => exact .inl quiet
  | unreached _ _ _ quiet => exact .inl quiet
  | unanswered sends broken => exact .inr ⟨⟨_, _, sends⟩, not_accepts_of_receive broken⟩
  | faulty sends answered fault =>
    exact .inr ⟨⟨_, _, sends⟩, not_accepts_of_fault sends.addressed answered fault⟩

/-- The request of a step can be sent. -/
def Step.IsSendable (reach : Reach) (step : Step) : Prop :=
  ∃ address url, step.address = .ok address ∧ requestUrl address = .ok url ∧
    reach.connects url = true

/-- A step whose request can be sent goes wrong only with a reply that it does not accept. -/
theorem Step.Breaks.not_accepts {token : Token} {step : Step} {before after : Line}
    {failure : RemoteFailure} (breaks : step.Breaks token before failure after)
    (sendable : step.IsSendable before.reach) : ¬ step.Accepts before.reply := by
  obtain ⟨address, url, addressed, requested, reached⟩ := sendable
  cases breaks with
  | unaddressed missing _ => simp [addressed] at missing
  | refused found refused _ =>
    rw [addressed, Except.ok.injEq] at found
    simp [← found, requested] at refused
  | unreached found asked apart _ =>
    rw [addressed, Except.ok.injEq] at found
    rw [← found, requested, Except.ok.injEq] at asked
    simp [← asked, reached] at apart
  | unanswered sends broken => exact not_accepts_of_receive broken
  | faulty sends answered fault => exact not_accepts_of_fault sends.addressed answered fault

/-- A step for which no request is possible goes wrong in silence, and in no other way. -/
theorem Step.Breaks.of_refused {token : Token} {step : Step} {before after : Line}
    {address : String} {failure reason : RemoteFailure}
    (breaks : step.Breaks token before failure after) (addressed : step.address = .ok address)
    (refused : requestUrl address = .error reason) : failure = reason ∧ before.Quiet after := by
  -- In three of the five ways a request was possible, which it is not here.
  have unsent : ∀ {other url}, step.address = .ok other → requestUrl other ≠ .ok url := by
    intro other url found requested
    rw [addressed, Except.ok.injEq] at found
    simp [← found, refused] at requested
  cases breaks with
  | unaddressed missing _ => simp [addressed] at missing
  | refused found known quiet =>
    rw [addressed, Except.ok.injEq] at found
    rw [← found, refused, Except.error.injEq] at known
    exact ⟨known.symm, quiet⟩
  | unreached found requested _ _ => exact absurd requested (unsent found)
  | unanswered sends _ => exact absurd sends.requested (unsent sends.addressed)
  | faulty sends _ _ => exact absurd sends.requested (unsent sends.addressed)

/-- When requests can be sent for steps that all accept their replies, a course breaks off behind
them. -/
theorem BreaksOff.behind {token : Token} {steps more : List Step} {after : Line}
    {failure : RemoteFailure} :
    ∀ {before : Line}, BreaksOff token (steps ++ more) before failure after →
      AllAccepted steps before.replies →
      (∀ step ∈ steps, step.IsSendable before.reach) →
      ∃ between, Completes token steps before between ∧
        BreaksOff token more between failure after := by
  induction steps with
  | nil => exact fun broken _ _ => ⟨_, .nil (Line.quiet_refl _), broken⟩
  | cons step steps ih =>
    intro before ⟨done, last, rest, middle, split, completes, breaks⟩ ⟨accepts, accepted⟩ sendable
    cases completes with
    | nil quiet =>
      -- The first step does not go wrong.
      rw [List.cons_append, List.nil_append, List.cons.injEq] at split
      have first := sendable step List.mem_cons_self
      rw [split.1] at first accepts
      exact absurd accepts ((breaks.of_quiet quiet).not_accepts first)
    | @cons first done address url answer _ between _ sends answered faultless later =>
      -- The first step went well, so the course breaks off among the later ones.
      rw [List.cons_append, List.cons_append, List.cons.injEq] at split
      obtain ⟨rfl, split⟩ := split
      obtain ⟨final, completes, broken⟩ := ih ⟨done, last, rest, middle, split, later, breaks⟩
        (by rw [sends.quiet.replies]; exact accepted)
        (fun other member => by
          rw [sends.quiet.reach]
          exact sendable other (List.mem_cons_of_mem _ member))
      exact ⟨final, .cons sends answered faultless completes, broken⟩

/-- What breaks off has sent the requests of a beginning of its steps, of which only the last can
have got a reply that it did not accept; and either that happened, or something was left. -/
theorem BreaksOff.traffic {token : Token} {steps : List Step} {before after : Line}
    {failure : RemoteFailure} (broken : BreaksOff token steps before failure after) :
    ∃ taken, taken <+: steps ∧ after.replies = before.replies.drop taken.length ∧
      (∃ sent, after.requests = before.requests ++ sent ∧
        sent.map some = taken.map (Step.request? token)) ∧
      AllAccepted taken.dropLast before.replies ∧
      ¬ (taken = steps ∧ AllAccepted steps before.replies) := by
  obtain ⟨done, step, rest, between, split, completes, breaks⟩ := broken
  -- What was sent before the step that went wrong is known; the step adds its request, or nothing.
  obtain ⟨left, sent, requests, same⟩ := completes.traffic
  have accepted := completes.allAccepted
  rcases breaks.traffic with quiet | ⟨⟨address, url, sends⟩, unaccepted⟩
  · -- Nothing was sent: what was taken ends before the step, so it is not all.
    refine ⟨done, ⟨step :: rest, split.symm⟩, by rw [quiet.replies, left],
      ⟨sent, by rw [quiet.requests, requests], same⟩, accepted.dropLast, fun ⟨all, _⟩ => ?_⟩
    have lengths := congrArg List.length (all.trans split)
    simp at lengths
  · refine ⟨done ++ [step], ⟨rest, by rw [split, List.append_assoc, List.singleton_append]⟩, ?_,
      ⟨sent ++ [requestFor token step.method url step.form], ?_, ?_⟩, ?_, fun ⟨_, all⟩ => ?_⟩
    · -- The step was sent, so what was taken ends with it.
      rw [sends.quiet.replies, Line.sent, left, List.length_append, List.length_singleton,
        List.tail_drop]
    · rw [sends.quiet.requests, Line.sent, requests, List.append_assoc]
    · rw [List.map_append, List.map_append, same, List.map_singleton, List.map_singleton,
        sends.request?]
    · rwa [List.dropLast_concat]
    · -- Had all replies been accepted, so had that to this step.
      rw [split, allAccepted_append] at all
      refine unaccepted ?_
      rw [Line.reply, left]
      exact all.2.1

/-- An exchange is one step, when what follows it fails exactly on a faulty answer. -/
theorem carriesOut_exchange {token : Token} {property : α → Prop} {before : Line}
    {next : Answer → Run α} (step : Step) {address : String}
    (addressed : step.address = .ok address)
    (faulty : ∀ answer failure line, step.fault? address answer = some failure →
      ∃ after, (next answer).run line = (.error (.remote failure), after) ∧ line.Quiet after)
    (faultless : ∀ answer line, before.reply.answer? = some answer →
      step.fault? address answer = none →
      ∃ value after, (next answer).run line = (.ok value, after) ∧ line.Quiet after ∧
        property value) :
    CarriesOut token [step] property before
      ((exchange token step.method address step.form >>= next).run before) := by
  rw [Run.run_bind, run_exchange]
  -- One case for each way in which a step can go wrong, and the last where it goes well.
  cases asked : requestUrl address with
  | error failure =>
    exact ⟨failure, rfl, ⟨[], step, [], before, rfl, .nil before.quiet_refl,
      .refused addressed asked before.quiet_refl⟩⟩
  | ok url =>
    cases reached : before.reach.connects url with
    | false =>
      simp only [reached, Bool.false_eq_true, if_false]
      exact ⟨_, rfl, ⟨[], step, [], before, rfl, .nil before.quiet_refl,
        .unreached addressed asked reached before.quiet_refl⟩⟩
    | true =>
      simp only [reached, if_true]
      cases received : before.reply.receive url with
      | error failure =>
        exact ⟨failure, rfl, ⟨[], step, [], before, rfl, .nil before.quiet_refl,
          .unanswered ⟨addressed, asked, reached, Line.quiet_refl _⟩ received⟩⟩
      | ok answer =>
        have answered := Reply.receive_eq_ok_iff.1 received
        -- The answer is there; whether it is faulty decides what follows.
        cases fault : step.fault? address answer with
        | some failure =>
          obtain ⟨after, run, quiet⟩ := faulty answer failure
            (before.sent (requestFor token step.method url step.form)) fault
          simp only [run]
          exact ⟨failure, rfl, ⟨[], step, [], before, rfl, .nil before.quiet_refl,
            .faulty ⟨addressed, asked, reached, quiet⟩ answered fault⟩⟩
        | none =>
          obtain ⟨value, after, run, quiet, holds⟩ := faultless answer
            (before.sent (requestFor token step.method url step.form)) answered fault
          simp only [run]
          exact ⟨.cons ⟨addressed, asked, reached, quiet⟩ answered fault
            (.nil (Line.quiet_refl _)), holds⟩

end MergeNotes
