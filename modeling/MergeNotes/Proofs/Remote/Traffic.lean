import MergeNotes.Remote.Exchange

/-! What runs do to a line, its notes aside: the replies that they use up and the requests that
they leave behind. -/

namespace MergeNotes

variable {α β : Type}

/-- Nothing passed between two states of a line, though notes may have been taken. -/
structure Line.Quiet (before after : Line) : Prop where
  reach : after.reach = before.reach
  replies : after.replies = before.replies
  requests : after.requests = before.requests

namespace Line

/-- A line after one more request, which uses up one reply. -/
def sent (line : Line) (request : Request) : Line :=
  { line with replies := line.replies.tail, requests := line.requests ++ [request] }

/-- The reply to the next request; when the replies are used up there is silence. -/
def reply (line : Line) : Reply :=
  line.replies.headD .silence

/-- A line with one more note. -/
def noted (line : Line) (event : Event) : Line :=
  { line with events := line.events ++ [event] }

@[simp] theorem quiet_refl (line : Line) : line.Quiet line :=
  ⟨rfl, rfl, rfl⟩

@[simp] theorem quiet_noted (line : Line) (event : Event) : line.Quiet (line.noted event) :=
  ⟨rfl, rfl, rfl⟩

theorem Quiet.trans {before between after : Line} (first : before.Quiet between)
    (second : between.Quiet after) : before.Quiet after :=
  ⟨second.reach.trans first.reach, second.replies.trans first.replies,
    second.requests.trans first.requests⟩

theorem Quiet.symm {before after : Line} (quiet : before.Quiet after) : after.Quiet before :=
  ⟨quiet.reach.symm, quiet.replies.symm, quiet.requests.symm⟩

/-- A note does not change which reply comes next. -/
theorem Quiet.reply {before after : Line} (quiet : before.Quiet after) :
    after.reply = before.reply := by
  simp only [Line.reply, quiet.replies]

/-- Taking notes before a request is as good as taking them behind it. -/
theorem Quiet.sent {before after : Line} (quiet : before.Quiet after) (request : Request) :
    (before.sent request).Quiet (after.sent request) :=
  ⟨quiet.reach, by simp only [Line.sent, quiet.replies],
    by simp only [Line.sent, quiet.requests]⟩

end Line

namespace Run

@[simp] theorem run_pure (value : α) (line : Line) :
    (pure value : Run α).run line = (.ok value, line) :=
  rfl

@[simp] theorem run_failRemote (failure : RemoteFailure) (line : Line) :
    (failRemote failure : Run α).run line = (.error (.remote failure), line) :=
  rfl

@[simp] theorem run_ofRemote_ok (value : α) (line : Line) :
    (ofRemote (.ok value)).run line = (.ok value, line) :=
  rfl

@[simp] theorem run_ofRemote_error (failure : RemoteFailure) (line : Line) :
    (ofRemote (.error failure) : Run α).run line = (.error (.remote failure), line) :=
  rfl

@[simp] theorem run_ofAnalysis_ok (value : α) (line : Line) :
    (ofAnalysis (.ok value)).run line = (.ok value, line) :=
  rfl

/-- The second part of a run starts on the line that the first part leaves, unless that failed. -/
theorem run_bind (work : Run α) (next : α → Run β) (line : Line) :
    (work >>= next).run line =
      match work.run line with
      | (.ok value, after) => (next value).run after
      | (.error failure, after) => (.error failure, after) := by
  -- The bind of the two layers, failure above state, is one match on how the first part ended.
  change (ExceptT.bind work next) line = _
  simp only [ExceptT.bind, ExceptT.mk, bind, StateT.bind]
  change (match work line with | (result, after) => ExceptT.bindCont next result after) = _
  cases found : work line with
  | mk result after => cases result <;> simp only [ExceptT.run, found] <;> rfl

@[simp] theorem run_note (event : Event) (line : Line) :
    (liftM (note event) : Run Unit).run line = (.ok (), line.noted event) :=
  rfl

@[simp] theorem run_get (line : Line) : (get : Run Line).run line = (.ok line, line) :=
  rfl

@[simp] theorem run_set (line other : Line) : (set other : Run Unit).run line = (.ok (), other) :=
  rfl

/-- A note ahead of a run only changes the line that the run starts on. -/
@[simp] theorem run_note_bind (event : Event) (next : Unit → Run α) (line : Line) :
    ((liftM (note event) : Run Unit) >>= next).run line = (next ()).run (line.noted event) := by
  rw [run_bind, run_note]

end Run

/-- What a reply says, unless it breaks off or is late. -/
def Reply.answer? : Reply → Option Answer
  | .silence | .overdue => none
  | .answer status links body complete =>
    if isBodiless status then some ⟨status, links, ""⟩
    else if complete then some ⟨status, links, Utf8.bodyText body⟩
    else none

/-- A reply is received exactly when it says something. -/
theorem Reply.receive_eq_ok_iff {url : Url} {reply : Reply} {answer : Answer} :
    reply.receive url = .ok answer ↔ reply.answer? = some answer := by
  cases reply with
  -- Silence is neither received nor an answer, and what is late is neither.
  | silence => simp [Reply.receive, Reply.answer?]
  | overdue => simp [Reply.receive, Reply.answer?]
  | answer status links body complete =>
    -- Both sides ask in the same order: no body to wait for, or all of it there.
    simp only [Reply.receive, Reply.answer?]
    split
    · simp
    · split <;> simp

/-- A failure to get through: the answer is late, or there is none that is whole. -/
def RemoteFailure.IsTransport (failure : RemoteFailure) : Prop :=
  failure = .timeout ∨ ∃ detail, failure = .network detail

/-- A reply that is not received is late or breaks off. -/
theorem Reply.receive_eq_error {url : Url} {reply : Reply} {failure : RemoteFailure}
    (unread : reply.receive url = .error failure) :
    (failure = .timeout ∧ reply = .overdue ∨ ∃ detail, failure = .network detail) ∧
      reply.answer? = none := by
  cases reply with
  | overdue =>
    rw [Reply.receive, Except.error.injEq] at unread
    exact ⟨.inl ⟨unread.symm, rfl⟩, rfl⟩
  -- Silence and a body that breaks off are the two other ways not to be received.
  | silence =>
    rw [Reply.receive, Except.error.injEq] at unread
    exact ⟨.inr ⟨_, unread.symm⟩, rfl⟩
  | answer status links body complete =>
    simp only [Reply.receive] at unread
    simp only [Reply.answer?]
    split at unread
    · simp at unread
    · split at unread
      · simp at unread
      · rename_i bodied incomplete
        rw [Except.error.injEq] at unread
        exact ⟨.inr ⟨_, unread.symm⟩, by simp [bodied, incomplete]⟩

/-- A reply that is not received says nothing, and what is at fault is the transport. -/
theorem Reply.isTransport_of_receive {url : Url} {reply : Reply} {failure : RemoteFailure}
    (unread : reply.receive url = .error failure) :
    failure.IsTransport ∧ reply.answer? = none := by
  obtain ⟨⟨late, _⟩ | broken, silent⟩ := Reply.receive_eq_error unread
  · exact ⟨.inl late, silent⟩
  · exact ⟨.inr broken, silent⟩

/-- Where no connection is made, it takes too long or fails. -/
theorem Reach.cases_of_apart {reach : Reach} {url : Url} (apart : reach.connects url = false) :
    reach.connect url = .overdue ∧ reach.failure url = .timeout ∨
      reach.connect url = .failed ∧ reach.failure url = sendingFailed url := by
  unfold Reach.connects at apart
  unfold Reach.failure
  cases found : reach.connect url with
  | made => simp [found] at apart
  | failed => exact .inr ⟨rfl, rfl⟩
  | overdue => exact .inl ⟨rfl, rfl⟩

/-- Without a connection, what is at fault is the transport. -/
theorem Reach.isTransport_failure (reach : Reach) (url : Url) :
    (reach.failure url).IsTransport := by
  unfold Reach.failure
  split
  · exact .inl rfl
  · exact .inr ⟨_, rfl⟩
  · exact .inr ⟨_, rfl⟩

/-- The three ends of an exchange: no request is possible, none arrives, or one does and is
answered by the next reply. -/
theorem run_exchange (token : Token) (method : Method) (address : String) (form : Option Comment)
    (line : Line) :
    (exchange token method address form).run line =
      match requestUrl address with
      | .error failure => (.error (.remote failure), line)
      | .ok url =>
        if line.reach.connects url then
          match line.reply.receive url with
          | .ok answer => (.ok answer, line.sent (requestFor token method url form))
          | .error failure =>
            (.error (.remote failure), line.sent (requestFor token method url form))
        else (.error (.remote (line.reach.failure url)), line) := by
  -- Each of the three tests on the way is one case, in the order in which they are made.
  unfold exchange
  rw [Run.run_bind]
  cases asked : requestUrl address with
  | error failure => rfl
  | ok url =>
    simp only [Run.run_ofRemote_ok, Run.run_bind, Run.run_get]
    cases reached : line.reach.connects url with
    | false => simp [Run.run_bind]
    | true =>
      simp only [Bool.not_true, Bool.false_eq_true, if_false, if_true, Run.run_bind,
        Run.run_set]
      -- The request has left: whatever the reply is, it is used up.
      change (Run.ofRemote (line.reply.receive url)).run
        (line.sent (requestFor token method url form)) = _
      cases line.reply.receive url <;> rfl

end MergeNotes
