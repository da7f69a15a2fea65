import Mathlib.Data.List.TakeDrop
import MergeNotes.Proofs.Remote.Pages
import MergeNotes.Proofs.Remote.Refusal
import MergeNotes.Status

/-! What runs note down goes with what passes on the line: what is noted as posted was posted, and
a failure that is noted is noted once and last. -/

namespace MergeNotes

open Json (Format)

variable {α β : Type}

/-- A request that posts a form. -/
def Request.postsForm (request : Request) : Bool :=
  request.method == .post && request.headers.any (·.1 == "content-type")

/-- A request that posts, but no form. -/
def Request.postsBare (request : Request) : Bool :=
  request.method == .post && !request.headers.any (·.1 == "content-type")

/-- A reply that is complete and has the status of what was created. -/
def Reply.isCreated : Reply → Bool
  | .silence | .overdue => false
  | .answer status _ _ complete => status == 201 && complete

/-- A reply that has the words for a status that is set. -/
def Reply.refusesTransition : Reply → Bool
  | .silence | .overdue => false
  | .answer _ _ body _ => mentions (Utf8.bodyText body) transitionRefusal

/-- A comment was posted, as its request and the reply to it show. -/
def isPostedComment (passed : Request × Reply) : Bool :=
  passed.1.postsForm && passed.2.isCreated

/-- A status was posted, as its request and the reply to it show. -/
def isPostedStatus (passed : Request × Reply) : Bool :=
  passed.1.postsBare && passed.2.isCreated && !passed.2.refusesTransition

/-- A created reply is an answer with that status. -/
theorem Reply.isCreated_iff {reply : Reply} :
    reply.isCreated = true ↔ ∃ answer, reply.answer? = some answer ∧ answer.status = 201 := by
  cases reply with
  | silence | overdue => simp [Reply.isCreated, Reply.answer?]
  | answer status links body complete =>
    -- Such an answer has a body, so it is there only when the body is complete.
    by_cases created : status = 201
    · subst created
      cases complete <;> simp [Reply.isCreated, Reply.answer?, isBodiless]
    · by_cases bodiless : isBodiless status = true
      · simp [Reply.isCreated, Reply.answer?, bodiless, created]
      · cases complete <;> simp [Reply.isCreated, Reply.answer?, bodiless, created]

/-- An answer shows whether its reply is a created one. -/
theorem Reply.isCreated_of_answer {reply : Reply} {answer : Answer}
    (answered : reply.answer? = some answer) : reply.isCreated = (answer.status == 201) := by
  rw [Bool.eq_iff_iff, Reply.isCreated_iff, answered, beq_iff_eq]
  exact ⟨fun ⟨_, same, created⟩ => Option.some.inj same ▸ created, fun created => ⟨_, rfl, created⟩⟩

/-- The words of a created reply are those of its answer. -/
theorem Reply.refusesTransition_eq {reply : Reply} {answer : Answer}
    (answered : reply.answer? = some answer) (created : answer.status = 201) :
    reply.refusesTransition = mentions answer.body transitionRefusal := by
  cases reply with
  | silence | overdue => simp [Reply.answer?] at answered
  | answer status links body complete =>
    simp only [Reply.answer?] at answered
    split at answered
    · -- An answer without a body would have another status.
      rename_i bodiless
      rw [Option.some.injEq] at answered
      subst answered
      simp [isBodiless, show status = 201 from created] at bodiless
    · split at answered
      · rw [← Option.some.inj answered]
        rfl
      · simp at answered

/-- A request posts a form exactly when it is made with one. -/
theorem postsForm_requestFor (token : Token) (method : Method) (url : Url)
    (form : Option Comment) :
    (requestFor token method url form).postsForm = (method == .post && form.isSome) := by
  cases form <;> rfl

theorem postsBare_requestFor (token : Token) (method : Method) (url : Url)
    (form : Option Comment) :
    (requestFor token method url form).postsBare = (method == .post && form.isNone) := by
  cases form <;> rfl

namespace Event

/-- A status is noted as posted. -/
def isStatusPosted : Event → Bool
  | .statusPosted _ => true
  | _ => false

/-- An issue is noted as passed over. -/
def isSkip : Event → Bool
  | .issueUnlocated _ | .lineUnblamed .. | .lineOutside .. => true
  | _ => false

/-- A note that says of no request how it went. -/
def isIdle (event : Event) : Bool :=
  event.level != .error && event != .commentPosted && !event.isStatusPosted

end Event

/-- The note that a failure leaves as the last one, if it leaves any. -/
def Failure.note? : Failure → Option Event
  | .remote (.unexpectedStatus url expected actual body) =>
    some (.unexpectedStatus url expected actual body)
  | .remote (.paginationLoop url) => some (.linkRepeated url)
  | _ => none

/-- A failure to get through leaves no note. -/
theorem RemoteFailure.IsTransport.note?_eq_none {failure : RemoteFailure}
    (transport : failure.IsTransport) : (Failure.remote failure).note? = none := by
  obtain rfl | ⟨_, rfl⟩ := transport <;> rfl

/-- The notes that come last because of how a run ended. -/
def closing : Except Failure α → List Event
  | .ok _ => []
  | .error failure => failure.note?.toList

/-- Between two states of a line these notes were taken, and these requests got these replies. -/
inductive Line.Records (before : Line) : Line → List Event → List (Request × Reply) → Prop where
  | start : Records before before [] []
  | note {after : Line} {notes : List Event} {passed : List (Request × Reply)} (event : Event)
      (earlier : Records before after notes passed) :
      Records before (after.noted event) (notes ++ [event]) passed
  | sent {after : Line} {notes : List Event} {passed : List (Request × Reply)} (request : Request)
      (earlier : Records before after notes passed) :
      Records before (after.sent request) notes (passed ++ [(request, after.reply)])

/-- The requests that arrived on a line, with the replies that they got. -/
def Line.passed (line : Line) (replies : List Reply) : List (Request × Reply) :=
  line.requests.zip (replies.takeD line.requests.length .silence)

/-- One item more is the first of those behind. -/
theorem takeD_concat (count : Nat) (items : List α) (default : α) :
    items.takeD (count + 1) default =
      items.takeD count default ++ [(items.drop count).headD default] := by
  induction count generalizing items with
  | zero => cases items <;> rfl
  | succ count ih =>
    rw [List.takeD_succ, ih, List.takeD_succ, List.drop_tail, List.cons_append]

namespace Line.Records

variable {before between after : Line} {notes more : List Event}
  {passed further : List (Request × Reply)}

/-- What was recorded later comes behind what was recorded before. -/
theorem append (first : before.Records between notes passed)
    (second : between.Records after more further) :
    before.Records after (notes ++ more) (passed ++ further) := by
  induction second with
  | start => simpa using first
  | note event _ ih => simpa using ih.note event
  | sent request _ ih => simpa using ih.sent request

/-- The notes of a line are those that it had and those that were taken. -/
theorem events (records : before.Records after notes passed) :
    after.events = before.events ++ notes := by
  induction records with
  | start => simp
  | note event _ ih => simp [Line.noted, ih]
  | sent request _ ih => simpa [Line.sent] using ih

/-- The requests of a line are those that it had and those that were sent. -/
theorem requests (records : before.Records after notes passed) :
    after.requests = before.requests ++ passed.map (·.1) := by
  induction records with
  | start => simp
  | note event _ ih => simpa [Line.noted] using ih
  | sent request _ ih => simp [Line.sent, ih]

/-- Each request uses up one reply. -/
theorem replies (records : before.Records after notes passed) :
    after.replies = before.replies.drop passed.length := by
  induction records with
  | start => simp
  | note event _ ih => simpa [Line.noted] using ih
  | sent request _ ih => simp [Line.sent, ih, List.tail_drop]

/-- The replies that were got are the first ones there were, and silence behind the last. -/
theorem got (records : before.Records after notes passed) :
    passed.map (·.2) = before.replies.takeD passed.length .silence := by
  induction records with
  | start => rfl
  | note event _ ih => exact ih
  | @sent after notes passed request earlier ih =>
    rw [List.map_append, ih, List.length_append, List.length_singleton, List.map_singleton,
      Line.reply, earlier.replies, takeD_concat]

/-- What was recorded on a line is all that passed on it. -/
theorem passed_eq {reach : Reach} {replies : List Reply}
    (records : (Line.fresh reach replies).Records after notes passed) :
    after.passed replies = passed := by
  have requests : passed.map Prod.fst = after.requests := records.requests.symm
  refine (List.zip_of_prod requests ?_).symm
  rw [← requests, List.length_map]
  exact records.got

end Line.Records

/-- Notes say as many times that something was posted as it was, and of no failure. -/
structure Accounts (notes : List Event) (passed : List (Request × Reply)) : Prop where
  calm : ∀ event ∈ notes, event.level ≠ .error
  comments : notes.count .commentPosted = passed.countP isPostedComment
  statuses : notes.countP Event.isStatusPosted = passed.countP isPostedStatus

namespace Accounts

variable {notes more : List Event} {passed further : List (Request × Reply)}

theorem nil : Accounts [] [] :=
  ⟨by simp, rfl, rfl⟩

theorem append (first : Accounts notes passed) (second : Accounts more further) :
    Accounts (notes ++ more) (passed ++ further) where
  calm event member := (List.mem_append.1 member).elim (first.calm event) (second.calm event)
  comments := by rw [List.count_append, List.countP_append, first.comments, second.comments]
  statuses := by rw [List.countP_append, List.countP_append, first.statuses, second.statuses]

/-- What is idle accounts for nothing. -/
theorem idle {event : Event} (idle : event.isIdle = true) : Accounts [event] [] := by
  simp only [Event.isIdle, Bool.and_eq_true, bne_iff_ne, Bool.not_eq_true'] at idle
  obtain ⟨⟨calm, uncommented⟩, unset⟩ := idle
  exact ⟨by simpa using calm, by simp [uncommented], by simp [unset]⟩

/-- A request that only reads needs no note. -/
theorem read {request : Request} (reads : request.method = .get) (reply : Reply) :
    Accounts [] [(request, reply)] :=
  ⟨by simp, by simp [isPostedComment, Request.postsForm, reads],
    by simp [isPostedStatus, Request.postsBare, reads]⟩

/-- A request that was not answered as created needs no note. -/
theorem uncreated (request : Request) {reply : Reply} (uncreated : reply.isCreated = false) :
    Accounts [] [(request, reply)] :=
  ⟨by simp, by simp [isPostedComment, uncreated], by simp [isPostedStatus, uncreated]⟩

/-- A note accounts for a request when both say the same of what was posted. -/
theorem single {event : Event} {request : Request} {reply : Reply} (calm : event.level ≠ .error)
    (comment : (event == .commentPosted) = isPostedComment (request, reply))
    (status : event.isStatusPosted = isPostedStatus (request, reply)) :
    Accounts [event] [(request, reply)] :=
  ⟨by simpa using calm, by simp [List.count_singleton, ← comment],
    by simp [List.countP_singleton, ← status]⟩

end Accounts

/-- A run leaves notes that account for what passed on the line and what was due before, then the
note on its failure if there is one; and with a value the notes have some property. -/
def Tells (due : List (Request × Reply)) (property : α → List Event → Prop) (before : Line)
    (ending : Except Failure α × Line) : Prop :=
  ∃ notes passed, before.Records ending.2 (notes ++ closing ending.1) passed ∧
    Accounts notes (due ++ passed) ∧ ∀ value, ending.1 = .ok value → property value notes

/-- Whatever a run comes to, no issue is noted as passed over. -/
def Skipless (_ : α) (notes : List Event) : Prop :=
  notes.filter Event.isSkip = []

namespace Tells

variable {due : List (Request × Reply)} {property : α → List Event → Prop}
  {goal : β → List Event → Prop} {before : Line}

/-- A value that needs no note. -/
theorem pure {value : α} (holds : property value []) :
    Tells [] property before ((Pure.pure value : Run α).run before) :=
  ⟨[], [], .start, .nil, fun _ same => Except.ok.inj same ▸ holds⟩

/-- A failure that is not noted. -/
theorem fail {failure : Failure} (unnoted : failure.note? = none) :
    Tells [] property before (.error failure, before) :=
  ⟨[], [], by simpa [closing, unnoted] using .start, .nil, by simp⟩

/-- A failure behind its own note. -/
theorem failNoted {failure : Failure} {event : Event} (noted : failure.note? = some event)
    (accounts : Accounts [] due) :
    Tells due property before (.error failure, before.noted event) :=
  ⟨[], [], by simpa [closing, noted] using Line.Records.start.note event,
    by simpa using accounts, by simp⟩

/-- What holds of the notes in one way holds in every weaker way. -/
theorem mono {other : α → List Event → Prop} {ending : Except Failure α × Line}
    (tells : Tells due property before ending)
    (weaker : ∀ value notes, property value notes → other value notes) :
    Tells due other before ending := by
  obtain ⟨notes, passed, records, accounts, holds⟩ := tells
  exact ⟨notes, passed, records, accounts, fun value same => weaker value notes (holds value same)⟩

/-- A note ahead of the others, which accounts for what was due. -/
theorem noted {event : Event} {ending : Except Failure α × Line} (accounts : Accounts [event] due)
    (tells : Tells [] (fun value notes => property value (event :: notes)) (before.noted event)
      ending) : Tells due property before ending := by
  obtain ⟨notes, passed, records, others, holds⟩ := tells
  exact ⟨event :: notes, passed, (Line.Records.start.note event).append records,
    accounts.append others, holds⟩

/-- A note ahead of a run. -/
theorem note {event : Event} {next : Unit → Run α} (accounts : Accounts [event] due)
    (tells : Tells [] (fun value notes => property value (event :: notes)) (before.noted event)
      ((next ()).run (before.noted event))) :
    Tells due property before
      (((liftM (MergeNotes.note event) : Run Unit) >>= next).run before) := by
  rw [Run.run_note_bind]
  exact noted accounts tells

/-- Runs one after the other take their notes one after the other. -/
theorem bind {work : Run α} {next : α → Run β} (first : Tells due property before (work.run before))
    (second : ∀ value between notes, work.run before = (.ok value, between) →
      property value notes →
      Tells [] (fun final more => goal final (notes ++ more)) between ((next value).run between)) :
    Tells due goal before ((work >>= next).run before) := by
  rw [Run.run_bind]
  obtain ⟨notes, passed, records, accounts, holds⟩ := first
  match ended : work.run before with
  | (.error failure, after) =>
    rw [ended] at records
    exact ⟨notes, passed, records, accounts, by simp⟩
  | (.ok value, between) =>
    rw [ended] at records holds
    -- With a value there was no failure to note.
    simp only [closing, List.append_nil] at records
    obtain ⟨more, further, later, others, reached⟩ := second value between notes ended
      (holds value rfl)
    refine ⟨notes ++ more, passed ++ further, ?_, ?_, reached⟩
    · rw [List.append_assoc]
      exact records.append later
    · rw [← List.append_assoc]
      exact accounts.append others

/-- An exchange leaves its request due, unless it is not even answered. -/
theorem exchange {token : Token} {method : Method} {address : String} {form : Option Comment}
    {next : Answer → Run α}
    (answered : ∀ answer url, before.reply.answer? = some answer →
      Tells [(requestFor token method url form, before.reply)] property
        (before.sent (requestFor token method url form))
        ((next answer).run (before.sent (requestFor token method url form)))) :
    Tells [] property before
      ((MergeNotes.exchange token method address form >>= next).run before) := by
  rw [Run.run_bind, run_exchange]
  cases asked : requestUrl address with
  | error failure =>
    obtain ⟨detail, rfl⟩ := exists_invalidUrl_of_requestUrl asked
    exact fail rfl
  | ok url =>
    cases reached : before.reach.connects url with
    | false =>
      simp only [reached, Bool.false_eq_true, if_false]
      exact fail (before.reach.isTransport_failure url).note?_eq_none
    | true =>
      simp only [reached, if_true]
      -- From here on the request is sent, whether or not its reply is received.
      have sent : before.Records (before.sent (requestFor token method url form)) []
          [(requestFor token method url form, before.reply)] := Line.Records.start.sent _
      cases received : before.reply.receive url with
      | error failure =>
        obtain ⟨transport, unanswered⟩ := Reply.isTransport_of_receive received
        refine ⟨[], _, by simpa [closing, transport.note?_eq_none] using sent, ?_, by simp⟩
        refine .uncreated _ (Bool.eq_false_iff.2 fun created => ?_)
        obtain ⟨answer, answered, _⟩ := Reply.isCreated_iff.1 created
        simp [unanswered] at answered
      | ok answer =>
        obtain ⟨notes, passed, records, accounts, holds⟩ :=
          answered answer url (Reply.receive_eq_ok_iff.1 received)
        exact ⟨notes, _, sent.append records, accounts, holds⟩

/-- A status that is not the required one is noted at once. -/
theorem requireStatus {url : String} {expected status : Nat} {body : String}
    {next : Unit → Run α}
    (wrong : status ≠ expected → Accounts [] due)
    (good : status = expected → Tells due property before ((next ()).run before)) :
    Tells due property before
      ((MergeNotes.requireStatus url expected status body >>= next).run before) := by
  rw [Run.run_bind, run_requireStatus]
  by_cases same : status = expected
  · rw [if_pos same]
    exact good same
  · rw [if_neg same]
    exact failNoted rfl (wrong same)

/-- Reading leaves nothing due. -/
theorem read {token : Token} {url : String} {next : Answer → Run α}
    (good : ∀ answer line, Tells [] property line ((next answer).run line)) :
    Tells [] property before ((do
      let answer ← MergeNotes.exchange token .get url none
      MergeNotes.requireStatus url 200 answer.status answer.body
      next answer).run before) := by
  refine exchange fun answer asked _ => ?_
  have reads : Accounts [] [(requestFor token .get asked none, before.reply)] := .read rfl _
  refine requireStatus (fun _ => reads) fun _ => ?_
  obtain ⟨notes, passed, records, accounts, holds⟩ := good answer _
  exact ⟨notes, passed, records, by simpa using reads.append accounts, holds⟩

end Tells

/-- Decoding takes no notes. -/
theorem tells_decodeBody (format : Format α) (body : String) (before : Line) :
    Tells [] (fun _ notes => notes = []) before ((decodeBody format body).run before) := by
  rw [run_decodeBody]
  cases format.decodeLenient body with
  | ok value => exact .pure rfl
  | error error => exact .fail rfl

/-- Reading a single resource passes over no issue. -/
theorem tells_fetchOne (format : Format α) (token : Token) (url : String) (before : Line) :
    Tells [] Skipless before ((fetchOne format token url).run before) := by
  unfold fetchOne
  refine .read fun answer line => .note (.idle rfl) ?_
  refine (tells_decodeBody format answer.body _).mono ?_
  rintro value _ rfl
  rfl

theorem tells_fetchPage (format : Format α) (token : Token) (url : String) (before : Line) :
    Tells [] (fun _ notes => notes = []) before ((fetchPage format token url).run before) := by
  unfold fetchPage
  refine .read fun answer line => (tells_decodeBody format.list answer.body line).bind ?_
  rintro items between _ _ rfl
  exact .pure rfl

/-- A link back is noted, and then nothing more is. -/
theorem tells_fetchPages (format : Format α) (token : Token) (rounds : Nat) :
    ∀ (visited : List String) (url : String) (before : Line),
      Tells [] Skipless before ((fetchPages format token visited rounds url).run before) := by
  induction rounds with
  | zero =>
    intro visited url before
    by_cases member : url ∈ visited
    · rw [run_fetchPages_visited member]
      exact .failNoted rfl .nil
    · rw [fetchPages, if_neg member]
      refine (tells_fetchPage format token url before).bind ?_
      rintro page between _ _ rfl
      exact .note (.idle rfl) (.pure rfl)
  | succ rounds ih =>
    intro visited url before
    by_cases member : url ∈ visited
    · rw [run_fetchPages_visited member]
      exact .failNoted rfl .nil
    · rw [fetchPages, if_neg member]
      refine (tells_fetchPage format token url before).bind ?_
      rintro page between _ _ rfl
      refine .note (.idle rfl) ?_
      cases page.next with
      | none => exact .pure rfl
      | some next =>
        refine .note (.idle rfl) ((ih (url :: visited) next _).bind ?_)
        intro more after notes _ skipless
        exact .pure (by simpa [Skipless, Event.isSkip] using skipless)

/-- Reading the commits passes over no issue. -/
theorem tells_fetchCommits (token : Token) (url : String) (before : Line) :
    Tells [] Skipless before ((fetchCommits token url).run before) := by
  unfold fetchCommits fetchAll
  refine (tells_fetchPages Commit.format token _ [] url before).bind ?_
  intro commits between notes _ skipless
  exact .note (.idle rfl) (.pure (by simpa [Skipless, Event.isSkip] using skipless))

theorem tells_fetchMergeRequest (token : Token) (url : String) (before : Line) :
    Tells [] Skipless before ((fetchMergeRequest token url).run before) := by
  unfold fetchMergeRequest
  refine (tells_fetchOne MergeRequest.format token url before).bind ?_
  intro mergeRequest between notes _ skipless
  exact .note (.idle rfl) (.pure (by simpa [Skipless, Event.isSkip] using skipless))

end MergeNotes
