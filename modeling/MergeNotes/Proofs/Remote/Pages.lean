import MergeNotes.Proofs.Remote.Course
import MergeNotes.Remote.Listing

/-! Reading is a course of steps: one for a single resource, and for a listing one for each page
that the replies lead to. -/

namespace MergeNotes

open Json (Format)

variable {α : Type}

/-- The fault of a body that is not what was asked for. -/
def undecodable? (format : Format α) (body : String) : Option RemoteFailure :=
  match format.decodeLenient body with
  | .ok _ => none
  | .error error => some (.undecodable error)

/-- Reads what is at an address. -/
def Step.read (format : Format α) (address : Except RemoteFailure String) : Step where
  method := .get
  address
  form := none
  fault? := fun url answer =>
    match statusFault? 200 url answer with
    | some failure => some failure
    | none => undecodable? format answer.body

/-- Reads a page, but none that was visited. -/
def Step.page (format : Format α) (visited : List String) (url : String) : Step :=
  .read format.list (if url ∈ visited then .error (.paginationLoop url) else .ok url)

/-- Where the first link header of a reply says that a listing goes on. -/
def Reply.next? : Reply → Option String
  | .silence | .overdue => none
  | .answer _ links _ _ => (links.head?.bind headerText?).bind LinkHeader.next?

/-- What a reply gives to one who reads. -/
def Reply.resource? (format : Format α) (reply : Reply) : Option α :=
  reply.answer?.bind fun answer =>
    if answer.status = 200 then (format.decodeLenient answer.body).toOption else none

/-- The pages of a listing, each where the reply to the one before it says. -/
def pageSteps (format : Format α) (visited : List String) (url : String) : List Reply → List Step
  | [] => [.page format visited url]
  | reply :: replies =>
    .page format visited url ::
      match reply.next? with
      | some next => pageSteps format (url :: visited) next replies
      | none => []

/-- The items on the pages of a listing. -/
def listedItems (format : Format α) : List Reply → List α
  | [] => []
  | reply :: replies =>
    (reply.resource? format.list).getD [] ++
      match reply.next? with
      | some _ => listedItems format replies
      | none => []

theorem Reply.next?_of_answer {reply : Reply} {answer : Answer}
    (answered : reply.answer? = some answer) : answer.next? = reply.next? := by
  cases reply with
  | silence | overdue => simp [Reply.answer?] at answered
  | answer status links body complete =>
    -- Only the links matter, and every answer has those of its reply.
    have same : answer.links = links := by
      simp only [Reply.answer?] at answered
      split at answered
      · simp only [Option.some.injEq] at answered; rw [← answered]
      · split at answered
        · simp only [Option.some.injEq] at answered; rw [← answered]
        · simp at answered
    simp only [Answer.next?, Reply.next?, same]

/-- The course of a listing begins with the page at its address. -/
theorem pageSteps_head (format : Format α) (visited : List String) (url : String)
    (replies : List Reply) :
    ∃ rest, pageSteps format visited url replies = .page format visited url :: rest := by
  cases replies with
  | nil => exact ⟨[], rfl⟩
  | cons reply replies => exact ⟨_, rfl⟩

/-- Each step of a listing reads a page: the first at the address of the listing, and every other
where the reply to the one before says. It refuses only what earlier steps went to. -/
theorem pageSteps_split {format : Format α} {replies : List Reply} :
    ∀ {visited : List String} {url : String} {done : List Step} {step : Step} {rest : List Step},
      pageSteps format visited url replies = done ++ step :: rest →
      ∃ seen next, step = .page format seen next ∧ (done = [] → next = url) ∧
        (∀ front last, done = front ++ [last] →
          ((replies.drop front.length).headD .silence).next? = some next) ∧
        ∀ address ∈ seen, address ∈ visited ∨ ∃ earlier, .page format earlier address ∈ done := by
  induction replies with
  | nil =>
    -- Without replies there is one step, so nothing stands before or behind it.
    intro visited url done step rest split
    rw [pageSteps, eq_comm, List.append_eq_singleton_iff] at split
    rcases split with ⟨rfl, same⟩ | ⟨_, wrong⟩
    · rw [List.cons.injEq] at same
      exact ⟨visited, url, same.1, fun _ => rfl, by simp, fun _ member => .inl member⟩
    · simp at wrong
  | cons reply replies ih =>
    intro visited url done step rest split
    rw [pageSteps] at split
    cases done with
    -- The first step is the page at the address of the listing.
    | nil =>
      rw [List.nil_append, List.cons.injEq] at split
      exact ⟨visited, url, split.1.symm, fun _ => rfl, by simp, fun _ member => .inl member⟩
    | cons first done =>
      -- Behind the first step the listing goes on as one from its next page.
      rw [List.cons_append, List.cons.injEq] at split
      obtain ⟨rfl, split⟩ := split
      cases follows : reply.next? with
      | none => simp [follows] at split
      | some next =>
        rw [follows] at split
        obtain ⟨seen, here, same, start, leads, known⟩ := ih split
        -- The reply to the step before is the first one if that was the first step, and a later one
        -- else; what was seen on the way was seen before, or is the page at the front.
        refine ⟨seen, here, same, by simp, fun front last whole => ?_, fun address member => ?_⟩
        · cases front with
          | nil =>
            rw [List.nil_append, List.cons.injEq] at whole
            rw [start whole.2]
            exact follows
          | cons _ front =>
            rw [List.cons_append, List.cons.injEq] at whole
            exact leads front last whole.2
        · rcases known address member with early | ⟨earlier, present⟩
          · rcases List.mem_cons.1 early with rfl | early
            · exact .inr ⟨visited, List.mem_cons_self⟩
            · exact .inl early
          · exact .inr ⟨earlier, List.mem_cons_of_mem _ present⟩

theorem run_requireStatus (url : String) (expected status : Nat) (body : String) (line : Line) :
    (requireStatus url expected status body).run line =
      if status = expected then (.ok (), line)
      else (.error (.remote (.unexpectedStatus url expected status body)),
        line.noted (.unexpectedStatus url expected status body)) := by
  unfold requireStatus
  by_cases same : status = expected
  · simp [same]
  · simp [same]

theorem run_decodeBody (format : Format α) (body : String) (line : Line) :
    (decodeBody format body).run line =
      match format.decodeLenient body with
      | .ok value => (.ok value, line)
      | .error error => (.error (.remote (.undecodable error)), line) := by
  unfold decodeBody
  cases format.decodeLenient body <;> rfl

/-- An answer to one who reads is without fault exactly when it gives the resource. -/
theorem Step.fault?_read_eq_none_iff {format : Format α} {address : Except RemoteFailure String}
    {url : String} {answer : Answer} :
    (Step.read format address).fault? url answer = none ↔
      answer.status = 200 ∧ ∃ value, format.decodeLenient answer.body = .ok value := by
  simp only [Step.read, statusFault?, undecodable?]
  by_cases good : answer.status = 200
  · simp only [good, if_true]
    cases format.decodeLenient answer.body <;> simp
  · simp [good]

/-- The faults of an answer to one who reads: another status, or a body that is something else. -/
theorem Step.fault?_read_eq_some_iff {format : Format α} {address : Except RemoteFailure String}
    {url : String} {answer : Answer} {failure : RemoteFailure} :
    (Step.read format address).fault? url answer = some failure ↔
      (answer.status ≠ 200 ∧ failure = .unexpectedStatus url 200 answer.status answer.body) ∨
        (answer.status = 200 ∧ ∃ error, format.decodeLenient answer.body = .error error ∧
          failure = .undecodable error) := by
  simp only [Step.read, statusFault?, undecodable?]
  by_cases good : answer.status = 200
  · simp only [good, if_true]
    cases format.decodeLenient answer.body <;> simp [eq_comm]
  · simp [good, eq_comm]

/-- Reading a page is one step. -/
theorem carriesOut_fetchPage (format : Format α) (token : Token) (url : String) (before : Line) :
    CarriesOut token [.read format.list (.ok url)]
      (fun page => before.reply.resource? format.list = some page.items ∧
        page.next = before.reply.next?)
      before ((fetchPage format token url).run before) := by
  unfold fetchPage
  refine carriesOut_exchange (.read format.list (.ok url)) rfl ?_ ?_
  · intro answer failure line fault
    rcases Step.fault?_read_eq_some_iff.1 fault with ⟨wrong, rfl⟩ | ⟨good, error, found, rfl⟩
    · refine ⟨line.noted (.unexpectedStatus url 200 answer.status answer.body), ?_,
        line.quiet_noted _⟩
      -- The status is tested first, so with a wrong one the body is not looked at.
      simp only [Run.run_bind, run_requireStatus, if_neg wrong]
    · refine ⟨line, ?_, line.quiet_refl⟩
      simp only [Run.run_bind, run_requireStatus, if_pos good, run_decodeBody, found]
  · intro answer line answered faultless
    obtain ⟨good, items, found⟩ := Step.fault?_read_eq_none_iff.1 faultless
    refine ⟨⟨items, answer.next?⟩, line, ?_, line.quiet_refl, ?_, Reply.next?_of_answer answered⟩
    · simp only [Run.run_bind, run_requireStatus, if_pos good, run_decodeBody, found, Run.run_pure]
    · simp [Reply.resource?, answered, good, found, Except.toOption]

/-- Reading a single resource is one step. -/
theorem carriesOut_fetchOne (format : Format α) (token : Token) (url : String) (before : Line) :
    CarriesOut token [.read format (.ok url)]
      (fun value => before.reply.resource? format = some value)
      before ((fetchOne format token url).run before) := by
  unfold fetchOne
  refine carriesOut_exchange (.read format (.ok url)) rfl ?_ ?_
  · intro answer failure line fault
    rcases Step.fault?_read_eq_some_iff.1 fault with ⟨wrong, rfl⟩ | ⟨good, error, found, rfl⟩
    · refine ⟨line.noted (.unexpectedStatus url 200 answer.status answer.body), ?_,
        line.quiet_noted _⟩
      simp only [Run.run_bind, run_requireStatus, if_neg wrong]
    · refine ⟨line.noted (.resourceReceived url), ?_, line.quiet_noted _⟩
      simp only [Run.run_bind, run_requireStatus, if_pos good, Run.run_note, run_decodeBody, found]
  · intro answer line answered faultless
    obtain ⟨good, value, found⟩ := Step.fault?_read_eq_none_iff.1 faultless
    refine ⟨value, line.noted (.resourceReceived url), ?_, line.quiet_noted _, ?_⟩
    · simp only [Run.run_bind, run_requireStatus, if_pos good, Run.run_note, run_decodeBody, found]
    · -- What was decoded is the resource that the reply holds.
      simp [Reply.resource?, answered, good, found, Except.toOption]

/-- A page that was visited is not read again. -/
theorem run_fetchPages_visited {format : Format α} {token : Token} {visited : List String}
    {url : String} (member : url ∈ visited) (rounds : Nat) (before : Line) :
    (fetchPages format token visited rounds url).run before =
      (.error (.remote (.paginationLoop url)), before.noted (.linkRepeated url)) := by
  -- The repetition is noticed before anything is sent.
  rw [fetchPages, if_pos member]
  simp only [Run.run_bind, Run.run_note, Run.run_failRemote]

theorem Step.page_of_fresh {format : Format α} {visited : List String} {url : String}
    (fresh : url ∉ visited) : Step.page format visited url = .read format.list (.ok url) := by
  rw [Step.page, if_neg fresh]

/-- A page has no address exactly when it was visited. -/
theorem Step.address_page_eq_error_iff {format : Format α} {visited : List String} {url : String}
    {failure : RemoteFailure} :
    (Step.page format visited url).address = .error failure ↔
      url ∈ visited ∧ failure = .paginationLoop url := by
  rw [Step.page, Step.read]
  by_cases member : url ∈ visited
  · simp [member, eq_comm]
  · simp [member]

theorem Step.address_page_eq_ok_iff {format : Format α} {visited : List String}
    {url address : String} :
    (Step.page format visited url).address = .ok address ↔ url ∉ visited ∧ address = url := by
  rw [Step.page, Step.read]
  by_cases member : url ∈ visited
  · simp [member]
  · simp [member, eq_comm]

/-- A single step that goes well uses up one reply. -/
theorem Completes.replies_of_single {token : Token} {step : Step} {before after : Line}
    (completes : Completes token [step] before after) : after.replies = before.replies.tail := by
  cases completes with
  | cons sends _ _ rest =>
    cases rest with
    -- Sending is what uses up the reply, and noting changes nothing about replies.
    | nil quiet => rw [quiet.replies, sends.quiet.replies, Line.sent]

/-- Nothing is read in silence. -/
theorem Reply.resource?_silence (format : Format α) : Reply.silence.resource? format = none :=
  rfl

/-- Reading pages takes the steps that the replies lead to, and gives the items on them, as long
as the rounds are enough for the replies. -/
theorem carriesOut_fetchPages (format : Format α) (token : Token) (rounds : Nat) :
    ∀ (visited : List String) (url : String) (before : Line), before.replies.length ≤ rounds →
      CarriesOut token (pageSteps format visited url before.replies)
        (· = listedItems format before.replies) before
        ((fetchPages format token visited rounds url).run before) := by
  -- Each page uses up one reply, so both the rounds and the replies get fewer.
  induction rounds with
  | zero =>
    intro visited url before enough
    have none_left : before.replies = [] := List.eq_nil_of_length_eq_zero (by omega)
    by_cases member : url ∈ visited
    · exact carriesOut_visited member 0 before
    · exact carriesOut_silence member none_left 0
  | succ rounds ih =>
    intro visited url before enough
    by_cases member : url ∈ visited
    · exact carriesOut_visited member (rounds + 1) before
    · cases replies : before.replies with
      | nil => exact replies ▸ carriesOut_silence member replies (rounds + 1)
      | cons reply others =>
        rw [fetchPages, if_neg member, pageSteps, Step.page_of_fresh member,
          ← List.singleton_append]
        refine (carriesOut_fetchPage format token url before).bind
          fun page between read completes => .note ?_
        -- The page was read, so there is a reply less, and its link says how the listing goes on.
        obtain ⟨found, leads⟩ := read
        have left : between.replies = others := by
          rw [completes.replies_of_single, replies, List.tail_cons]
        simp only [Line.reply, replies, List.headD_cons] at found leads
        cases follows : reply.next? with
        | none =>
          -- No link: the items of this page are all there are.
          simp only [leads, follows, listedItems, found, Option.getD_some, List.append_nil]
          exact .pure rfl
        | some next =>
          simp only [leads, follows, listedItems, found, Option.getD_some]
          -- A link: the items of the next pages come behind those of this one.
          refine .note ?_
          rw [← List.append_nil (pageSteps _ _ _ _)]
          rw [replies, List.length_cons] at enough
          subst left
          refine (ih (url :: visited) next _ ?_).bind fun items after listed _ => .pure ?_
          · simp only [Line.noted]
            omega
          · exact congrArg (page.items ++ ·) listed
where
  /-- What is visited makes the first step go wrong. -/
  carriesOut_visited {visited : List String} {url : String} (member : url ∈ visited)
      (rounds : Nat) (before : Line) :
      CarriesOut token (pageSteps format visited url before.replies)
        (· = listedItems format before.replies) before
        ((fetchPages format token visited rounds url).run before) := by
    obtain ⟨rest, course⟩ := pageSteps_head format visited url before.replies
    rw [run_fetchPages_visited member, course]
    refine ⟨_, rfl, ⟨[], _, rest, before, rfl, .nil before.quiet_refl, .unaddressed ?_
      (before.quiet_noted _)⟩⟩
    rw [Step.page, if_pos member, Step.read]
  /-- Without replies the first page breaks off. -/
  carriesOut_silence {visited : List String} {url : String} {before : Line} (fresh : url ∉ visited)
      (none_left : before.replies = []) (rounds : Nat) :
      CarriesOut token (pageSteps format visited url before.replies)
        (· = listedItems format before.replies) before
        ((fetchPages format token visited rounds url).run before) := by
    rw [fetchPages, if_neg fresh, none_left, pageSteps, Step.page_of_fresh fresh,
      ← List.append_nil [_]]
    refine (carriesOut_fetchPage format token url before).bind fun page between read _ => ?_
    simp only [Line.reply, none_left, List.headD_nil, Reply.resource?_silence] at read
    simp at read

/-- The commits that a listing gives. -/
def listedCommits (replies : List Reply) : CommitSet :=
  .ofList ((listedItems Commit.format replies).map (·.id))

/-- Reading the commits takes the steps of their listing. -/
theorem carriesOut_fetchCommits (token : Token) (url : String) (before : Line) :
    CarriesOut token (pageSteps Commit.format [] url before.replies)
      (fun ids => CommitSet.ofList ids = listedCommits before.replies) before
      ((fetchCommits token url).run before) := by
  unfold fetchCommits fetchAll
  rw [← List.append_nil (pageSteps _ _ _ _)]
  -- There are as many rounds as replies, and what is done with the items takes no step.
  have pages := carriesOut_fetchPages Commit.format token _ [] url before (Nat.le_refl _)
  refine pages.bind fun commits between listed _ => .note (.pure ?_)
  rw [listed, listedCommits]

/-- Reading the merge request is one step. -/
theorem carriesOut_fetchMergeRequest (token : Token) (url : String) (before : Line) :
    CarriesOut token [.read MergeRequest.format (.ok url)]
      (fun mergeRequest => before.reply.resource? MergeRequest.format = some mergeRequest) before
      ((fetchMergeRequest token url).run before) := by
  unfold fetchMergeRequest
  rw [← List.append_nil [_]]
  exact (carriesOut_fetchOne MergeRequest.format token url before).bind
    fun mergeRequest between read _ => .note (.pure read)

end MergeNotes
