import Mathlib.Data.List.Forall2
import MergeNotes.Proofs.Remote.Listings
import MergeNotes.Proofs.Remote.Refusal
import MergeNotes.Proofs.Result

/-! Reading a listing is a walk from page to page: it goes where the replies lead, never to an
address twice, and ends in one of three ways. -/

namespace MergeNotes

open Json (Format)

variable {α : Type} {format : Format α} {reach : Reach} {token : Token}

/-- A page that is asked for: its address, and the reply that is there for it. -/
structure Visit where
  address : String
  reply : Reply

namespace Visit

variable {visit : Visit}

/-- A page shows items: the request for it arrives, and the reply is complete and a success, with a
list of the items in its body. -/
def Shows (format : Format α) (reach : Reach) (visit : Visit) (items : List α) : Prop :=
  ∃ url answer, requestUrl visit.address = .ok url ∧ reach.connects url = true ∧
    visit.reply.answer? = some answer ∧ answer.status = 200 ∧
    format.list.decodeLenient answer.body = .ok items

/-- What a page comes to on its own: its items, or the reason why it has none. -/
def outcome (format : Format α) (reach : Reach) (visit : Visit) :
    Except RemoteFailure (List α) :=
  match requestUrl visit.address with
  | .error failure => .error failure
  | .ok url =>
    if reach.connects url then
      match visit.reply.receive url with
      | .error failure => .error failure
      | .ok answer =>
        -- The body counts only where the status is the expected one.
        if answer.status = 200 then
          (format.list.decodeLenient answer.body).mapError .undecodable
        else .error (.unexpectedStatus visit.address 200 answer.status answer.body)
    else .error (reach.failure url)

/-- The request for a page, where it arrives at the server. -/
def request? (token : Token) (reach : Reach) (visit : Visit) : Option Request :=
  match requestUrl visit.address with
  | .error _ => none
  | .ok url => if reach.connects url then some (requestFor token .get url none) else none

/-- A page comes to items exactly if it shows them. -/
theorem outcome_eq_ok_iff {items : List α} :
    visit.outcome format reach = .ok items ↔ visit.Shows format reach items := by
  unfold outcome Shows
  constructor
  · -- Each of the four tests on the way is passed.
    intro found
    cases requested : requestUrl visit.address with
    | error failure => simp [requested] at found
    | ok url =>
      simp only [requested] at found
      split at found
      · rename_i connected
        cases received : visit.reply.receive url with
        | error failure => simp [received] at found
        | ok answer =>
          simp only [received] at found
          split at found
          · rename_i good
            exact ⟨url, answer, rfl, connected, Reply.receive_eq_ok_iff.1 received, good,
              mapError_eq_ok_iff.1 found⟩
          · cases found
      · cases found
  · rintro ⟨url, answer, requested, connected, answered, good, decoded⟩
    rw [requested]
    dsimp only
    rw [if_pos connected, Reply.receive_eq_ok_iff.2 answered]
    dsimp only
    rw [if_pos good, decoded]
    rfl

/-- For a page that shows items, the request arrives. -/
theorem exists_request_of_shows {items : List α} (shown : visit.Shows format reach items)
    (token : Token) : ∃ request, visit.request? token reach = some request := by
  obtain ⟨url, _, requested, connected, _⟩ := shown
  refine ⟨requestFor token .get url none, ?_⟩
  unfold request?
  rw [requested]
  exact if_pos connected

/-- A page never shows two lists. -/
theorem rightUnique_shows (format : Format α) (reach : Reach) :
    Relator.RightUnique (Shows format reach) := by
  intro visit items others shown again
  have same := (outcome_eq_ok_iff.2 shown).symm.trans (outcome_eq_ok_iff.2 again)
  exact Except.ok.inj same

/-- That an address was visited before is nothing that a page can be at fault for. -/
theorem outcome_ne_loop (repeated : String) :
    visit.outcome format reach ≠ .error (.paginationLoop repeated) := by
  unfold outcome
  intro wrong
  cases requested : requestUrl visit.address with
  | error failure =>
    obtain ⟨detail, rfl⟩ := exists_invalidUrl_of_requestUrl requested
    simp [requested] at wrong
  | ok url =>
    simp only [requested] at wrong
    split at wrong
    · cases received : visit.reply.receive url with
      | error failure =>
        -- All that can happen to a reply is that it is late or breaks off.
        obtain ⟨rfl | ⟨detail, rfl⟩, _⟩ := Reply.isTransport_of_receive received
        · simp [received] at wrong
        · simp [received] at wrong
      | ok answer =>
        simp only [received] at wrong
        split at wrong
        · obtain ⟨_, _, other⟩ := mapError_eq_error_iff.1 wrong
          cases other
        · cases wrong
    · rw [Except.error.injEq] at wrong
      have transport := reach.isTransport_failure url
      simp [wrong, RemoteFailure.IsTransport] at transport

end Visit

/-- A line on which a request was sent, if there is one. -/
def Line.asked (line : Line) : Option Request → Line
  | some request => line.sent request
  | none => line

/-- A page is read, or fails, by itself: only its own request is sent. -/
theorem exists_run_fetchPage (format : Format α) (token : Token) (url : String) (before : Line) :
    ∃ after, (before.asked ((Visit.mk url before.reply).request? token before.reach)).Quiet after ∧
      (fetchPage format token url).run before =
        (((Visit.mk url before.reply).outcome format before.reach).map
          (Page.mk · before.reply.next?) |>.mapError .remote, after) := by
  unfold fetchPage Visit.request? Visit.outcome
  rw [Run.run_bind, run_exchange]
  cases requestUrl url with
  | error failure => exact ⟨before, before.quiet_refl, rfl⟩
  | ok asked =>
    dsimp only
    cases before.reach.connects asked with
    | false => exact ⟨before, before.quiet_refl, rfl⟩
    | true =>
      simp only [if_true]
      cases received : before.reply.receive asked with
      | error failure => exact ⟨_, Line.quiet_refl _, rfl⟩
      | ok answer =>
        have answered := Reply.receive_eq_ok_iff.1 received
        simp only [Run.run_bind, run_requireStatus]
        by_cases good : answer.status = 200
        · simp only [if_pos good, run_decodeBody]
          cases format.list.decodeLenient answer.body with
          | error error => exact ⟨_, Line.quiet_refl _, rfl⟩
          | ok items =>
            refine ⟨_, Line.quiet_refl _, ?_⟩
            rw [Reply.next?_of_answer answered]
            rfl
        · -- The unexpected status is noted down.
          simp only [if_neg good]
          exact ⟨_, Line.quiet_noted _ _, rfl⟩

/-- A walk through a listing from an address on: no address is visited twice, every page but the
first is where the reply to the one before it leads, the replies are those that come, and exactly
the requests for these pages are sent. -/
structure Walk (token : Token) (url : String) (before after : Line) (visits : List Visit) :
    Prop where
  starts : visits.head?.map (·.address) = some url
  distinct : (visits.map (·.address)).Nodup
  leads : visits.IsChain fun visit next => visit.reply.next? = some next.address
  replied : visits.map (·.reply) = before.replies.takeD visits.length .silence
  requests : after.requests =
    before.requests ++ visits.filterMap (·.request? token before.reach)
  replies : after.replies =
    before.replies.drop (visits.filterMap (·.request? token before.reach)).length

namespace Walk

variable {url next : String} {before between after : Line} {visits : List Visit}

/-- One page is a walk. -/
theorem single (quiet : (before.asked ((Visit.mk url before.reply).request? token
    before.reach)).Quiet after) : Walk token url before after [⟨url, before.reply⟩] := by
  have requests := quiet.requests
  have replies := quiet.replies
  refine ⟨rfl, by simp, .singleton _, rfl, ?_, ?_⟩
  · rw [requests, List.filterMap_cons]
    cases (Visit.mk url before.reply).request? token before.reach with
    | none => exact (List.append_nil _).symm
    | some request => rfl
  · rw [replies, List.filterMap_cons]
    cases (Visit.mk url before.reply).request? token before.reach with
    | none => rfl
    | some request => exact (List.drop_one).symm

/-- A walk from where a page leads becomes one from that page on, if it does not come back to it. -/
theorem cons (walk : Walk token next between after visits)
    {request : Request}
    (asked : (Visit.mk url before.reply).request? token before.reach = some request)
    (quiet : (before.sent request).Quiet between) (leads : before.reply.next? = some next)
    (away : ∀ visit ∈ visits, visit.address ≠ url) :
    Walk token url before after (⟨url, before.reply⟩ :: visits) := by
  have reach : between.reach = before.reach := quiet.reach
  have sent : between.requests = before.requests ++ [request] := quiet.requests
  have left : between.replies = before.replies.tail := quiet.replies
  refine ⟨rfl, ?_, ?_, ?_, ?_, ?_⟩
  · rw [List.map_cons, List.nodup_cons]
    refine ⟨fun member => ?_, walk.distinct⟩
    obtain ⟨visit, present, same⟩ := List.mem_map.1 member
    exact away visit present same
  · -- The page leads to the first one of the walk.
    cases visits with
    | nil => cases walk.starts
    | cons visit visits =>
      rw [List.isChain_cons_cons]
      have start : visit.address = next := Option.some.inj walk.starts
      refine ⟨?_, walk.leads⟩
      rw [start]
      exact leads
  · rw [List.map_cons, walk.replied, left]
    rfl
  · rw [walk.requests, sent, reach, List.filterMap_cons, asked, List.append_assoc]
    rfl
  · rw [walk.replies, left, reach, List.filterMap_cons, asked, List.drop_tail]
    rfl

end Walk

/-- The three ends of a walk that has come to a last page: the listing ends there, and has all the
items on the way; it leads back to a page that was visited; or the last page fails. -/
inductive Ending (format : Format α) (reach : Reach) (visited : List String)
    (visits : List Visit) (last : Visit) : Except Failure (List α) → Prop where
  | complete {pages : List (List α)} (ends : last.reply.next? = none)
      (shown : List.Forall₂ (Visit.Shows format reach) (visits ++ [last]) pages) :
      Ending format reach visited visits last (.ok pages.flatten)
  | loop {items : List α} {repeated : String} (shown : last.Shows format reach items)
      (leads : last.reply.next? = some repeated)
      (back : repeated ∈ visited ∨ ∃ visit ∈ visits ++ [last], visit.address = repeated) :
      Ending format reach visited visits last (.error (.remote (.paginationLoop repeated)))
  | failed {failure : RemoteFailure} (fails : last.outcome format reach = .error failure) :
      Ending format reach visited visits last (.error (.remote failure))

/-- A walk from where a good page leads ends as the walk from that page on does. -/
theorem Ending.cons {visited : List String} {visits : List Visit} {first last : Visit}
    {items : List α} {result : Except Failure (List α)}
    (shown : first.Shows format reach items)
    (ending : Ending format reach (first.address :: visited) visits last result) :
    Ending format reach visited (first :: visits) last (result.map (items ++ ·)) := by
  cases ending with
  | @complete pages ends others =>
    show Ending format reach visited (first :: visits) last (.ok (items :: pages).flatten)
    apply Ending.complete ends
    exact .cons shown others
  | loop good leads back =>
    apply Ending.loop good leads
    -- What was visited before is the first page, or was visited before that.
    rcases back with early | ⟨visit, member, same⟩
    · rcases List.mem_cons.1 early with rfl | early
      · exact .inr ⟨first, List.mem_cons_self, rfl⟩
      · exact .inl early
    · exact .inr ⟨visit, List.mem_cons_of_mem _ member, same⟩
  | failed fails => exact .failed fails

/-- Where a page fails, so does the listing from there on. -/
theorem run_fetchPages_failed {visited : List String} {url : String} {before between : Line}
    {failure : Failure} (fresh : url ∉ visited)
    (read : (fetchPage format token url).run before = (.error failure, between)) (rounds : Nat) :
    (fetchPages format token visited rounds url).run before = (.error failure, between) := by
  rw [fetchPages, if_neg fresh, Run.run_bind, read]

/-- What is made of the value of a run in the end is made of its result. -/
theorem Run.run_bind_pure {β : Type} (work : Run α) (make : α → β) (line : Line) :
    (work >>= fun value => pure (make value)).run line =
      ((work.run line).1.map make, (work.run line).2) := by
  rw [Run.run_bind]
  rcases work.run line with ⟨failure | value, after⟩ <;> rfl

/-- Reading pages from an address on is a walk: it passes only pages that were not visited before
and show items, and comes to an end. -/
def Walks (format : Format α) (token : Token) (visited : List String) (url : String)
    (before : Line) (ended : Except Failure (List α) × Line) : Prop :=
  ∃ visits last, Walk token url before ended.2 (visits ++ [last]) ∧
    (∀ visit ∈ visits ++ [last], visit.address ∉ visited) ∧
    (∀ visit ∈ visits, ∃ items, visit.Shows format before.reach items) ∧
    Ending format before.reach visited visits last ended.1

namespace Walks

variable {visited : List String} {url next : String} {before after : Line} {items : List α}

/-- A walk may end at its first page. -/
theorem single {result : Except Failure (List α)} (fresh : url ∉ visited)
    (quiet : (before.asked ((Visit.mk url before.reply).request? token before.reach)).Quiet after)
    (ending : Ending format before.reach visited [] ⟨url, before.reply⟩ result) :
    Walks format token visited url before (result, after) := by
  refine ⟨[], ⟨url, before.reply⟩, .single quiet, ?_, ?_, ending⟩
  · intro visit member
    rw [List.mem_singleton.1 member]
    exact fresh
  · intro visit member
    exact absurd member List.not_mem_nil

/-- A walk may go on from its first page. -/
theorem cons {ended : Except Failure (List α) × Line} (fresh : url ∉ visited)
    (shown : (Visit.mk url before.reply).Shows format before.reach items)
    (quiet : (before.asked ((Visit.mk url before.reply).request? token before.reach)).Quiet after)
    (leads : before.reply.next? = some next)
    (walks : Walks format token (url :: visited) next after ended) :
    Walks format token visited url before (ended.1.map (items ++ ·), ended.2) := by
  obtain ⟨visits, last, walk, away, good, ending⟩ := walks
  obtain ⟨request, asked⟩ := Visit.exists_request_of_shows shown token
  rw [asked] at quiet
  have reach : after.reach = before.reach := quiet.reach
  rw [reach] at good ending
  refine ⟨⟨url, before.reply⟩ :: visits, last, ?_, ?_, ?_, .cons shown ending⟩
  · apply walk.cons asked quiet leads
    intro visit member same
    exact away visit member (same ▸ List.mem_cons_self)
  · intro visit member
    rcases List.mem_cons.1 member with rfl | later
    · exact fresh
    · exact fun early => away visit later (List.mem_cons_of_mem _ early)
  · exact List.forall_mem_cons.2 ⟨⟨items, shown⟩, good⟩

end Walks

/-- Reading pages is a walk, as long as the rounds are enough for the replies. -/
theorem walks_fetchPages (format : Format α) (token : Token) (rounds : Nat) :
    ∀ (visited : List String) (url : String) (before : Line), before.replies.length ≤ rounds →
      url ∉ visited →
      Walks format token visited url before
        ((fetchPages format token visited rounds url).run before) := by
  -- Each page that shows items uses up a reply, so that both the rounds and the replies get fewer.
  induction rounds with
  | zero =>
    intro visited url before enough fresh
    obtain ⟨between, quiet, read⟩ := exists_run_fetchPage format token url before
    cases found : (Visit.mk url before.reply).outcome format before.reach with
    | error failure =>
      rw [found] at read
      rw [run_fetchPages_failed fresh read 0]
      exact .single fresh quiet (.failed found)
    | ok items =>
      -- Without replies there is silence, which shows nothing.
      obtain ⟨_, answer, _, _, answered, _⟩ := Visit.outcome_eq_ok_iff.1 found
      have silent : before.reply = .silence := by
        rw [Line.reply, List.eq_nil_of_length_eq_zero (Nat.le_zero.1 enough)]
        rfl
      change before.reply.answer? = some answer at answered
      rw [silent] at answered
      cases answered
  | succ rounds ih =>
    intro visited url before enough fresh
    obtain ⟨between, quiet, read⟩ := exists_run_fetchPage format token url before
    cases found : (Visit.mk url before.reply).outcome format before.reach with
    | error failure =>
      rw [found] at read
      rw [run_fetchPages_failed fresh read (rounds + 1)]
      exact .single fresh quiet (.failed found)
    | ok items =>
      rw [found] at read
      have shown := Visit.outcome_eq_ok_iff.1 found
      cases follows : before.reply.next? with
      | none =>
        rw [run_fetchPages_last fresh read follows rounds]
        apply Walks.single fresh (quiet.trans (between.quiet_noted _))
        have ending : Ending format before.reach visited [] ⟨url, before.reply⟩
            (.ok [items].flatten) := by
          apply Ending.complete follows
          exact .cons shown .nil
        rw [List.flatten_singleton] at ending
        exact ending
      | some next =>
        rw [run_fetchPages_next fresh read follows rounds, Run.run_bind_pure]
        have still := (quiet.trans (between.quiet_noted (.pageReceived url items.length))).trans
          (Line.quiet_noted _ .pageFollows)
        by_cases back : next ∈ url :: visited
        · -- The repetition is noticed before anything more is sent.
          rw [run_fetchPages_visited back]
          apply Walks.single fresh (still.trans (Line.quiet_noted _ _))
          apply Ending.loop shown follows
          rcases List.mem_cons.1 back with same | early
          · exact .inr ⟨_, List.mem_cons_self, same.symm⟩
          · exact .inl early
        · apply Walks.cons fresh shown still follows
          apply ih (url :: visited) next _ ?_ back
          obtain ⟨request, asked⟩ := Visit.exists_request_of_shows shown token
          rw [asked] at quiet
          have left : between.replies = before.replies.tail := quiet.replies
          show between.replies.length ≤ rounds
          rw [left, List.length_tail]
          omega

namespace Ending

variable {visits : List Visit} {last : Visit} {result : Except Failure (List α)}

/-- Where all pages are good, the last one is. -/
theorem exists_shows_of_all {pages : List (List α)}
    (shown : List.Forall₂ (Visit.Shows format reach) (visits ++ [last]) pages) :
    ∃ items, last.Shows format reach items := by
  have behind := List.forall₂_drop visits.length shown
  rw [List.drop_left] at behind
  obtain ⟨items, _, good, _⟩ := List.forall₂_cons_left_iff.1 behind
  exact ⟨items, good⟩

/-- A walk has all items exactly if every page shows some and the last one leads nowhere. -/
theorem eq_ok_iff (ending : Ending format reach [] visits last result) (items : List α) :
    result = .ok items ↔ last.reply.next? = none ∧ ∃ pages,
      List.Forall₂ (Visit.Shows format reach) (visits ++ [last]) pages ∧
        items = pages.flatten := by
  cases ending with
  | complete ends shown =>
    constructor
    · rintro ⟨⟩
      exact ⟨ends, _, shown, rfl⟩
    · rintro ⟨_, pages, again, rfl⟩
      have same := List.right_unique_forall₂' (Visit.rightUnique_shows format reach) shown again
      rw [same]
  | loop shown leads back =>
    constructor
    · rintro ⟨⟩
    · rintro ⟨ends, _⟩
      rw [leads] at ends
      cases ends
  | failed fails =>
    constructor
    · rintro ⟨⟩
    · rintro ⟨_, pages, shown, _⟩
      obtain ⟨items, good⟩ := exists_shows_of_all shown
      rw [Visit.outcome_eq_ok_iff.2 good] at fails
      cases fails

/-- A walk leads back exactly if its last page is good and has a link to one that was visited. -/
theorem eq_loop_iff (ending : Ending format reach [] visits last result) (repeated : String) :
    result = .error (.remote (.paginationLoop repeated)) ↔
      (∃ items, last.Shows format reach items) ∧ last.reply.next? = some repeated ∧
        repeated ∈ (visits ++ [last]).map (·.address) := by
  cases ending with
  | complete ends shown =>
    constructor
    · rintro ⟨⟩
    · rintro ⟨_, leads, _⟩
      rw [ends] at leads
      cases leads
  | loop shown leads back =>
    have visited := List.mem_map.2 (back.resolve_left List.not_mem_nil)
    constructor
    · rintro ⟨⟩
      exact ⟨⟨_, shown⟩, leads, visited⟩
    · rintro ⟨_, also, _⟩
      rw [leads, Option.some.injEq] at also
      rw [also]
  | @failed failure fails =>
    constructor
    · intro same
      rw [Except.error.injEq, Failure.remote.injEq] at same
      rw [same] at fails
      exact absurd fails (Visit.outcome_ne_loop repeated)
    · rintro ⟨⟨items, good⟩, _⟩
      rw [Visit.outcome_eq_ok_iff.2 good] at fails
      cases fails

/-- A walk fails for another reason exactly if its last page does. -/
theorem eq_error_iff (ending : Ending format reach [] visits last result) {failure : Failure}
    (other : ∀ repeated, failure ≠ .remote (.paginationLoop repeated)) :
    result = .error failure ↔
      ∃ reason, failure = .remote reason ∧ last.outcome format reach = .error reason := by
  cases ending with
  | complete ends shown =>
    constructor
    · rintro ⟨⟩
    · rintro ⟨reason, _, fails⟩
      obtain ⟨items, good⟩ := exists_shows_of_all shown
      rw [Visit.outcome_eq_ok_iff.2 good] at fails
      cases fails
  | @loop items repeated shown leads back =>
    constructor
    · rintro ⟨⟩
      exact absurd rfl (other repeated)
    · rintro ⟨reason, _, fails⟩
      rw [Visit.outcome_eq_ok_iff.2 shown] at fails
      cases fails
  | failed fails =>
    constructor
    · rintro ⟨⟩
      exact ⟨_, rfl, fails⟩
    · rintro ⟨reason, rfl, also⟩
      rw [fails, Except.error.injEq] at also
      rw [also]

end Ending

/-- What reading a listing comes to, whatever the replies are. Pages are asked for one by one, from
the address of the listing on, each where the reply to the one before it leads, and no address
twice; exactly the requests for them are sent. All of them but the last are good. The items on all
pages in their order are what is read exactly if the last page is good too and leads nowhere; a loop
is reported exactly if it is good and leads to one of these pages; and any other failure is that of
the last page. -/
theorem fetchAll_exact (format : Format α) (token : Token) (url : String) (before : Line) :
    ∃ visits last, Walk token url before ((fetchAll format token url).run before).2
        (visits ++ [last]) ∧
      (∀ visit ∈ visits, ∃ items, visit.Shows format before.reach items) ∧
      (∀ items, ((fetchAll format token url).run before).1 = .ok items ↔
        last.reply.next? = none ∧ ∃ pages,
          List.Forall₂ (Visit.Shows format before.reach) (visits ++ [last]) pages ∧
            items = pages.flatten) ∧
      (∀ repeated, ((fetchAll format token url).run before).1 =
          .error (.remote (.paginationLoop repeated)) ↔
        (∃ items, last.Shows format before.reach items) ∧ last.reply.next? = some repeated ∧
          repeated ∈ (visits ++ [last]).map (·.address)) ∧
      ∀ failure, (∀ repeated, failure ≠ .remote (.paginationLoop repeated)) →
        (((fetchAll format token url).run before).1 = .error failure ↔
          ∃ reason, failure = .remote reason ∧
            last.outcome format before.reach = .error reason) := by
  have run : (fetchAll format token url).run before =
      (fetchPages format token [] before.replies.length url).run before := by
    unfold fetchAll
    rw [Run.run_bind, Run.run_get]
  rw [run]
  obtain ⟨visits, last, walk, _, good, ending⟩ := walks_fetchPages format token
    before.replies.length [] url before (Nat.le_refl _) List.not_mem_nil
  exact ⟨visits, last, walk, good, ending.eq_ok_iff, ending.eq_loop_iff,
    fun failure other => ending.eq_error_iff other⟩

end MergeNotes
