import MergeNotes.Proofs.Remote.LinkValues
import MergeNotes.Proofs.Remote.Listings
import MergeNotes.Proofs.Remote.Parallel
import MergeNotes.Proofs.Remote.Visits

/-! Listings whose link entries are spread over several values of a header, beside the same ones
with all entries in one value: they are read alike as long as the first value of each page tells. -/

namespace MergeNotes

open Json (Format)
open LinkHeader (LinkEntry Announces FirstTells firstNext? valueOf)

variable {α : Type} {format : Format α} {token : Token} {reach : Reach}

namespace Reply

variable {links : List (List UInt8)} {reply : Reply} {url : Url}

/-- A reply with other values of its link headers. -/
def withLinks (links : List (List UInt8)) : Reply → Reply
  | .silence => .silence
  | .overdue => .overdue
  | .answer status _ body complete => .answer status links body complete

/-- The links make no difference to how a reply is received. -/
theorem receive_withLinks (links : List (List UInt8)) (reply : Reply) (url : Url) :
    (reply.withLinks links).receive url =
      (reply.receive url).map fun answer => { answer with links } := by
  cases reply with
  | silence | overdue => rfl
  | answer status others body complete =>
    simp only [withLinks, receive]
    split
    · rfl
    · split
      · rfl
      · rfl

/-- The links make no difference to what a reply holds. -/
theorem resource?_withLinks (links : List (List UInt8)) (reply : Reply) :
    (reply.withLinks links).resource? format = reply.resource? format := by
  cases reply with
  | silence | overdue => rfl
  | answer status others body complete =>
    simp only [withLinks, resource?, answer?]
    split
    · rfl
    · split
      · rfl
      · rfl

/-- A reply that holds something leads where the first value of its links does. -/
theorem next?_withLinks (good : (reply.resource? format).isSome = true)
    (links : List (List UInt8)) : (reply.withLinks links).next? = firstNext? links := by
  cases reply with
  | silence | overdue => cases good
  | answer status others body complete => rfl

end Reply

/-- A reply with entries for its links, which are spread over values in some way. -/
structure LinkedReply where
  bare : Reply
  values : List (List LinkEntry)

namespace LinkedReply

/-- The reply with its entries as they are spread. -/
def spread (reply : LinkedReply) : Reply :=
  reply.bare.withLinks (reply.values.map valueOf)

/-- The reply with all its entries in one value. -/
def gathered (reply : LinkedReply) : Reply :=
  reply.bare.withLinks (LinkHeader.gathered reply.values)

end LinkedReply

/-- Two runs take the same course: they have the same result, send the same requests, note the same
down and leave as many replies unused. -/
structure SameCourse (first second : Except Failure (List α) × Line) : Prop where
  result : second.1 = first.1
  requests : second.2.requests = first.2.requests
  events : second.2.events = first.2.events
  unused : second.2.replies.length = first.2.replies.length

/-- Two lines are alike but for the replies to come. -/
structure Line.Beside (line other : Line) : Prop where
  reach : other.reach = line.reach
  requests : other.requests = line.requests
  events : other.events = line.events

namespace Line.Beside

variable {line other : Line}

theorem sent (beside : line.Beside other) (request : Request) :
    (line.sent request).Beside (other.sent request) :=
  ⟨beside.reach, by rw [Line.sent, Line.sent, beside.requests], beside.events⟩

theorem noted (beside : line.Beside other) (event : Event) :
    (line.noted event).Beside (other.noted event) :=
  ⟨beside.reach, beside.requests, by rw [Line.noted, Line.noted, beside.events]⟩

end Line.Beside

/-- Two lines are left alike when a page fails: where the request for it was sent, a reply was used
up that shows nothing. -/
structure FailedAlike (format : Format α) (bare : Reply) (line other after opposite : Line)
    (sent : Option Request) : Prop where
  beside : after.Beside opposite
  requests : after.requests = line.requests ++ sent.toList
  left : after.replies = line.replies.drop sent.toList.length
  opposite : opposite.replies = other.replies.drop sent.toList.length
  bad : sent.isSome = true → bare.resource? format.list = none

namespace FailedAlike

variable {line other after opposite : Line} {bare : Reply} {request : Request}

theorem still (beside : line.Beside other) : FailedAlike format bare line other line other none :=
  ⟨beside, (List.append_nil _).symm, rfl, rfl, fun sent => by cases sent⟩

theorem sent (beside : line.Beside other) (request : Request)
    (bad : bare.resource? format.list = none) :
    FailedAlike format bare line other (line.sent request) (other.sent request) (some request) :=
  ⟨beside.sent request, rfl, List.drop_one.symm, List.drop_one.symm, fun _ => bad⟩

theorem noted {sent : Option Request}
    (failed : FailedAlike format bare line other after opposite sent) (event : Event) :
    FailedAlike format bare line other (after.noted event) (opposite.noted event) sent :=
  ⟨failed.beside.noted event, failed.requests, failed.left, failed.opposite, failed.bad⟩

end FailedAlike

section

variable {line other : Line} {bare : Reply} {links others : List (List UInt8)} {url : String}

/-- A page of two replies that differ in their links alone is read from both or from neither, and
in the same way. -/
theorem run_fetchPage_withLinks (format : Format α) (token : Token) (url : String)
    (beside : line.Beside other) (here : line.reply = bare.withLinks links)
    (there : other.reply = bare.withLinks others) :
    (∃ failure after opposite sent,
      (fetchPage format token url).run line = (.error failure, after) ∧
      (fetchPage format token url).run other = (.error failure, opposite) ∧
      FailedAlike format bare line other after opposite sent) ∨
    ∃ items request, bare.resource? format.list = some items ∧
      (fetchPage format token url).run line = (.ok ⟨items, firstNext? links⟩, line.sent request) ∧
      (fetchPage format token url).run other =
        (.ok ⟨items, firstNext? others⟩, other.sent request) := by
  unfold fetchPage
  rw [Run.run_bind, Run.run_bind, run_exchange, run_exchange, beside.reach]
  cases requestUrl url with
  | error failure => exact .inl ⟨_, _, _, _, rfl, rfl, .still beside⟩
  | ok asked =>
    dsimp only
    by_cases reached : line.reach.connects asked = true
    · rw [if_pos reached, if_pos reached, here, there, Reply.receive_withLinks,
        Reply.receive_withLinks]
      cases received : bare.receive asked with
      | error failure =>
        obtain ⟨_, silent⟩ := Reply.isTransport_of_receive received
        have bad : bare.resource? format.list = none := by
          rw [Reply.resource?, silent]
          rfl
        exact .inl ⟨_, _, _, _, rfl, rfl, .sent beside _ bad⟩
      | ok answer =>
        have answered := Reply.receive_eq_ok_iff.1 received
        simp only [Except.map, Run.run_bind, run_requireStatus]
        by_cases good : answer.status = 200
        · simp only [if_pos good, run_decodeBody]
          cases found : format.list.decodeLenient answer.body with
          | error error =>
            have bad : bare.resource? format.list = none := by
              rw [Reply.resource?, answered, Option.bind_some, if_pos good, found]
              rfl
            exact .inl ⟨_, _, _, _, rfl, rfl, .sent beside _ bad⟩
          | ok items =>
            have shown := Reply.resource?_eq_some_iff.2 ⟨answer, answered, good, found⟩
            exact .inr ⟨items, _, shown, rfl, rfl⟩
        · -- The unexpected status is noted down on both lines.
          have bad : bare.resource? format.list = none := by
            rw [Reply.resource?, answered, Option.bind_some, if_neg good]
          simp only [if_neg good]
          have failed := FailedAlike.sent beside (requestFor token .get asked none) bad
          exact .inl ⟨_, _, _, _, rfl, rfl, failed.noted _⟩
    · rw [if_neg reached, if_neg reached]
      exact .inl ⟨_, _, _, _, rfl, rfl, .still beside⟩

end

/-- Where pages are read to an end, a reply was used up for each of them. -/
theorem length_replies_lt {visited : List String} {rounds : Nat} {url : String}
    {before after : Line} {items : List α} (enough : before.replies.length ≤ rounds)
    (read : (fetchPages format token visited rounds url).run before = (.ok items, after)) :
    after.replies.length < before.replies.length := by
  obtain ⟨replies, split, listing⟩ :=
    Listing.of_run token rounds visited url before after items enough read
  have present : 0 < replies.length := by
    cases listing with
    | last _ _ _ _ _ => exact Nat.succ_pos _
    | next _ _ _ _ _ _ => exact Nat.succ_pos _
  rw [split, List.length_append]
  omega

namespace SameCourse

variable {first second : Except Failure (List α) × Line} {line other : Line}

/-- What comes in front of the items of both runs makes no difference. -/
theorem map_iff (items : List α) :
    SameCourse (first.1.map (items ++ ·), first.2) (second.1.map (items ++ ·), second.2) ↔
      SameCourse first second := by
  constructor
  · intro same
    have results : second.1.map (items ++ ·) = first.1.map (items ++ ·) := same.result
    refine ⟨?_, same.requests, same.events, same.unused⟩
    generalize first.1 = one at results ⊢
    generalize second.1 = two at results ⊢
    cases one with
    | error failure =>
      cases two with
      | error _ => exact results
      | ok _ => cases results
    | ok more =>
      cases two with
      | error _ => cases results
      | ok _ =>
        rw [Except.map, Except.map, Except.ok.injEq, List.append_cancel_left_eq] at results
        rw [results]
  · intro same
    exact ⟨by rw [same.result], same.requests, same.events, same.unused⟩

/-- Runs that leave the same behind take the same course. -/
theorem of_beside (beside : line.Beside other) (unused : other.replies.length = line.replies.length)
    (result : Except Failure (List α)) : SameCourse (result, line) (result, other) :=
  ⟨rfl, beside.requests, beside.events, unused⟩

/-- Of two listings on lines with as many replies, one that ends with a page and one that goes on
behind it take different courses. -/
theorem not_of_ended {items : List α} {ended going : Line} {visited : List String} {rounds : Nat}
    {url : String} (enough : going.replies.length ≤ rounds)
    (left : ended.replies.length = going.replies.length) :
    ¬ SameCourse (.ok items, ended)
        (((fetchPages format token visited rounds url).run going).1.map (items ++ ·),
          ((fetchPages format token visited rounds url).run going).2) := by
  intro same
  rcases run : (fetchPages format token visited rounds url).run going with ⟨failure | more, after⟩
  · rw [run] at same
    cases same.result
  · rw [run] at same
    have fewer := length_replies_lt enough run
    have unused := same.unused
    dsimp only at unused
    omega

theorem symm (same : SameCourse first second) : SameCourse second first :=
  ⟨same.result.symm, same.requests.symm, same.events.symm, same.unused.symm⟩

end SameCourse

/-- The first value tells wherever a reply holds a page. -/
def AllTell (format : Format α) (script : List LinkedReply) : Prop :=
  ∀ reply ∈ script, (reply.bare.resource? format.list).isSome = true → FirstTells reply.values

instance (script : List LinkedReply) : Decidable (AllTell format script) :=
  inferInstanceAs (Decidable (∀ reply ∈ script, _ → FirstTells reply.values))

/-- The first value has to tell on a page and on those behind it. -/
theorem allTell_cons {reply : LinkedReply}
    (shows : (reply.bare.resource? format.list).isSome = true) (script : List LinkedReply) :
    AllTell format (reply :: script) ↔ FirstTells reply.values ∧ AllTell format script := by
  rw [AllTell, List.forall_mem_cons]
  exact and_congr_left' (forall_prop_of_true shows)

/-- The first of some replies, which is silence when there are none. -/
def firstReply (script : List LinkedReply) : LinkedReply :=
  script.headD ⟨.silence, []⟩

section

variable {script : List LinkedReply} {line other after opposite : Line} {sent : Option Request}

/-- The reply that comes next is the first of those that the script stands for. -/
theorem reply_of_map (form : LinkedReply → Reply) (silent : form ⟨.silence, []⟩ = .silence)
    (whole : line.replies = script.map form) : line.reply = form (firstReply script) := by
  rw [Line.reply, whole]
  cases script with
  | nil => exact silent.symm
  | cons reply script => rfl

/-- A listing that ends with a failure of a page takes the same course on both lines, whatever the
first value of that page tells. -/
theorem sameCourse_of_failed
    (failed : FailedAlike format (firstReply script).bare line other after opposite sent)
    (here : line.replies = script.map LinkedReply.spread)
    (there : other.replies = script.map LinkedReply.gathered) (failure : Failure) :
    SameCourse ((.error failure, after) : Except Failure (List α) × Line)
        (.error failure, opposite) ↔
      AllTell format (script.take sent.toList.length) := by
  apply iff_of_true
  · apply SameCourse.of_beside failed.beside
    rw [failed.opposite, failed.left, here, there]
    simp only [List.length_drop, List.length_map]
  · intro reply member good
    cases sent with
    | none => cases member
    | some request =>
      -- The one reply that was used up shows nothing.
      cases script with
      | nil => cases member
      | cons front script =>
        have same : reply = front := by simpa using member
        rw [same, show front.bare.resource? format.list = none from failed.bad rfl] at good
        cases good

end

/-- Pages from an address on are read alike from replies that differ in their links alone: they fail
at the first page, or that page is read from both. -/
theorem run_fetchPages_withLinks {line other : Line} {bare : Reply}
    {links others : List (List UInt8)} (format : Format α) (token : Token) (visited : List String)
    (rounds : Nat) (url : String) (beside : line.Beside other)
    (here : line.reply = bare.withLinks links) (there : other.reply = bare.withLinks others) :
    (∃ failure after opposite sent,
      (fetchPages format token visited rounds url).run line = (.error failure, after) ∧
      (fetchPages format token visited rounds url).run other = (.error failure, opposite) ∧
      FailedAlike format bare line other after opposite sent) ∨
    url ∉ visited ∧ ∃ items request, bare.resource? format.list = some items ∧
      (fetchPage format token url).run line = (.ok ⟨items, firstNext? links⟩, line.sent request) ∧
      (fetchPage format token url).run other =
        (.ok ⟨items, firstNext? others⟩, other.sent request) := by
  by_cases member : url ∈ visited
  · -- The visited addresses are the same on both lines.
    left
    refine ⟨_, _, _, none, run_fetchPages_visited member rounds line,
      run_fetchPages_visited member rounds other, ?_⟩
    exact (FailedAlike.still beside).noted (.linkRepeated url)
  · rcases run_fetchPage_withLinks format token url beside here there with
      ⟨failure, after, opposite, sent, left, right, failed⟩ | read
    · exact .inl ⟨failure, after, opposite, sent, run_fetchPages_failed member left rounds,
        run_fetchPages_failed member right rounds, failed⟩
    · exact .inr ⟨member, read⟩

/-- Behind a page that is read from both lines, the courses are the same exactly if the page leads
to the same place from both, and the courses from there on are the same. -/
theorem sameCourse_page_iff {visited : List String} {rounds : Nat} {url : String}
    {line other between opposite : Line} {items : List α} {one two : Option String}
    (fresh : url ∉ visited)
    (left : (fetchPage format token url).run line = (.ok ⟨items, one⟩, between))
    (right : (fetchPage format token url).run other = (.ok ⟨items, two⟩, opposite))
    (beside : between.Beside opposite)
    (level : opposite.replies.length = between.replies.length)
    (enough : between.replies.length ≤ rounds)
    (agree : one.isSome = true → two.isSome = true → one = two) :
    SameCourse ((fetchPages format token visited (rounds + 1) url).run line)
        ((fetchPages format token visited (rounds + 1) url).run other) ↔
      one = two ∧ ∀ next, one = some next →
        SameCourse
          ((fetchPages format token (url :: visited) rounds next).run
            ((between.noted (.pageReceived url items.length)).noted .pageFollows))
          ((fetchPages format token (url :: visited) rounds next).run
            ((opposite.noted (.pageReceived url items.length)).noted .pageFollows)) := by
  cases one with
  | none =>
    rw [run_fetchPages_last fresh left rfl]
    cases two with
    | none =>
      rw [run_fetchPages_last fresh right rfl]
      apply iff_of_true (.of_beside (beside.noted _) level _)
      exact ⟨rfl, fun next leads => by cases leads⟩
    | some next =>
      rw [run_fetchPages_next fresh right rfl, Run.run_bind_pure]
      apply iff_of_false
      · exact SameCourse.not_of_ended (level.le.trans enough) level.symm
      · intro both
        cases both.1
  | some next =>
    rw [run_fetchPages_next fresh left rfl, Run.run_bind_pure]
    cases two with
    | none =>
      rw [run_fetchPages_last fresh right rfl]
      apply iff_of_false
      · intro course
        apply SameCourse.not_of_ended _ _ course.symm
        · exact enough
        · exact level
      · intro both
        cases both.1
    | some following =>
      have same : next = following := Option.some.inj (agree rfl rfl)
      subst same
      rw [run_fetchPages_next fresh right rfl, Run.run_bind_pure, SameCourse.map_iff items]
      constructor
      · intro course
        refine ⟨rfl, fun other_next leads => ?_⟩
        rw [← Option.some.inj leads]
        exact course
      · intro both
        exact both.2 next rfl

/-- Reading pages takes the same course whether entries are spread over values or gathered in one,
exactly if the first value tells on each page that is read. -/
theorem sameCourse_fetchPages_iff (format : Format α) (token : Token) (rounds : Nat) :
    ∀ (visited : List String) (url : String) (script : List LinkedReply) (line other : Line),
      script.length ≤ rounds → line.Beside other → line.replies = script.map LinkedReply.spread →
      other.replies = script.map LinkedReply.gathered →
      ∃ sent, ((fetchPages format token visited rounds url).run line).2.requests =
          line.requests ++ sent ∧
        (SameCourse ((fetchPages format token visited rounds url).run line)
            ((fetchPages format token visited rounds url).run other) ↔
          AllTell format (script.take sent.length)) := by
  -- Each page that is read uses up a reply, so that rounds and replies get fewer together.
  induction rounds with
  | zero =>
    intro visited url script line other enough beside here there
    rcases run_fetchPages_withLinks format token visited 0 url beside
      (reply_of_map LinkedReply.spread rfl here) (reply_of_map LinkedReply.gathered rfl there) with
      ⟨failure, after, opposite, sent, left, right, failed⟩ | ⟨_, items, request, good, _, _⟩
    · rw [left, right]
      exact ⟨sent.toList, failed.requests, sameCourse_of_failed failed here there failure⟩
    · -- In silence there is no page.
      rw [List.length_eq_zero_iff.1 (Nat.le_zero.1 enough)] at good
      cases good
  | succ rounds ih =>
    intro visited url script line other enough beside here there
    rcases run_fetchPages_withLinks format token visited (rounds + 1) url beside
      (reply_of_map LinkedReply.spread rfl here) (reply_of_map LinkedReply.gathered rfl there) with
      ⟨failure, after, opposite, sent, left, right, failed⟩ |
      ⟨fresh, items, request, good, left, right⟩
    · rw [left, right]
      exact ⟨sent.toList, failed.requests, sameCourse_of_failed failed here there failure⟩
    cases script with
    | nil => cases good
    | cons reply rest =>
      have here_values : (firstReply (reply :: rest)).values = reply.values := rfl
      rw [here_values] at left right
      have shows : (reply.bare.resource? format.list).isSome = true :=
        Option.isSome_iff_exists.2 ⟨items, good⟩
      -- Either line is left with the replies behind the one for this page.
      have ahead : (line.sent request).replies = rest.map LinkedReply.spread :=
        congrArg List.tail here
      have opposite : (other.sent request).replies = rest.map LinkedReply.gathered :=
        congrArg List.tail there
      have level : (other.sent request).replies.length = (line.sent request).replies.length := by
        rw [ahead, opposite, List.length_map, List.length_map]
      have fewer : rest.length ≤ rounds := Nat.le_of_succ_le_succ enough
      have between := beside.sent request
      rw [sameCourse_page_iff fresh left right between level (by rwa [ahead, List.length_map])
        LinkHeader.firstNext?_eq_of_isSome, LinkHeader.firstNext?_eq_iff]
      cases follows : firstNext? (reply.values.map valueOf) with
      | none =>
        rw [follows] at left
        rw [run_fetchPages_last fresh left rfl]
        refine ⟨[request], rfl, ?_⟩
        rw [List.length_singleton, List.take_succ_cons, allTell_cons shows, List.take_zero]
        apply and_congr_right'
        exact iff_of_true (fun next leads => by cases leads) (List.forall_mem_nil _)
      | some next =>
        rw [follows] at left
        rw [run_fetchPages_next fresh left rfl, Run.run_bind_pure]
        obtain ⟨more, requests, same⟩ := ih (url :: visited) next rest _ _ fewer
          ((between.noted (.pageReceived url items.length)).noted .pageFollows) ahead opposite
        refine ⟨request :: more, requests.trans (List.append_assoc _ [request] more), ?_⟩
        rw [List.length_cons, List.take_succ_cons, allTell_cons shows, ← same]
        apply and_congr_right'
        constructor
        · intro course
          exact course next rfl
        · intro course following leads
          rw [← Option.some.inj leads]
          exact course

/-- A listing ends with a page that leads nowhere. -/
theorem Listing.exists_last {visited : List String} {url : String} {replies : List Reply}
    {items : List α} (listing : Listing format reach visited url replies items) :
    ∃ front last, replies = front ++ [last] ∧ (last.resource? format.list).isSome = true ∧
      last.next? = none := by
  induction listing with
  | @last _ _ _ reply items _ _ _ good ends =>
    exact ⟨[], reply, rfl, Option.isSome_iff_exists.2 ⟨items, good⟩, ends⟩
  | @next _ _ _ _ reply _ _ _ _ _ _ _ _ _ ih =>
    obtain ⟨front, last, split, good, ends⟩ := ih
    exact ⟨reply :: front, last, congrArg (reply :: ·) split, good, ends⟩

/-- A listing on a line with entries as they are spread over values. -/
def spreadListing (format : Format α) (token : Token) (url : String) (reach : Reach)
    (script : List LinkedReply) : Except Failure (List α) × Line :=
  (fetchAll format token url).run (.fresh reach (script.map LinkedReply.spread))

/-- The same listing on a line with all entries of a reply in one value. -/
def gatheredListing (format : Format α) (token : Token) (url : String) (reach : Reach)
    (script : List LinkedReply) : Except Failure (List α) × Line :=
  (fetchAll format token url).run (.fresh reach (script.map LinkedReply.gathered))

/-- Where a listing is read, the first value of the last page announces no further page. -/
theorem exists_last_of_spread {items : List α} {url : String} {script : List LinkedReply}
    (read : (spreadListing format token url reach script).1 = .ok items) :
    ∃ front last, script.take (spreadListing format token url reach script).2.requests.length =
        front ++ [last] ∧ (last.bare.resource? format.list).isSome = true ∧
      ¬ Announces (last.values.headD []) := by
  unfold spreadListing at read ⊢
  rw [run_fetchAll] at read ⊢
  generalize course : (fetchPages format token [] (Line.fresh reach
    (script.map LinkedReply.spread)).replies.length url).run
      (.fresh reach (script.map LinkedReply.spread)) = run at read ⊢
  obtain ⟨result, after⟩ := run
  have read : result = .ok items := read
  rw [read] at course
  obtain ⟨replies, split, listing⟩ := Listing.of_run token _ _ _ _ _ _ (Nat.le_refl _) course
  obtain ⟨front, last, ends, good, final⟩ := listing.exists_last
  -- There are as many requests as replies in the listing.
  obtain ⟨other, sent, again, _, _, requests, lengths, _⟩ := listing.run_fetchPages token
    (script.map LinkedReply.spread).length (Line.fresh reach (script.map LinkedReply.spread))
    after.replies (by rw [show script.map LinkedReply.spread = _ from split]; simp) rfl split
  have same : (Except.ok items, after) = (Except.ok items, other) := course.symm.trans again
  have count : after.requests.length = replies.length := by
    rw [(Prod.mk.inj same).2, requests, Line.fresh, List.nil_append, lengths]
  show ∃ front last, script.take after.requests.length = front ++ [last] ∧ _
  have taken : (script.take after.requests.length).map LinkedReply.spread = front ++ [last] := by
    rw [List.map_take, count, show script.map LinkedReply.spread = _ from split, List.take_left,
      ends]
  obtain ⟨read_front, read_last, whole, _, single⟩ := List.map_eq_append_iff.1 taken
  obtain ⟨reply, rfl, rfl⟩ := List.map_eq_singleton_iff.1 single
  rw [LinkedReply.spread, Reply.resource?_withLinks] at good
  rw [LinkedReply.spread, Reply.next?_withLinks good] at final
  refine ⟨read_front, reply, whole, good, ?_⟩
  rw [← LinkHeader.isSome_firstNext?_map, final]
  exact Bool.false_ne_true

/-- What the values of link headers that entries are spread over do to a listing, for every script
of replies. The listing takes the same course as with all entries of a reply in one value exactly if
on each page that is read the first value tells whether there is a further one; and where it is read
to an end, the first value of its last page announces none, nor do all values of that page if the
course is the same. -/
theorem fetchAll_gathers_iff (format : Format α) (token : Token) (url : String) (reach : Reach)
    (script : List LinkedReply) :
    (SameCourse (spreadListing format token url reach script)
        (gatheredListing format token url reach script) ↔
      AllTell format
        (script.take (spreadListing format token url reach script).2.requests.length)) ∧
    ∀ items, (spreadListing format token url reach script).1 = .ok items →
      ∃ front last, script.take (spreadListing format token url reach script).2.requests.length =
          front ++ [last] ∧ ¬ Announces (last.values.headD []) ∧
        (SameCourse (spreadListing format token url reach script)
            (gatheredListing format token url reach script) →
          ¬ Announces last.values.flatten) := by
  have course : SameCourse (spreadListing format token url reach script)
      (gatheredListing format token url reach script) ↔ AllTell format
        (script.take (spreadListing format token url reach script).2.requests.length) := by
    obtain ⟨sent, requests, same⟩ := sameCourse_fetchPages_iff format token script.length [] url
      script (.fresh reach (script.map LinkedReply.spread))
      (.fresh reach (script.map LinkedReply.gathered)) (Nat.le_refl _) ⟨rfl, rfl, rfl⟩ rfl rfl
    unfold spreadListing gatheredListing
    rw [run_fetchAll, run_fetchAll, show (Line.fresh reach
      (script.map LinkedReply.spread)).replies.length = script.length from List.length_map _,
      show (Line.fresh reach (script.map LinkedReply.gathered)).replies.length = script.length from
        List.length_map _, requests, Line.fresh, List.nil_append]
    exact same
  refine ⟨course, ?_⟩
  intro items read
  obtain ⟨front, last, whole, good, quiet⟩ := exists_last_of_spread read
  refine ⟨front, last, whole, quiet, ?_⟩
  intro same announces
  -- The last page is among those that are read.
  have told : FirstTells last.values := by
    apply course.1 same last _ good
    rw [whole]
    exact List.mem_append_right _ List.mem_cons_self
  exact quiet (told.2 announces)

/-- An entry for the first page of a listing. -/
def firstPageEntry : LinkEntry :=
  ⟨"http://h/a".toList, "; rel=\"first\"".toList, by decide, by decide, by decide, by decide,
    fun _ ends => by cases ends; rfl⟩

/-- An entry for the next page, with a parameter behind the relation. -/
def nextPageEntry : LinkEntry :=
  ⟨"http://h/b".toList, "; rel=\"next\"; title=\"b\"".toList, by decide, by decide, by decide,
    by decide, fun _ ends => by cases ends; rfl⟩

/-- An empty page with entries for its links, and a last page with a commit. -/
def pagesWith (values : List (List LinkEntry)) : List LinkedReply :=
  [⟨.answer 200 [] (Utf8.bytes "[]") true, values⟩,
    ⟨.answer 200 [] (Utf8.bytes "[\x7b\"id\": \"c\"\x7d]") true, []⟩]

/-- Two pages of which the first announces the second in the first of its values. -/
theorem fetchAll_gathers_iff_told :
    SameCourse
        (spreadListing Commit.format ⟨"t", by decide⟩ "http://h/a" .plain
          (pagesWith [[nextPageEntry], [firstPageEntry]]))
        (gatheredListing Commit.format ⟨"t", by decide⟩ "http://h/a" .plain
          (pagesWith [[nextPageEntry], [firstPageEntry]])) ∧
      ∃ last ∈ pagesWith [[nextPageEntry], [firstPageEntry]], ¬ Announces last.values.flatten := by
  obtain ⟨course, ending⟩ := fetchAll_gathers_iff Commit.format ⟨"t", by decide⟩ "http://h/a" .plain
    (pagesWith [[nextPageEntry], [firstPageEntry]])
  have same := course.2 (by decide +kernel)
  obtain ⟨front, last, whole, _, quiet⟩ := ending [⟨"c"⟩] (by decide +kernel)
  have member : last ∈ front ++ [last] := List.mem_append_right _ List.mem_cons_self
  rw [← whole] at member
  exact ⟨same, last, List.mem_of_mem_take member, quiet same⟩

/-- Where a page announces the next one in its second value alone, the listing ends there without a
failure: neither is the next page requested, nor is its commit found. -/
theorem second_value_cut_short :
    ((spreadListing Commit.format ⟨"t", by decide⟩ "http://h/a" .plain
        (pagesWith [[firstPageEntry], [nextPageEntry]])).1 = .ok [] ∧
      (spreadListing Commit.format ⟨"t", by decide⟩ "http://h/a" .plain
        (pagesWith [[firstPageEntry], [nextPageEntry]])).2.requests.map (·.url) = ["http://h/a"]) ∧
    (gatheredListing Commit.format ⟨"t", by decide⟩ "http://h/a" .plain
        (pagesWith [[firstPageEntry], [nextPageEntry]])).1 = .ok [⟨"c"⟩] ∧
      (gatheredListing Commit.format ⟨"t", by decide⟩ "http://h/a" .plain
        (pagesWith [[firstPageEntry], [nextPageEntry]])).2.requests.map (·.url) =
          ["http://h/a", "http://h/b"] := by
  refine ⟨⟨?_, ?_⟩, ?_, ?_⟩
  all_goals decide +kernel

end MergeNotes
