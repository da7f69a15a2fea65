import MergeNotes.Proofs.Remote.Pages

/-! Complete listings: replies of which each but the last leads to the next, and the last to none.
They are read to the end, and nothing behind them is touched. -/

namespace MergeNotes

open Json (Format)

variable {α : Type} {format : Format α} {reach : Reach}

/-- Replies make up the listing from an address on: each page can be asked for, and was not before,
and is good. -/
inductive Listing (format : Format α) (reach : Reach) :
    List String → String → List Reply → List α → Prop where
  | last {visited : List String} {url : String} {asked : Url} {reply : Reply} {items : List α}
      (fresh : url ∉ visited) (requested : requestUrl url = .ok asked)
      (reached : reach.connects asked = true)
      (good : reply.resource? format.list = some items) (ends : reply.next? = none) :
      Listing format reach visited url [reply] items
  | next {visited : List String} {url next : String} {asked : Url} {reply : Reply}
      {replies : List Reply} {items more : List α}
      (fresh : url ∉ visited) (requested : requestUrl url = .ok asked)
      (reached : reach.connects asked = true)
      (good : reply.resource? format.list = some items) (leads : reply.next? = some next)
      (rest : Listing format reach (url :: visited) next replies more) :
      Listing format reach visited url (reply :: replies) (items ++ more)

/-- The reply to one who reads holds a resource exactly when it is complete and says so. -/
theorem Reply.resource?_eq_some_iff {reply : Reply} {value : α} :
    reply.resource? format = some value ↔
      ∃ answer, reply.answer? = some answer ∧ answer.status = 200 ∧
        format.decodeLenient answer.body = .ok value := by
  rw [Reply.resource?, Option.bind_eq_some_iff]
  constructor
  · -- An answer of another status, or one that cannot be decoded, holds nothing.
    rintro ⟨answer, answered, found⟩
    by_cases good : answer.status = 200
    · rw [if_pos good] at found
      cases decoded : format.decodeLenient answer.body with
      | error error => simp [decoded, Except.toOption] at found
      | ok other =>
        simp only [decoded, Except.toOption, Option.some.injEq] at found
        exact ⟨answer, answered, good, found ▸ decoded⟩
    · rw [if_neg good] at found
      simp at found
  · rintro ⟨answer, answered, good, decoded⟩
    exact ⟨answer, answered, by rw [if_pos good, decoded]; rfl⟩

/-- A good page is read, and its reply is used up. -/
theorem run_fetchPage {url : String} {asked : Url} {before : Line} {items : List α} (token : Token)
    (requested : requestUrl url = .ok asked) (reached : before.reach.connects asked = true)
    (good : before.reply.resource? format.list = some items) :
    (fetchPage format token url).run before =
      (.ok ⟨items, before.reply.next?⟩, before.sent (requestFor token .get asked none)) := by
  obtain ⟨answer, answered, status, decoded⟩ := Reply.resource?_eq_some_iff.1 good
  have received := (@Reply.receive_eq_ok_iff asked _ _).2 answered
  unfold fetchPage
  -- The four steps of reading a page are taken one by one.
  rw [Run.run_bind, run_exchange, requested]
  dsimp only
  rw [if_pos reached, received]
  simp only [Run.run_bind, run_requireStatus, if_pos status, run_decodeBody, decoded, Run.run_pure,
    Reply.next?_of_answer answered]

/-- A page without a link behind it is the last that is read. -/
theorem run_fetchPages_last {token : Token} {visited : List String} {url : String}
    {before between : Line} {page : Page α} (fresh : url ∉ visited)
    (read : (fetchPage format token url).run before = (.ok page, between))
    (ends : page.next = none) (rounds : Nat) :
    (fetchPages format token visited (rounds + 1) url).run before =
      (.ok page.items, between.noted (.pageReceived url page.items.length)) := by
  rw [fetchPages, if_neg fresh, Run.run_bind, read]
  simp only [Run.run_note_bind, ends, Run.run_pure]

/-- Where a page has a link, the listing behind it is read as one of its own, to which this page
counts as visited. Its items come behind those of the page. -/
theorem run_fetchPages_next {token : Token} {visited : List String} {url next : String}
    {before between : Line} {page : Page α} (fresh : url ∉ visited)
    (read : (fetchPage format token url).run before = (.ok page, between))
    (leads : page.next = some next) (rounds : Nat) :
    (fetchPages format token visited (rounds + 1) url).run before =
      (fetchPages format token (url :: visited) rounds next >>= fun more =>
        pure (page.items ++ more)).run
          ((between.noted (.pageReceived url page.items.length)).noted .pageFollows) := by
  rw [fetchPages, if_neg fresh, Run.run_bind, read]
  simp only [Run.run_note_bind, leads]

/-- A listing is read to its end whatever replies come behind it, as long as the rounds are enough:
it takes one request for each of its replies. -/
theorem Listing.run_fetchPages {visited : List String} {url : String} {replies : List Reply}
    {items : List α} (listing : Listing format reach visited url replies items) (token : Token) :
    ∀ (rounds : Nat) (before : Line) (rest : List Reply), replies.length ≤ rounds →
      before.reach = reach → before.replies = replies ++ rest →
      ∃ after sent, (fetchPages format token visited rounds url).run before = (.ok items, after) ∧
        after.reach = reach ∧ after.replies = rest ∧ after.requests = before.requests ++ sent ∧
        sent.length = replies.length ∧ ∀ request ∈ sent, request.method = .get := by
  -- The listing behind the first page is one of its own, which starts on the line behind it.
  induction listing with
  | @last visited url asked reply items fresh requested reached good ends =>
    -- There is a reply for the page, and so there is a round for it.
    intro rounds before rest enough same replies
    obtain ⟨rounds, rfl⟩ : ∃ fewer, rounds = fewer + 1 :=
      ⟨rounds - 1, by rw [List.length_singleton] at enough; omega⟩
    have here : before.reply = reply := by rw [Line.reply, replies]; rfl
    have read := run_fetchPage token requested (same ▸ reached) (here ▸ good)
    refine ⟨(before.sent (requestFor token .get asked none)).noted (.pageReceived url items.length),
      [requestFor token .get asked none], ?_, same, ?_, rfl, rfl, by simp [requestFor]⟩
    · exact run_fetchPages_last fresh read (here ▸ ends) rounds
    · rw [Line.noted, Line.sent, replies]
      rfl
  | @next visited url next asked reply replies items more fresh requested reached good leads _ ih =>
    intro rounds before rest enough same whole
    obtain ⟨rounds, rfl⟩ : ∃ fewer, rounds = fewer + 1 :=
      ⟨rounds - 1, by rw [List.length_cons] at enough; omega⟩
    have here : before.reply = reply := by rw [Line.reply, whole]; rfl
    have read := run_fetchPage token requested (same ▸ reached) (here ▸ good)
    obtain ⟨after, sent, run, reach, left, requests, lengths, methods⟩ := ih rounds
      (((before.sent (requestFor token .get asked none)).noted
        (.pageReceived url items.length)).noted .pageFollows) rest
      (by rw [List.length_cons] at enough; omega) same
      (by rw [Line.noted, Line.noted, Line.sent, whole]; rfl)
    refine ⟨after, requestFor token .get asked none :: sent, ?_, reach, left, ?_, ?_, ?_⟩
    · rw [run_fetchPages_next fresh read (here ▸ leads) rounds, Run.run_bind, run]
      rfl
    · rw [requests, Line.noted, Line.noted, Line.sent, List.append_assoc, List.singleton_append]
    · rw [List.length_cons, List.length_cons, lengths]
    · exact List.forall_mem_cons.2 ⟨rfl, methods⟩

/-- A page that was read could be asked for, and was good. -/
theorem of_run_fetchPage {token : Token} {url : String} {before after : Line} {page : Page α}
    (read : (fetchPage format token url).run before = (.ok page, after)) :
    ∃ asked, requestUrl url = .ok asked ∧ before.reach.connects asked = true ∧
      before.reply.resource? format.list = some page.items ∧ page.next = before.reply.next? ∧
      after = before.sent (requestFor token .get asked none) := by
  have carries := carriesOut_fetchPage format token url before
  rw [read] at carries
  obtain ⟨completes, good, leads⟩ := carries
  -- The one step of reading the page was taken.
  cases completes with
  | cons sends _ _ _ =>
    obtain ⟨addressed, requested, reached, _⟩ := sends
    rw [Step.read, Except.ok.injEq] at addressed
    subst addressed
    refine ⟨_, requested, reached, good, leads, ?_⟩
    have run := run_fetchPage token requested reached good
    rw [read] at run
    exact congrArg Prod.snd run

/-- Where reading pages succeeds, the first of them was read, and it had a reply. -/
theorem exists_page_of_run {token : Token} {visited : List String} {rounds : Nat} {url : String}
    {before after : Line} {items : List α}
    (read : (fetchPages format token visited rounds url).run before = (.ok items, after)) :
    url ∉ visited ∧ ∃ page between reply others,
      (fetchPage format token url).run before = (.ok page, between) ∧
      before.replies = reply :: others := by
  by_cases member : url ∈ visited
  · rw [run_fetchPages_visited member] at read
    cases read
  · refine ⟨member, ?_⟩
    rw [fetchPages, if_neg member, Run.run_bind] at read
    rcases first : (fetchPage format token url).run before with ⟨failure | page, between⟩
    · rw [first] at read
      cases read
    · obtain ⟨_, _, _, good, _⟩ := of_run_fetchPage first
      -- In silence no page is good.
      cases replies : before.replies with
      | nil =>
        rw [Line.reply, replies, List.headD_nil, Reply.resource?_silence] at good
        cases good
      | cons reply others => exact ⟨page, between, reply, others, rfl, rfl⟩

/-- Where reading succeeds, a complete listing was read, and nothing behind it. -/
theorem Listing.of_run (token : Token) (rounds : Nat) :
    ∀ (visited : List String) (url : String) (before after : Line) (items : List α),
      before.replies.length ≤ rounds →
      (fetchPages format token visited rounds url).run before = (.ok items, after) →
      ∃ replies, before.replies = replies ++ after.replies ∧
        Listing format before.reach visited url replies items := by
  induction rounds with
  | zero =>
    intro visited url before after items enough read
    -- With no round left there are no replies either, but the first page had one.
    obtain ⟨_, _, _, reply, others, _, whole⟩ := exists_page_of_run read
    rw [whole, List.length_cons] at enough
    omega
  | succ rounds ih =>
    intro visited url before after items enough read
    obtain ⟨fresh, page, between, reply, others, first, whole⟩ := exists_page_of_run read
    obtain ⟨asked, requested, reached, good, leads, rfl⟩ := of_run_fetchPage first
    have here : before.reply = reply := by rw [Line.reply, whole]; rfl
    rw [here] at good leads
    cases follows : reply.next? with
    | none =>
      rw [run_fetchPages_last fresh first (leads.trans follows)] at read
      cases read
      refine ⟨[reply], ?_, .last fresh requested reached good follows⟩
      rw [Line.noted, Line.sent, whole]
      rfl
    | some next =>
      rw [run_fetchPages_next fresh first (leads.trans follows), Run.run_bind] at read
      -- The rest is a listing of its own, on the line behind the first page.
      rcases rest : (fetchPages format token (url :: visited) rounds next).run
        (((before.sent (requestFor token .get asked none)).noted
          (.pageReceived url page.items.length)).noted .pageFollows) with ⟨failure | more, behind⟩
      · rw [rest] at read
        cases read
      · rw [rest] at read
        cases read
        obtain ⟨replies, split, listing⟩ := ih _ _ _ _ _ (by
          rw [Line.noted, Line.noted, Line.sent, List.length_tail]
          omega) rest
        refine ⟨reply :: replies, ?_, .next fresh requested reached good follows listing⟩
        rw [List.cons_append, ← split, Line.noted, Line.noted, Line.sent, whole]
        rfl

/-- There are as many rounds as replies to a listing. -/
theorem run_fetchAll (format : Format α) (token : Token) (url : String) (before : Line) :
    (fetchAll format token url).run before =
      (fetchPages format token [] before.replies.length url).run before := by
  unfold fetchAll
  rw [Run.run_bind, Run.run_get]

/-- The commits of a complete listing are read, with one request for each of its replies. -/
theorem Listing.run_fetchCommits {url : String} {replies : List Reply} {commits : List Commit}
    (listing : Listing Commit.format reach [] url replies commits) (token : Token) {before : Line}
    {rest : List Reply} (same : before.reach = reach) (whole : before.replies = replies ++ rest) :
    ∃ after sent, (fetchCommits token url).run before = (.ok (commits.map (·.id)), after) ∧
      after.reach = reach ∧ after.replies = rest ∧ after.requests = before.requests ++ sent ∧
      sent.length = replies.length ∧ ∀ request ∈ sent, request.method = .get := by
  -- There are as many rounds as replies, and so no fewer than the listing takes.
  have enough : replies.length ≤ before.replies.length := by
    rw [whole, List.length_append]
    omega
  obtain ⟨after, sent, run, reached, left, requests, lengths, methods⟩ :=
    listing.run_fetchPages token before.replies.length before rest enough same whole
  refine ⟨after.noted (.commitsReceived commits.length), sent, ?_, reached, left, requests, lengths,
    methods⟩
  unfold fetchCommits
  rw [Run.run_bind, run_fetchAll, run]
  rfl

end MergeNotes
