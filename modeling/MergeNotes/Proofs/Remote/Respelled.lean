import Mathlib.Data.List.Chain
import MergeNotes.Proofs.Remote.Visits

/-! The pages of a listing as the server sees them: by the URLs that requests show, which addresses
can spell in many ways. -/

namespace MergeNotes

open Json (Format)

variable {α : Type} {format : Format α} {token : Token} {reach : Reach}

/-- The URL that requests for an address show, where one can be made. -/
def wireUrl? (address : String) : Option String :=
  (requestUrl address).toOption.map fun url => String.ofList url.withoutCredentials.withoutFragment

/-- Requests for two addresses show the same URL. -/
def SamePage (first second : String) : Prop :=
  ∃ wire, wireUrl? first = some wire ∧ wireUrl? second = some wire

/-- What an address shows, read again, is the URL without what is not shown. -/
theorem parse_wire {address : String} {url : Url} (requested : requestUrl address = .ok url) :
    Url.parse (String.ofList url.withoutCredentials.withoutFragment) = .ok url.shown := by
  obtain ⟨read, known, _, rfl⟩ := requestUrl_eq_ok_iff.1 requested
  obtain ⟨port, good⟩ := Url.isRead_of_parse known (isWeb_of_requestUrl known requested)
  rw [← Url.text_shown]
  exact good.withoutReadableCredentials.shown.again

theorem wireUrl?_eq_some_iff {address wire : String} :
    wireUrl? address = some wire ↔ ∃ url, requestUrl address = .ok url ∧
      wire = String.ofList url.withoutCredentials.withoutFragment := by
  unfold wireUrl?
  cases requestUrl address with
  | error failure => simp [Except.toOption]
  | ok url => simp [Except.toOption, eq_comm]

/-- Connections are made to what is shown. -/
theorem Reach.connects_shown (reach : Reach) (url : Url) :
    reach.connects url.shown = reach.connects url := by
  unfold Reach.connects Reach.connect
  rw [url.host?_shown, url.port_shown]
  rfl

/-- Where a request for one address of a page arrives, one for any other does. -/
theorem connects_of_samePage {first second : String} {url other : Url}
    (same : SamePage first second) (requested : requestUrl first = .ok url)
    (again : requestUrl second = .ok other) : reach.connects other = reach.connects url := by
  obtain ⟨wire, shown, shown'⟩ := same
  obtain ⟨_, known, rfl⟩ := wireUrl?_eq_some_iff.1 shown
  obtain ⟨_, known', wires⟩ := wireUrl?_eq_some_iff.1 shown'
  rw [requested, Except.ok.injEq] at known
  rw [again, Except.ok.injEq] at known'
  subst known known'
  -- What is shown of both reads as one URL, which is all that a connection depends on.
  have read := parse_wire requested
  rw [wires, parse_wire again, Except.ok.injEq] at read
  rw [← reach.connects_shown other, read, reach.connects_shown]

namespace Visit

variable {visit earlier later : Visit} {items : List α}

theorem request?_eq_some_iff {request : Request} :
    visit.request? token reach = some request ↔ ∃ url, requestUrl visit.address = .ok url ∧
      reach.connects url = true ∧ request = requestFor token .get url none := by
  unfold request?
  cases requestUrl visit.address with
  | error failure => simp
  | ok url =>
    simp only [Except.ok.injEq, exists_eq_left']
    by_cases connected : reach.connects url = true
    · rw [if_pos connected, Option.some.injEq]
      exact ⟨fun same => ⟨connected, same.symm⟩, fun same => same.2.symm⟩
    · rw [if_neg connected]
      exact ⟨fun same => absurd same (by simp), fun same => absurd same.1 connected⟩

/-- A page that shows items and another one are the same page exactly if the requests for both show
the same URL. -/
theorem samePage_iff (shown : earlier.Shows format reach items) (token : Token) :
    SamePage earlier.address later.address ↔
      ∃ first second, earlier.request? token reach = some first ∧
        later.request? token reach = some second ∧ first.url = second.url := by
  constructor
  · intro same
    obtain ⟨url, _, requested, connected, _⟩ := shown
    obtain ⟨wire, known, known'⟩ := same
    obtain ⟨other, again, wires⟩ := wireUrl?_eq_some_iff.1 known'
    obtain ⟨_, found, wires'⟩ := wireUrl?_eq_some_iff.1 known
    rw [requested, Except.ok.injEq] at found
    subst found
    have reached : reach.connects other = true := by
      rw [connects_of_samePage ⟨wire, known, known'⟩ requested again, connected]
    refine ⟨_, _, request?_eq_some_iff.2 ⟨url, requested, connected, rfl⟩,
      request?_eq_some_iff.2 ⟨other, again, reached, rfl⟩, ?_⟩
    exact wires'.symm.trans wires
  · intro requests
    obtain ⟨first, second, one, two, same⟩ := requests
    obtain ⟨url, requested, _, rfl⟩ := request?_eq_some_iff.1 one
    obtain ⟨other, again, _, rfl⟩ := request?_eq_some_iff.1 two
    exact ⟨_, wireUrl?_eq_some_iff.2 ⟨url, requested, rfl⟩,
      wireUrl?_eq_some_iff.2 ⟨other, again, same⟩⟩

end Visit

/-- No page is visited by two addresses. -/
def IsSpelledOnce (visits : List Visit) : Prop :=
  visits.Pairwise fun earlier later => ¬ SamePage earlier.address later.address

/-- What is taken of a list stands in it, or fills up what is missing. -/
theorem mem_takeD {β : Type} {item default : β} {count : Nat} {items : List β}
    (member : item ∈ items.takeD count default) : item ∈ items ∨ item = default := by
  induction count generalizing items with
  | zero => cases member
  | succ count ih =>
    rw [List.takeD_succ] at member
    cases items with
    | nil =>
      rcases List.mem_cons.1 member with rfl | later
      · exact .inr rfl
      · exact ih later
    | cons head items =>
      rcases List.mem_cons.1 member with rfl | later
      · exact .inl List.mem_cons_self
      · exact (ih later).imp_left (List.mem_cons_of_mem head)

/-- A list is pairwise related if each item is related to all that stand before it. -/
theorem pairwise_iff_of_split {β : Type} {related : β → β → Prop} {items : List β} :
    items.Pairwise related ↔ ∀ front item rest, items = front ++ item :: rest →
      ∀ earlier ∈ front, related earlier item := by
  constructor
  · intro pairwise front item rest split earlier member
    rw [split, List.pairwise_append] at pairwise
    exact pairwise.2.2 earlier member item List.mem_cons_self
  · intro splits
    induction items with
    | nil => exact List.Pairwise.nil
    | cons head items ih =>
      rw [List.pairwise_cons]
      constructor
      · intro item member
        obtain ⟨front, rest, split⟩ := List.append_of_mem member
        exact splits (head :: front) item rest (by rw [split, List.cons_append]) head
          List.mem_cons_self
      · apply ih
        intro front item rest split earlier member
        exact splits (head :: front) item rest (by rw [split, List.cons_append]) earlier
          (List.mem_cons_of_mem _ member)

section

variable {visits : List Visit} {last : Visit}

/-- The requests for pages, all but the last of which show items, are for different URLs exactly if
no page is visited by two addresses. -/
theorem nodup_requests_iff (token : Token)
    (good : ∀ visit ∈ visits, ∃ items, visit.Shows format reach items) :
    (((visits ++ [last]).filterMap (·.request? token reach)).map (·.url)).Nodup ↔
      IsSpelledOnce (visits ++ [last]) := by
  -- Of each two pages the first one shows items.
  have apart : ∀ earlier ∈ visits, ∀ later : Visit,
      (∀ first, earlier.request? token reach = some first →
        ∀ second, later.request? token reach = some second → first.url ≠ second.url) ↔
        ¬ SamePage earlier.address later.address := by
    intro earlier member later
    obtain ⟨items, shown⟩ := good earlier member
    rw [Visit.samePage_iff shown token]
    constructor
    · intro differ same
      obtain ⟨first, second, one, two, equal⟩ := same
      exact differ first one second two equal
    · intro other first one second two equal
      exact other ⟨first, second, one, two, equal⟩
  unfold List.Nodup IsSpelledOnce
  rw [List.pairwise_map, List.pairwise_filterMap, List.pairwise_append, List.pairwise_append]
  apply and_congr
  · apply List.Pairwise.iff_of_mem
    intro earlier later member _
    exact apart earlier member later
  apply and_congr
  · -- The last page alone is no two pages.
    exact iff_of_true (List.pairwise_singleton _ _) (List.pairwise_singleton _ _)
  · constructor
    · intro differ earlier member later final
      exact (apart earlier member later).1 (differ earlier member later final)
    · intro other earlier member later final
      exact (apart earlier member later).2 (other earlier member later final)

/-- A listing that comes to one of its pages again ends there with a loop. -/
def ReportsLoops (format : Format α) (reach : Reach) (visits : List Visit)
    (result : Except Failure (List α)) : Prop :=
  ∀ front visit rest next, visits = front ++ visit :: rest →
    (∃ items, visit.Shows format reach items) → visit.reply.next? = some next →
    (∃ earlier ∈ front ++ [visit], SamePage earlier.address next) →
    rest = [] ∧ result = .error (.remote (.paginationLoop next))

variable {url : String} {before after : Line} {result : Except Failure (List α)}

/-- A page that shows items and has a link is not the end of a listing, unless that is a loop. -/
theorem Ending.eq_loop_of_shows (ending : Ending format reach [] visits last result)
    (shown : ∃ items, last.Shows format reach items) {next : String}
    (leads : last.reply.next? = some next) :
    result = .error (.remote (.paginationLoop next)) := by
  cases ending with
  | complete ends _ =>
    rw [leads] at ends
    cases ends
  | loop _ link _ =>
    rw [leads, Option.some.injEq] at link
    rw [link]
  | failed fails =>
    obtain ⟨items, good⟩ := shown
    rw [Visit.outcome_eq_ok_iff.2 good] at fails
    cases fails

/-- A listing reports each loop exactly if no page is visited by two addresses. -/
theorem reportsLoops_iff (walk : Walk token url before after (visits ++ [last]))
    (good : ∀ visit ∈ visits, ∃ items, visit.Shows format reach items)
    (ending : Ending format reach [] visits last result) :
    ReportsLoops format reach (visits ++ [last]) result ↔ IsSpelledOnce (visits ++ [last]) := by
  unfold IsSpelledOnce
  rw [pairwise_iff_of_split]
  have leads := walk.leads
  constructor
  · intro reports front later rest split earlier member same
    rcases List.eq_nil_or_concat front with rfl | ⟨before, visit, rfl⟩
    · cases member
    rw [List.concat_eq_append] at split member
    -- The page before the later one leads to it, so that the listing would have ended there.
    rw [List.append_assoc, List.singleton_append] at split
    rw [split, List.isChain_split, List.isChain_cons_cons] at leads
    have shown : ∃ items, visit.Shows format reach items := by
      apply good
      -- It is not the last one, since there is one behind it.
      have early := congrArg List.dropLast split
      rw [List.dropLast_concat, List.dropLast_append_of_ne_nil (List.cons_ne_nil _ _),
        List.dropLast_cons_of_ne_nil (List.cons_ne_nil _ _)] at early
      rw [early]
      exact List.mem_append_right _ List.mem_cons_self
    obtain ⟨nothing, _⟩ := reports before visit (later :: rest) later.address split shown
      leads.2.1 ⟨earlier, member, same⟩
    cases nothing
  · intro once front visit rest next split shown link back
    obtain ⟨earlier, member, same⟩ := back
    cases rest with
    | nil =>
      obtain ⟨_, final⟩ := List.append_inj' split rfl
      rw [List.cons.injEq] at final
      rw [← final.1] at shown link
      exact ⟨rfl, ending.eq_loop_of_shows shown link⟩
    | cons later rest =>
      -- The page behind this one is where the link leads, and was visited by another address.
      rw [split, List.isChain_split, List.isChain_cons_cons] at leads
      have address : next = later.address := Option.some.inj (link.symm.trans leads.2.1)
      have whole : visits ++ [last] = (front ++ [visit]) ++ later :: rest := by
        rw [split, List.append_assoc, List.singleton_append]
      exact absurd (address ▸ same) (once _ later rest whole earlier member)

/-- Each address of a walk is the one that it starts at, or one that a reply leads to. -/
theorem Walk.address_cases (walk : Walk token url before after visits) :
    ∀ visit ∈ visits, visit.address = url ∨
      ∃ reply ∈ before.replies, reply.next? = some visit.address := by
  intro visit member
  obtain ⟨front, rest, split⟩ := List.append_of_mem member
  rcases List.eq_nil_or_concat front with rfl | ⟨earlier, previous, rfl⟩
  · have starts := walk.starts
    rw [split, List.nil_append, List.head?_cons, Option.map_some, Option.some.injEq] at starts
    exact .inl starts
  · have leads := walk.leads
    rw [split, List.concat_eq_append, List.append_assoc, List.singleton_append, List.isChain_split,
      List.isChain_cons_cons] at leads
    have link := leads.2.1
    -- The reply to the page before is one of those that came, as silence leads nowhere.
    have known : previous.reply ∈ before.replies.takeD visits.length .silence := by
      rw [← walk.replied, split]
      exact List.mem_map_of_mem (by simp)
    rcases mem_takeD known with present | silent
    · exact .inr ⟨previous.reply, present, link⟩
    · rw [silent] at link
      cases link

/-- An address is written as requests for it show it. -/
def IsPlainAddress (address : String) : Prop :=
  ∀ wire, wireUrl? address = some wire → wire = address

/-- What requests show is written as they show it. -/
theorem isPlainAddress_of_wireUrl? {address wire : String}
    (shown : wireUrl? address = some wire) : IsPlainAddress wire := by
  obtain ⟨url, requested, rfl⟩ := wireUrl?_eq_some_iff.1 shown
  intro other again
  obtain ⟨asked, possible, rfl⟩ := wireUrl?_eq_some_iff.1 again
  obtain ⟨read, known, _, rfl⟩ := requestUrl_eq_ok_iff.1 possible
  rw [parse_wire requested, Except.ok.injEq] at known
  -- There are no credentials left that could be hidden, and no fragment.
  rw [← known, Url.withoutCredentials_withoutReadableCredentials, ← Url.text_shown,
    ← Url.text_shown, Url.text_shown_shown]

/-- Where all addresses are written as they are shown, no page is visited by two. -/
theorem Walk.isSpelledOnce (walk : Walk token url before after visits)
    (plain : ∀ address, address = url ∨ (∃ reply ∈ before.replies, reply.next? = some address) →
      IsPlainAddress address) : IsSpelledOnce visits := by
  have distinct := walk.distinct
  unfold List.Nodup at distinct
  rw [List.pairwise_map] at distinct
  apply distinct.imp_of_mem
  intro earlier later member member' differ same
  obtain ⟨wire, shown, shown'⟩ := same
  have first := plain _ (walk.address_cases earlier member) wire shown
  have second := plain _ (walk.address_cases later member') wire shown'
  exact differ (first.symm.trans second)

end

/-- What the requests of a listing show, whatever the replies are. The listing walks from page to
page, and sends the requests for the pages. They are for different URLs exactly if each link to a
page that was visited ends the listing with a loop, which is the case exactly if no page is visited
by two addresses that show the same URL; and so it is where the address of the listing and all links
are written as requests show them, as every URL is that a request has shown. -/
theorem fetchAll_repeats_iff (format : Format α) (token : Token) (url : String) (before : Line) :
    ∃ visits sent, Walk token url before ((fetchAll format token url).run before).2 visits ∧
      ((fetchAll format token url).run before).2.requests = before.requests ++ sent ∧
      ((sent.map (·.url)).Nodup ↔
        ReportsLoops format before.reach visits ((fetchAll format token url).run before).1) ∧
      ((sent.map (·.url)).Nodup ↔ IsSpelledOnce visits) ∧
      ((∀ address, address = url ∨ (∃ reply ∈ before.replies, reply.next? = some address) →
        IsPlainAddress address) → (sent.map (·.url)).Nodup) ∧
      ∀ address wire, wireUrl? address = some wire → IsPlainAddress wire := by
  rw [run_fetchAll]
  obtain ⟨visits, last, walk, _, good, ending⟩ := walks_fetchPages format token
    before.replies.length [] url before (Nat.le_refl _) List.not_mem_nil
  have once := @nodup_requests_iff _ format before.reach visits last token good
  refine ⟨visits ++ [last], _, walk, walk.requests, ?_, once, ?_, ?_⟩
  · rw [once, reportsLoops_iff walk good ending]
  · intro plain
    exact once.2 (walk.isSpelledOnce plain)
  · intro address wire shown
    exact isPlainAddress_of_wireUrl? shown

/-- An empty page that leads to an address, and an empty page that leads nowhere. -/
def linkedPages (next : String) : List Reply :=
  [.answer 200 [Utf8.bytes ("<" ++ next ++ ">; rel=\"next\"")] (Utf8.bytes "[]") true,
    .answer 200 [] (Utf8.bytes "[]") true]

/-- Two pages whose addresses are plain are different on the wire. -/
theorem fetchAll_repeats_iff_plain :
    (((fetchAll Commit.format ⟨"t", by decide⟩ "http://h/a").run
      (.fresh .plain (linkedPages "http://h/b"))).2.requests.map (·.url)).Nodup := by
  obtain ⟨visits, sent, walk, requests, _, _, plain, _⟩ := fetchAll_repeats_iff Commit.format
    ⟨"t", by decide⟩ "http://h/a" (.fresh .plain (linkedPages "http://h/b"))
  rw [requests]
  apply plain
  intro address known wire shown
  have either : address = "http://h/a" ∨ address = "http://h/b" := by
    rcases known with start | ⟨reply, member, leads⟩
    · exact .inl start
    · have links : (linkedPages "http://h/b").filterMap Reply.next? = ["http://h/b"] := by
        decide +kernel
      have linked : address ∈ (linkedPages "http://h/b").filterMap Reply.next? :=
        List.mem_filterMap.2 ⟨reply, member, leads⟩
      rw [links] at linked
      exact .inr (List.mem_singleton.1 linked)
  have itself : wireUrl? "http://h/a" = some "http://h/a" ∧
      wireUrl? "http://h/b" = some "http://h/b" := by decide +kernel
  rcases either with rfl | rfl
  · exact Option.some.inj (shown.symm.trans itself.1)
  · exact Option.some.inj (shown.symm.trans itself.2)

/-- A link to the page itself with the host in upper case is followed, and the page is requested
again. -/
theorem respelled_page_fetched_twice :
    ((fetchAll Commit.format ⟨"t", by decide⟩ "http://h/a").run
      (.fresh .plain (linkedPages "http://H/a"))).1 = .ok [] ∧
    ((fetchAll Commit.format ⟨"t", by decide⟩ "http://h/a").run
      (.fresh .plain (linkedPages "http://H/a"))).2.requests.map (·.url) =
        ["http://h/a", "http://h/a"] := by
  constructor
  all_goals decide +kernel

end MergeNotes
