import MergeNotes.Proofs.Decoration.Addresses
import MergeNotes.Proofs.Decoration.Failures
import MergeNotes.Proofs.Remote.Refusal
import MergeNotes.Proofs.Service.Tokens

/-! Where the access token goes: to the origin of the API that a report names, and to wherever a
listing leads. -/

namespace MergeNotes

open Url (isTailChar)

variable {report : Report} {url base : Url} {address : String}

/-- Two URLs have one origin: what is sent to either goes to the same server. -/
structure Url.SameOrigin (url base : Url) : Prop where
  scheme : url.scheme = base.scheme
  host : url.host? = base.host?
  port : url.authority.bind (·.port) = base.authority.bind (·.port)

/-- A URL is at home if it has the origin of the API that a report names. -/
def Url.IsHome (report : Report) (url : Url) : Prop :=
  ∃ apiUrl base, report.properties.get? "gitlab.api.url" = some apiUrl ∧
    Url.parse apiUrl = .ok base ∧ url.SameOrigin base

/-- A request is at home if its URL is. -/
def Request.IsHome (report : Report) (request : Request) : Prop :=
  ∃ url, Url.parse request.url = .ok url ∧ url.IsHome report

namespace Url

theorem sameOrigin_of_authority (scheme : url.scheme = base.scheme)
    (authority : url.authority = base.authority) : url.SameOrigin base := by
  refine ⟨scheme, ?_, ?_⟩
  · unfold host?
    rw [authority]
  · rw [authority]

/-- What is hidden of a URL has nothing to do with its origin. -/
theorem sameOrigin_shown_iff : url.shown.SameOrigin base ↔ url.SameOrigin base := by
  constructor
  · intro same
    exact ⟨same.scheme, url.host?_shown ▸ same.host, url.port_shown ▸ same.port⟩
  · intro same
    exact ⟨same.scheme, url.host?_shown.trans same.host, url.port_shown.trans same.port⟩

/-- Whatever names are put behind the root of an API, the slashes at its end left out, the origin is
that of the root. -/
theorem exists_base_of_below {text : String} {trimmed : Url} {names : List String}
    (found : parse (withoutTrailingSlashes text) = .ok trimmed)
    (read : parse (String.ofList ((withoutTrailingSlashes text).toList ++ pathBelow names)) =
      .ok url)
    (web : url.isWeb = true) (present : names ≠ []) :
    ∃ base, parse text = .ok base ∧ url.SameOrigin base := by
  obtain ⟨tail, slash, plain⟩ := exists_tail present
  rw [slash] at read plain
  have whole := toList_eq_append_slashes text
  cases slashed : trailingSlashes text with
  | zero =>
    -- Without slashes at its end the root is read as it is.
    rw [slashed, List.replicate_zero, List.append_nil, String.toList_inj] at whole
    rw [← whole] at found read
    have authority := authority_of_append found (List.forall_mem_cons.1 plain).2 read web
    exact ⟨trimmed, found, sameOrigin_of_authority (scheme_of_append found plain read) authority⟩
  | succ count =>
    -- The slashes are a tail like any other.
    rw [slashed, List.replicate_succ] at whole
    obtain ⟨sibling, known, scheme, authority, _⟩ := exists_sibling found
      (List.forall_mem_cons.1 plain).2 read web fun c => @isTailChar_of_mem_slashes count c
    rw [← whole, String.ofList_toList] at known
    exact ⟨sibling, known, sameOrigin_of_authority scheme.symm authority.symm⟩

end Url

/-- A request is made for an address. -/
def Request.IsFor (token : Token) (method : Method) (address : String) (form : Option Comment)
    (request : Request) : Prop :=
  ∃ url, requestUrl address = .ok url ∧ request = requestFor token method url form

section

variable {request : Request} {token : Token} {method : Method} {form : Option Comment}

/-- What a request shows is what is shown of its address. -/
theorem Request.IsFor.parse_url (made : request.IsFor token method address form) :
    Url.parse request.url = shownUrl address := by
  obtain ⟨asked, requested, rfl⟩ := made
  exact (shownUrl_of_requestUrl requested token method form).symm

/-- A request is made only for what is on the web. -/
theorem Request.IsFor.exists_url (made : request.IsFor token method address form) :
    ∃ url, Url.parse address = .ok url ∧ url.isWeb = true := by
  obtain ⟨_, requested, _⟩ := made
  obtain ⟨url, read, _⟩ := requestUrl_eq_ok_iff.1 requested
  exact ⟨url, read, isWeb_of_requestUrl read requested⟩

/-- A request is at home exactly if the URL of its address is. -/
theorem Request.IsFor.isHome_iff (made : request.IsFor token method address form)
    (read : Url.parse address = .ok url) : request.IsHome report ↔ url.IsHome report := by
  obtain ⟨other, again, web⟩ := made.exists_url
  obtain rfl := Except.ok.inj (again.symm.trans read)
  unfold Request.IsHome Url.IsHome
  rw [made.parse_url, shownUrl_eq read web]
  simp only [Except.ok.injEq, exists_eq_left', Url.sameOrigin_shown_iff]

end

namespace Endpoints

variable {endpoints : Endpoints}

/-- All addresses under the root of an API. -/
def all (endpoints : Endpoints) : List String :=
  [endpoints.status, endpoints.mergeRequest, endpoints.commits, endpoints.discussions]

/-- Each of the addresses is the root with names behind it. -/
theorem exists_names {api project mergeRequestId revision : String}
    (one : address ∈ (under api project mergeRequestId revision).all) :
    ∃ names : List String, names ≠ [] ∧
      address = String.ofList (api.toList ++ pathBelow names) := by
  rw [under_eq] at one
  simp only [all, List.mem_cons, List.not_mem_nil, or_false] at one
  rcases one with rfl | rfl | rfl | rfl
  · exact ⟨_, by simp, rfl⟩
  · exact ⟨_, by simp, rfl⟩
  · exact ⟨_, by simp, rfl⟩
  · exact ⟨_, by simp, rfl⟩

/-- The addresses lead home. -/
theorem isHome_of_ofReport (found : ofReport report = .ok endpoints)
    (one : address ∈ endpoints.all) (read : Url.parse address = .ok url)
    (web : url.isWeb = true) : url.IsHome report := by
  obtain ⟨apiUrl, trimmed, project, named, root, rfl⟩ := exists_apiUrl_of_ofReport found
  obtain ⟨names, present, rfl⟩ := exists_names one
  obtain ⟨base, known, same⟩ := Url.exists_base_of_below root read web present
  exact ⟨apiUrl, base, named, known, same⟩

/-- A request for one of the addresses is at home. -/
theorem isHome_of_isFor {request : Request} {token : Token} {method : Method}
    {form : Option Comment} (found : ofReport report = .ok endpoints)
    (one : address ∈ endpoints.all) (made : request.IsFor token method address form) :
    request.IsHome report := by
  obtain ⟨url, read, web⟩ := made.exists_url
  rw [made.isHome_iff read]
  exact isHome_of_ofReport found one read web

/-- Where one of the addresses is of the web, all of them have its scheme and its host. -/
theorem exists_sibling_of_ofReport {other : String} (found : ofReport report = .ok endpoints)
    (one : address ∈ endpoints.all) (read : Url.parse address = .ok url)
    (web : url.isWeb = true) (another : other ∈ endpoints.all) :
    ∃ sibling, Url.parse other = .ok sibling ∧ sibling.scheme = url.scheme ∧
      sibling.authority = url.authority := by
  obtain ⟨apiUrl, trimmed, project, _, root, rfl⟩ := exists_apiUrl_of_ofReport found
  obtain ⟨names, present, rfl⟩ := exists_names one
  obtain ⟨others, present', rfl⟩ := exists_names another
  obtain ⟨sibling, known, scheme, authority, _⟩ :=
    exists_sibling_below root read web present present'
  exact ⟨sibling, known, scheme, authority⟩

/-- A request for a status is at home too, whatever is asked in its address, where the commits can
be asked for. -/
theorem isHome_status {status : BuildStatus} {listed : Url} {request : Request} {token : Token}
    {method : Method} {form : Option Comment} (found : ofReport report = .ok endpoints)
    (possible : requestUrl endpoints.commits = .ok listed)
    (addressed : status.address endpoints.status = .ok address)
    (made : request.IsFor token method address form) : request.IsHome report := by
  have one : endpoints.status ∈ endpoints.all := by simp [all]
  obtain ⟨commits, read, _⟩ := requestUrl_eq_ok_iff.1 possible
  obtain ⟨sibling, known, scheme, _⟩ := exists_sibling_of_ofReport found (by simp [all]) read
    (isWeb_of_requestUrl read possible) one
  have web : sibling.isWeb = true := Url.isWeb_of_scheme known
    (scheme ▸ Url.scheme_of_isWeb (isWeb_of_requestUrl read possible))
  obtain ⟨apiUrl, base, named, root, same⟩ := isHome_of_ofReport found one known web
  -- What is asked goes to the query, with which the URL is still one that is read again.
  obtain ⟨_, good⟩ := Url.isRead_of_parse known web
  have again := (good.addQuery (@Form.isQueryChar_of_mem_encode status.fields)).again
  rw [BuildStatus.address, known, Except.ok.injEq] at addressed
  rw [addressed] at again
  rw [made.isHome_iff again]
  exact ⟨apiUrl, base, named, root, same.scheme, same.host, same.port⟩

end Endpoints

/-- Requests for the pages of a listing: the first is for where the commits are, and each other one
for where the reply to the one before it leads. -/
structure Preparation.IsListing (prepared : Preparation) (replies : List Reply)
    (pages : List Request) : Prop where
  first : ∀ request, pages[0]? = some request →
    request.IsFor prepared.token .get prepared.endpoints.commits none
  next : ∀ index request, pages[index + 1]? = some request → ∃ next,
    ((replies.drop index).headD .silence).next? = some next ∧
      request.IsFor prepared.token .get next none

/-- Requests behind a listing: the first is for the merge request, the second for the status, and
all others are for the discussions. -/
structure Preparation.IsBehindListing (prepared : Preparation) (others : List Request) : Prop where
  mergeRequest : ∀ request, others[0]? = some request →
    request.IsFor prepared.token .get prepared.endpoints.mergeRequest none
  status : ∀ request, others[1]? = some request → ∃ address,
    prepared.status.address prepared.endpoints.status = .ok address ∧
      request.IsFor prepared.token .post address none
  discussions : ∀ index request, others[index + 2]? = some request → ∃ comment,
    request.IsFor prepared.token .post prepared.endpoints.discussions (some comment)

/-- The request of a step is made for its address. -/
theorem Step.isFor_of_request? {token : Token} {step : Step} {request : Request} {address : String}
    (sent : step.request? token = some request) (addressed : step.address = .ok address) :
    request.IsFor token step.method address step.form := by
  obtain ⟨_, other, url, found, requested, rfl⟩ := Step.of_request? sent
  rw [addressed, Except.ok.injEq] at found
  exact ⟨url, found ▸ requested, rfl⟩

/-- The request at a place is that of the step at this place. -/
theorem Step.exists_of_getElem? {token : Token} {steps : List Step} {count : Nat}
    {requests : List Request}
    (same : requests.map some = (steps.take count).map (Step.request? token)) {index : Nat}
    {request : Request} (there : requests[index]? = some request) :
    ∃ step, steps[index]? = some step ∧ step.request? token = some request := by
  have sent : (steps.take count)[index]?.map (Step.request? token) = some (some request) := by
    rw [← List.getElem?_map, ← same, List.getElem?_map, there]
    rfl
  obtain ⟨step, here, found⟩ := Option.map_eq_some_iff.1 sent
  obtain ⟨early, here⟩ := List.getElem?_eq_some_iff.1 here
  rw [List.getElem_take] at here
  exact ⟨step, here ▸ List.getElem?_eq_getElem _, found⟩

section

variable {prepared : Preparation} {replies : List Reply} {token : Token} {pages : List Request}
  {count : Nat}

/-- A page that was asked for is where the listing begins, or where the reply to the page before
it leads. -/
theorem Preparation.exists_address_of_page
    (same : pages.map some = ((prepared.pages replies).take count).map (Step.request? token))
    {index : Nat} {request : Request} (there : pages[index]? = some request) :
    ∃ address, request.IsFor token .get address none ∧
      (index = 0 → address = prepared.endpoints.commits) ∧
      ∀ earlier, index = earlier + 1 →
        ((replies.drop earlier).headD .silence).next? = some address := by
  obtain ⟨step, here, sent⟩ := Step.exists_of_getElem? same there
  obtain ⟨early, here⟩ := List.getElem?_eq_some_iff.1 here
  have split : pageSteps Commit.format [] prepared.endpoints.commits replies =
      (prepared.pages replies).take index ++
        step :: (prepared.pages replies).drop (index + 1) := by
    rw [← here, ← List.drop_eq_getElem_cons early, List.take_append_drop]
    rfl
  obtain ⟨seen, address, rfl, starts, leads, _⟩ := pageSteps_split split
  obtain ⟨_, _, _, addressed, _⟩ := Step.of_request? sent
  have made := Step.isFor_of_request? sent addressed
  obtain ⟨_, rfl⟩ := Step.address_page_eq_ok_iff.1 addressed
  refine ⟨_, made, ?_, ?_⟩
  · intro first
    apply starts
    rw [first, List.take_zero]
  · intro earlier later
    subst later
    -- The step before is the last of those in front.
    have before : earlier < (prepared.pages replies).length := Nat.lt_of_succ_lt early
    have front := leads _ _ (List.take_succ_eq_append_getElem before)
    rw [List.length_take, Nat.min_eq_left (Nat.le_of_lt before)] at front
    exact front

/-- The requests of the steps for pages are those of a listing. -/
theorem Preparation.isListing_of_pages
    (same : pages.map some =
      ((prepared.pages replies).take count).map (Step.request? prepared.token)) :
    prepared.IsListing replies pages := by
  constructor
  · intro request there
    obtain ⟨_, made, starts, _⟩ := Preparation.exists_address_of_page same there
    exact starts rfl ▸ made
  · intro index request there
    obtain ⟨next, made, _, leads⟩ := Preparation.exists_address_of_page same there
    exact ⟨next, leads index rfl, made⟩

/-- The requests of the steps behind the pages are those behind a listing. -/
theorem Preparation.isBehindListing_of_core {others : List Request}
    (same : others.map some =
      ((prepared.core report ++ prepared.comments report replies).take count).map
        (Step.request? prepared.token)) :
    prepared.IsBehindListing others := by
  constructor
  · intro request there
    obtain ⟨step, here, sent⟩ := Step.exists_of_getElem? same there
    obtain rfl := Option.some.inj here
    exact Step.isFor_of_request? sent rfl
  · intro request there
    obtain ⟨step, here, sent⟩ := Step.exists_of_getElem? same there
    obtain rfl := Option.some.inj here
    obtain ⟨_, address, _, addressed, _⟩ := Step.of_request? sent
    exact ⟨address, addressed, Step.isFor_of_request? sent addressed⟩
  · intro index request there
    obtain ⟨step, here, sent⟩ := Step.exists_of_getElem? same there
    -- Behind the first two steps there are comments alone.
    have comment : ∃ comment, step = .comment prepared.endpoints.discussions comment := by
      cases index with
      | zero => exact ⟨_, (Option.some.inj here).symm⟩
      | succ index => exact prepared.exists_comment_of_mem (List.mem_of_getElem? here)
    obtain ⟨comment, rfl⟩ := comment
    exact ⟨comment, Step.isFor_of_request? sent rfl⟩

end

section

variable {prepared : Preparation} {replies : List Reply} {pages others : List Request}

/-- The first page is at home. -/
theorem Preparation.IsListing.isHome_first (listing : prepared.IsListing replies pages)
    (found : Endpoints.ofReport report = .ok prepared.endpoints) {request : Request}
    (there : pages[0]? = some request) : request.IsHome report :=
  Endpoints.isHome_of_isFor found (by simp [Endpoints.all]) (listing.first request there)

/-- Every other page is at home exactly if the link is that was followed to it. -/
theorem Preparation.IsListing.isHome_next_iff (listing : prepared.IsListing replies pages)
    {index : Nat} {request : Request} (there : pages[index + 1]? = some request) :
    request.IsHome report ↔ ∃ next url,
      ((replies.drop index).headD .silence).next? = some next ∧ Url.parse next = .ok url ∧
        url.IsHome report := by
  obtain ⟨next, leads, made⟩ := listing.next index request there
  obtain ⟨url, read, _⟩ := made.exists_url
  rw [made.isHome_iff read, leads]
  constructor
  · intro home
    exact ⟨next, url, rfl, read, home⟩
  · rintro ⟨other, again, known, reread, home⟩
    rw [← Option.some.inj known, read, Except.ok.injEq] at reread
    rw [reread]
    exact home

/-- All pages are at home exactly if every link is that was followed. -/
theorem Preparation.IsListing.forall_isHome_iff (listing : prepared.IsListing replies pages)
    (found : Endpoints.ofReport report = .ok prepared.endpoints) :
    (∀ request ∈ pages, request.IsHome report) ↔
      ∀ index, index + 1 < pages.length → ∃ next url,
        ((replies.drop index).headD .silence).next? = some next ∧ Url.parse next = .ok url ∧
          url.IsHome report := by
  constructor
  · intro all index inside
    apply (listing.isHome_next_iff (List.getElem?_eq_getElem inside)).1
    exact all _ (List.getElem_mem inside)
  · intro followed request member
    -- A page is the first one, or one that was followed to.
    obtain ⟨index, there⟩ := List.getElem?_of_mem member
    cases index with
    | zero => exact listing.isHome_first found there
    | succ index =>
      have inside := (List.getElem?_eq_some_iff.1 there).1
      exact (listing.isHome_next_iff there).2 (followed index inside)

/-- What is sent behind the pages is at home, where the commits can be asked for. -/
theorem Preparation.IsBehindListing.isHome {listed : Url} {request : Request}
    (behind : prepared.IsBehindListing others)
    (found : Endpoints.ofReport report = .ok prepared.endpoints)
    (possible : requestUrl prepared.endpoints.commits = .ok listed) (member : request ∈ others) :
    request.IsHome report := by
  obtain ⟨index, there⟩ := List.getElem?_of_mem member
  match index with
  | 0 =>
    have made := behind.mergeRequest request there
    exact Endpoints.isHome_of_isFor found (by simp [Endpoints.all]) made
  | 1 =>
    -- Only the status has an address that is not one of those under the root.
    obtain ⟨_, addressed, made⟩ := behind.status request there
    exact Endpoints.isHome_status found possible addressed made
  | index + 2 =>
    obtain ⟨_, made⟩ := behind.discussions index request there
    exact Endpoints.isHome_of_isFor found (by simp [Endpoints.all]) made

/-- What was sent is a beginning of the plan. -/
theorem Preparation.Ends.sent {reach : Reach} {ending : Except Failure Outcome × Line}
    (ends : prepared.Ends report (.fresh reach replies) ending) :
    ending.2.requests.map some =
      ((prepared.plan report replies).take ending.2.requests.length).map
        (Step.request? prepared.token) := by
  cases ends with
  | broken broken =>
    obtain ⟨taken, beginning, _, ⟨sent, requests, same⟩, _⟩ := broken.traffic
    change _ = [] ++ sent at requests
    rw [requests]
    exact requests_of_beginning beginning same
  | unselected completes =>
    obtain ⟨_, sent, requests, same⟩ := completes.traffic
    change _ = [] ++ sent at requests
    rw [requests]
    exact requests_of_beginning (List.prefix_refl _) same
  | done completes =>
    obtain ⟨_, sent, requests, same⟩ := completes.traffic
    change _ = [] ++ sent at requests
    rw [requests]
    exact requests_of_beginning (List.prefix_refl _) same

/-- Each request carries the token. -/
theorem Step.token_of_request? {step : Step} {request : Request}
    (sent : step.request? token = some request) :
    ("private-token", arriving token.text) ∈ request.headers := by
  obtain ⟨_, _, asked, _, _, rfl⟩ := Step.of_request? sent
  show _ ∈ requestHeaders token step.form
  rw [requestHeaders_eq]
  simp

/-- The requests of a plan are those of a listing and those behind it; where there is any, the
commits can be asked for. -/
theorem Preparation.exists_listing_of_sent {requests : List Request}
    (same : requests.map some =
      ((prepared.plan report replies).take requests.length).map
        (Step.request? prepared.token)) :
    ∃ pages others, requests = pages ++ others ∧ prepared.IsListing replies pages ∧
      prepared.IsBehindListing others ∧
      (requests ≠ [] → ∃ listed, requestUrl prepared.endpoints.commits = .ok listed) := by
  rw [Preparation.plan, List.append_assoc, List.take_append, List.map_append] at same
  obtain ⟨pages, others, split, paged, behind⟩ := List.map_eq_append_iff.1 same
  have listing := Preparation.isListing_of_pages paged
  refine ⟨pages, others, split, listing, Preparation.isBehindListing_of_core behind,
    fun present => ?_⟩
  -- There is a first page, for which a request was sent if any was.
  have first : 0 < pages.length := by
    have lengths := congrArg List.length paged
    obtain ⟨rest, course⟩ := pageSteps_head Commit.format [] prepared.endpoints.commits replies
    rw [List.length_map, List.length_map, List.length_take, Preparation.pages, course,
      List.length_cons] at lengths
    have some_sent := List.length_pos_iff.2 present
    omega
  obtain ⟨listed, requested, _⟩ := listing.first _ (List.getElem?_eq_getElem first)
  exact ⟨listed, requested⟩

end

/-- Where the requests of a decoration go, all of which carry the token; what a client would send to
follow a redirect by itself is not among them. They are those for the pages of a listing and those
behind it. The one for the first page and all that are behind the listing go to the origin of the
API that the report names; those for the other pages go wherever the reply to the page before leads.
So all stay at home exactly if every link that is followed does. -/
theorem decorate_origins (access : Access) (report : Report) (reach : Reach)
    (replies : List Reply) :
    let requests := ((decorate access report).run (.fresh reach replies)).2.requests
    match prepare access report with
    | .error _ => requests = []
    | .ok prepared =>
      ∃ pages others, requests = pages ++ others ∧
        prepared.IsListing replies pages ∧ prepared.IsBehindListing others ∧
        (∀ request ∈ requests, ("private-token", arriving access.token) ∈ request.headers) ∧
        (∀ request ∈ pages.take 1 ++ others, request.IsHome report) ∧
        (∀ index request, pages[index + 1]? = some request → ∃ next,
          ((replies.drop index).headD .silence).next? = some next ∧
            Url.parse request.url = shownUrl next) ∧
        ((∀ request ∈ requests, request.IsHome report) ↔
          ∀ index, index + 1 < pages.length → ∃ next url,
            ((replies.drop index).headD .silence).next? = some next ∧
              Url.parse next = .ok url ∧ url.IsHome report) := by
  intro requests
  have ends := decorate_ends access report (.fresh reach replies)
  cases possible : prepare access report with
  | error failure =>
    rw [possible] at ends
    obtain ⟨after, run, quiet⟩ := ends
    show ((decorate access report).run (.fresh reach replies)).2.requests = []
    rw [run]
    exact quiet.requests
  | ok prepared =>
    rw [possible] at ends
    obtain ⟨found, _, kept⟩ := prepare_eq_ok_iff.1 possible
    have same : requests.map some =
        ((prepared.plan report replies).take requests.length).map
          (Step.request? prepared.token) := Preparation.Ends.sent ends
    clear_value requests
    obtain ⟨pages, others, rfl, listing, behind, listed⟩ :=
      Preparation.exists_listing_of_sent same
    have later : ∀ request ∈ others, request.IsHome report := by
      intro request member
      obtain ⟨_, possible⟩ := listed (List.ne_nil_of_mem (List.mem_append_right _ member))
      exact behind.isHome found possible member
    refine ⟨pages, others, rfl, listing, behind, ?_, ?_, ?_, ?_⟩
    · intro request member
      obtain ⟨step, _, sent⟩ := List.mem_map.1 (same ▸ List.mem_map_of_mem member)
      rw [← Token.text_of_ofString? kept]
      exact Step.token_of_request? sent
    · intro request member
      rcases List.mem_append.1 member with beginning | behind
      · obtain ⟨index, inside, rfl⟩ := List.mem_take_iff_getElem.1 beginning
        obtain rfl : index = 0 := by omega
        exact listing.isHome_first found (List.getElem?_eq_getElem _)
      · exact later request behind
    · intro index request there
      obtain ⟨next, leads, made⟩ := listing.next index request there
      exact ⟨next, leads, made.parse_url⟩
    · -- What is behind the pages is at home anyway.
      rw [List.forall_mem_append, and_iff_left later]
      exact listing.forall_isHome_iff found

/-- A page that leads to another server. -/
def strayReply : Reply :=
  .answer 200 [Utf8.bytes "<http://elsewhere/>; rel=\"next\""] (Utf8.bytes "[]") true

/-- From a page that leads to another server, the token is taken there. -/
theorem decorate_strays :
    ∃ request ∈ ((decorate ⟨"t", ""⟩ (bareReport "0")).run
        (.fresh .plain [strayReply])).2.requests,
      ("private-token", "t") ∈ request.headers ∧ request.url = "http://elsewhere/" ∧
        ¬ request.IsHome (bareReport "0") := by
  have sent : (((decorate ⟨"t", ""⟩ (bareReport "0")).run
      (.fresh .plain [strayReply])).2.requests.map fun request =>
        (request.url, request.headers))[1]? =
      some ("http://elsewhere/", [("accept", "application/json"), ("private-token", "t"),
        ("user-agent", "mr-decorator/0.1")]) := by
    decide +kernel
  rw [List.getElem?_map] at sent
  obtain ⟨request, there, told⟩ := Option.map_eq_some_iff.1 sent
  obtain ⟨address, headers⟩ := Prod.mk.inj told
  refine ⟨request, List.mem_of_getElem? there, by simp [headers], address, ?_⟩
  rintro ⟨url, read, apiUrl, base, named, root, same⟩
  have api : (bareReport "0").properties.get? "gitlab.api.url" = some "http://h/api" := by
    decide +kernel
  obtain rfl : "http://h/api" = apiUrl := Option.some.inj (api.symm.trans named)
  rw [address] at read
  -- The two hosts have different names.
  have host : (Url.parse "http://elsewhere/").map Url.host? =
      .ok (some (.name "elsewhere".toList)) := by
    decide +kernel
  have home : (Url.parse "http://h/api").map Url.host? = .ok (some (.name "h".toList)) := by
    decide +kernel
  rw [read] at host
  rw [root] at home
  have apart := (Except.ok.inj host).symm.trans (same.host.trans (Except.ok.inj home))
  revert apart
  decide

end MergeNotes
