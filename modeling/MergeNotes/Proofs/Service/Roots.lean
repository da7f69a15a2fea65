import MergeNotes.Proofs.Decoration.Selected
import MergeNotes.Proofs.Service.Lacks

/-! The roots of APIs that decorations are prepared for: from some of them no request can be made,
which only the first request shows, and from the others all can be made that are not too long. -/

namespace MergeNotes

variable {base url sibling : Url} {names : List String} {address apiUrl : String}

/-- Whether requests can be made for URLs with this scheme and this host. -/
def Url.isAskable (url : Url) : Bool :=
  url.isWeb && url.host?.all isNameable

/-- Whether requests can be made below the root of an API: with one slash at its end it is a URL of
the web whose host a request can name. -/
def isUsableRoot (apiUrl : String) : Bool :=
  match Url.parse (String.ofList ((withoutTrailingSlashes apiUrl).toList ++ ['/'])) with
  | .ok url => url.isAskable
  | .error _ => false

theorem Url.isAskable_congr (scheme : sibling.scheme = url.scheme)
    (authority : sibling.authority = url.authority) : sibling.isAskable = url.isAskable := by
  have host : sibling.host? = url.host? := by
    unfold Url.host?
    rw [authority]
  unfold Url.isAskable Url.isWeb
  rw [scheme, host]

/-- Only its length stands in the way of a request for a URL that can be asked for. -/
theorem exists_requestUrl_iff (read : Url.parse address = .ok url) :
    (∃ asked, requestUrl address = .ok asked) ↔ url.isAskable = true ∧ ¬ Overlong address := by
  -- Neither the scheme nor the host changes when credentials are hidden.
  have hidden : isRequestable url.withoutReadableCredentials = true ↔
      url.isAskable = true ∧
        url.withoutReadableCredentials.text.utf8ByteSize ≤ longestRequestUrl := by
    unfold isRequestable Url.isAskable Url.isWeb
    rw [Url.host?_withoutReadableCredentials, Url.scheme_withoutReadableCredentials,
      Bool.and_eq_true, decide_eq_true_eq]
  have long : Overlong address ↔
      longestRequestUrl < url.withoutReadableCredentials.text.utf8ByteSize := by
    constructor
    · intro overlong
      obtain ⟨same, known, more⟩ := overlong
      rw [read, Except.ok.injEq] at known
      rw [known]
      exact more
    · exact fun more => ⟨url, read, more⟩
  rw [long, Nat.not_lt, ← hidden]
  constructor
  · intro requested
    obtain ⟨asked, requested⟩ := requested
    obtain ⟨same, known, possible, _⟩ := requestUrl_eq_ok_iff.1 requested
    rw [read, Except.ok.injEq] at known
    rw [known]
    exact possible
  · exact fun possible => ⟨_, requestUrl_eq_ok_iff.2 ⟨url, read, possible, rfl⟩⟩

/-- A root is usable exactly if what stands below it can be asked for. -/
theorem isUsableRoot_iff (root : Url.parse (withoutTrailingSlashes apiUrl) = .ok base)
    (present : names ≠ []) :
    isUsableRoot apiUrl = true ↔
      ∃ url, Url.parse (String.ofList ((withoutTrailingSlashes apiUrl).toList ++
        pathBelow names)) = .ok url ∧ url.isAskable = true := by
  obtain ⟨tail, slash, plain⟩ := exists_tail present
  rw [slash] at plain ⊢
  have tailed := (List.forall_mem_cons.1 plain).2
  have bare : ∀ c ∈ ([] : List Char), Url.isTailChar c = true := by simp
  have web : ∀ {url : Url}, url.isAskable = true → url.isWeb = true := fun askable =>
    (Bool.and_eq_true _ _ ▸ askable).1
  unfold isUsableRoot
  -- Behind one slash nothing and the names are read alike.
  constructor
  · intro usable
    cases read : Url.parse (String.ofList ((withoutTrailingSlashes apiUrl).toList ++ ['/'])) with
    | error reason =>
      rw [read] at usable
      cases usable
    | ok slashed =>
      rw [read] at usable
      obtain ⟨sibling, found, scheme, authority, _⟩ :=
        Url.exists_sibling root bare read (web usable) tailed
      exact ⟨sibling, found, (Url.isAskable_congr scheme authority).trans usable⟩
  · intro below
    obtain ⟨url, read, askable⟩ := below
    obtain ⟨sibling, found, scheme, authority, _⟩ :=
      Url.exists_sibling root tailed read (web askable) bare
    rw [found]
    exact (Url.isAskable_congr scheme authority).trans askable

/-- Below a usable root, a request can be made for an address unless that is too long; below any
other root none can. -/
theorem exists_requestUrl_below_iff (root : Url.parse (withoutTrailingSlashes apiUrl) = .ok base)
    (present : names ≠ [])
    (below : address = String.ofList ((withoutTrailingSlashes apiUrl).toList ++ pathBelow names)) :
    (∃ asked, requestUrl address = .ok asked) ↔
      isUsableRoot apiUrl = true ∧ ¬ Overlong address := by
  rw [isUsableRoot_iff root present, ← below]
  constructor
  · intro requested
    obtain ⟨asked, possible⟩ := requested
    obtain ⟨url, read, _⟩ := requestUrl_eq_ok_iff.1 possible
    obtain ⟨askable, short⟩ := (exists_requestUrl_iff read).1 ⟨asked, possible⟩
    exact ⟨⟨url, read, askable⟩, short⟩
  · intro usable
    obtain ⟨⟨url, read, askable⟩, short⟩ := usable
    exact (exists_requestUrl_iff read).2 ⟨askable, short⟩

/-- A status has an address below a usable root, and only its length stands in its way. -/
theorem BuildStatus.exists_address_below (status : BuildStatus)
    (root : Url.parse (withoutTrailingSlashes apiUrl) = .ok base) (present : names ≠ [])
    (usable : isUsableRoot apiUrl = true) :
    ∃ text, status.address (String.ofList ((withoutTrailingSlashes apiUrl).toList ++
        pathBelow names)) = .ok text ∧
      ((∃ asked, requestUrl text = .ok asked) ↔ ¬ Overlong text) := by
  obtain ⟨url, read, askable⟩ := (isUsableRoot_iff root present).1 usable
  have web : url.isWeb = true := (Bool.and_eq_true _ _ ▸ askable).1
  obtain ⟨_, good⟩ := Url.isRead_of_parse read web
  -- What is asked in the address leaves its host alone.
  have asked := good.addQuery (@Form.isQueryChar_of_mem_encode status.fields)
  have same : (url.addQuery (Form.encode status.fields)).isAskable = true :=
    (Url.isAskable_congr rfl rfl).trans askable
  refine ⟨(url.addQuery (Form.encode status.fields)).text, ?_, ?_⟩
  · rw [BuildStatus.address, read]
  · rw [exists_requestUrl_iff asked.again, same]
    simp

namespace Preparation

variable {access : Access} {report : Report} {prepared : Preparation} {token : Token}
  {reach : Reach} {replies : List Reply} {done : List Step} {step : Step} {detail : String}

/-- The addresses that a decoration asks for on its own account. -/
def addresses (prepared : Preparation) : List (Except RemoteFailure String) :=
  [.ok prepared.endpoints.commits, .ok prepared.endpoints.mergeRequest,
    prepared.status.address prepared.endpoints.status, .ok prepared.endpoints.discussions]

/-- What is prepared is meant for the API that the report names. -/
theorem exists_root (possible : prepare access report = .ok prepared)
    (named : report.properties.get? Endpoints.apiProperty = some apiUrl) :
    ∃ base project, Url.parse (withoutTrailingSlashes apiUrl) = .ok base ∧
      prepared.endpoints = Endpoints.under (withoutTrailingSlashes apiUrl) project
        report.mergeRequestId report.commit := by
  obtain ⟨other, base, project, known, root, same⟩ :=
    Endpoints.exists_apiUrl_of_ofReport (ofReport_of_prepare possible)
  rw [named, Option.some.injEq] at known
  subst known
  exact ⟨base, project, root, same⟩

/-- The commits can be asked for exactly if the root is usable and their address is not too long. -/
theorem exists_requestUrl_commits_iff (possible : prepare access report = .ok prepared)
    (named : report.properties.get? Endpoints.apiProperty = some apiUrl) :
    (∃ asked, requestUrl prepared.endpoints.commits = .ok asked) ↔
      isUsableRoot apiUrl = true ∧ ¬ Overlong prepared.endpoints.commits := by
  obtain ⟨base, project, root, same⟩ := exists_root possible named
  rw [Endpoints.under_eq] at same
  apply exists_requestUrl_below_iff root
    (show ["projects", project, "merge_requests", report.mergeRequestId, "commits"] ≠ [] by simp)
  rw [same]

/-- The commits cannot be asked for exactly if the root is not usable, or their address too long. -/
theorem exists_refused_commits_iff (possible : prepare access report = .ok prepared)
    (named : report.properties.get? Endpoints.apiProperty = some apiUrl) :
    (∃ detail, requestUrl prepared.endpoints.commits = .error (.invalidUrl detail)) ↔
      isUsableRoot apiUrl = false ∨ Overlong prepared.endpoints.commits := by
  have either : isUsableRoot apiUrl = false ∨ Overlong prepared.endpoints.commits ↔
      ¬ ∃ asked, requestUrl prepared.endpoints.commits = .ok asked := by
    rw [exists_requestUrl_commits_iff possible named, not_and_or, not_not, Bool.not_eq_true]
  rw [either]
  cases requested : requestUrl prepared.endpoints.commits with
  | error failure =>
    obtain ⟨detail, rfl⟩ := exists_invalidUrl_of_requestUrl requested
    exact iff_of_true ⟨detail, rfl⟩ (by simp)
  | ok asked => exact iff_of_false (by simp) (by simp)

/-- Below a usable root, only its length stands in the way of any of the addresses. -/
theorem exists_requestUrl_of_mem_addresses (possible : prepare access report = .ok prepared)
    (named : report.properties.get? Endpoints.apiProperty = some apiUrl)
    (usable : isUsableRoot apiUrl = true) :
    ∀ address ∈ prepared.addresses, ∃ text, address = .ok text ∧
      ((∃ asked, requestUrl text = .ok asked) ↔ ¬ Overlong text) := by
  obtain ⟨base, project, root, same⟩ := exists_root possible named
  rw [Endpoints.under_eq] at same
  have below : ∀ names : List String, names ≠ [] → ∀ text, text = String.ofList
      ((withoutTrailingSlashes apiUrl).toList ++ pathBelow names) →
      ∃ other, Except.ok text = (.ok other : Except RemoteFailure String) ∧
        ((∃ asked, requestUrl other = .ok asked) ↔ ¬ Overlong other) := by
    intro names present text below
    refine ⟨text, rfl, ?_⟩
    rw [exists_requestUrl_below_iff root present below, usable]
    simp
  intro address member
  rw [addresses] at member
  -- The address of the status has a query; the others are the root with names behind it.
  rcases List.mem_cons.1 member with rfl | member
  · exact below ["projects", project, "merge_requests", report.mergeRequestId, "commits"]
      (by simp) _ (by rw [same])
  rcases List.mem_cons.1 member with rfl | member
  · exact below ["projects", project, "merge_requests", report.mergeRequestId] (by simp) _
      (by rw [same])
  rcases List.mem_cons.1 member with rfl | member
  · rw [same]
    exact prepared.status.exists_address_below root (by simp) usable
  · rw [List.mem_singleton.1 member]
    exact below ["projects", project, "merge_requests", report.mergeRequestId, "discussions"]
      (by simp) _ (by rw [same])

/-- No request can be made for an address. -/
def Refuses (detail : String) (address : Except RemoteFailure String) : Prop :=
  address = .error (.invalidUrl detail) ∨
    ∃ text, address = .ok text ∧ requestUrl text = .error (.invalidUrl detail)

theorem refuses_ok_iff {text : String} :
    Refuses detail (.ok text) ↔ requestUrl text = .error (.invalidUrl detail) := by
  simp [Refuses]

/-- A fault in an answer is never one of a URL. -/
theorem At.fault?_ne_invalidUrl (place : prepared.At report replies done step) (address : String)
    (answer : Answer) : step.fault? address answer ≠ some (.invalidUrl detail) := by
  -- Readings are at fault for a status or a body, and posts for a status.
  have read : ∀ {α : Type} (format : Json.Format α) (asked : Except RemoteFailure String),
      (Step.read format asked).fault? address answer ≠ some (.invalidUrl detail) := by
    intro α format asked fault
    rcases Step.fault?_read_eq_some_iff.1 fault with ⟨_, other⟩ | ⟨_, _, _, other⟩
    · cases other
    · cases other
  have comment : ∀ url comment,
      (Step.comment url comment).fault? address answer ≠ some (.invalidUrl detail) := by
    intro url comment fault
    obtain ⟨_, other⟩ := statusFault?_eq_some_iff.1 fault
    cases other
  cases place with
  | page split =>
    obtain ⟨seen, next, rfl, _⟩ := pageSteps_split split
    exact read Commit.format.list _
  | mergeRequest => exact read MergeRequest.format _
  | status =>
    intro fault
    obtain ⟨_, _, other⟩ := Step.fault?_status_eq_some_iff.1 fault
    cases other
  | summary => exact comment _ _
  | inline earlier made => exact comment _ _

/-- A step that goes wrong for a URL has an address that no request can be made for, and sends
nothing. -/
theorem At.refuses_of_breaks {between after : Line}
    (place : prepared.At report replies done step)
    (breaks : step.Breaks token between (.invalidUrl detail) after) :
    Refuses detail step.address ∧ between.Quiet after := by
  generalize same : RemoteFailure.invalidUrl detail = failure at breaks
  cases breaks with
  | unaddressed missing quiet => exact ⟨.inl (same ▸ missing), quiet⟩
  | refused addressed refused quiet => exact ⟨.inr ⟨_, addressed, same ▸ refused⟩, quiet⟩
  | @unreached _ url =>
    rcases between.reach.isTransport_failure url with late | ⟨_, broken⟩
    · cases same.trans late
    · cases same.trans broken
  | unanswered sends unread =>
    obtain ⟨rfl | ⟨_, rfl⟩, _⟩ := Reply.isTransport_of_receive unread
    · cases same
    · cases same
  | faulty sends answered fault =>
    exact absurd (same ▸ fault) (place.fault?_ne_invalidUrl _ _)

/-- A step whose address is refused is the first page, a page to which the reply before it leads, or
one of the steps behind the pages. -/
theorem At.refused_cases (place : prepared.At report replies done step)
    (refuses : Refuses detail step.address) :
    (done = [] ∧ Refuses detail (.ok prepared.endpoints.commits)) ∨
      (0 < done.length ∧ done.length < (prepared.pages replies).length ∧
        ∃ next, ((replies.drop (done.length - 1)).headD .silence).next? = some next ∧
          Refuses detail (.ok next)) ∨
      (prepared.pages replies).length ≤ done.length ∧
        ∃ address ∈ prepared.addresses, Refuses detail address := by
  cases place with
  | @page done more step split =>
    obtain ⟨seen, next, rfl, first, leads, _⟩ := pageSteps_split split
    have asked : Refuses detail (.ok next) := by
      rcases refuses with missing | ⟨text, addressed, refused⟩
      · -- That a page was read before is no matter of its URL.
        obtain ⟨_, other⟩ := Step.address_page_eq_error_iff.1 missing
        cases other
      · obtain ⟨_, rfl⟩ := Step.address_page_eq_ok_iff.1 addressed
        exact refuses_ok_iff.2 refused
    rcases List.eq_nil_or_concat done with rfl | ⟨front, last, rfl⟩
    · rw [first rfl] at asked
      exact .inl ⟨rfl, asked⟩
    · refine .inr (.inl ⟨by simp, ?_, next, ?_, asked⟩)
      · rw [split, List.length_append, List.length_cons]
        omega
      · rw [List.concat_eq_append, List.length_append, List.length_singleton, Nat.add_sub_cancel]
        exact leads front last List.concat_eq_append
  | mergeRequest => exact .inr (.inr ⟨Nat.le_refl _, _, .tail _ (.head _), refuses⟩)
  | status => exact .inr (.inr ⟨by simp, _, .tail _ (.tail _ (.head _)), refuses⟩)
  | summary => exact .inr (.inr ⟨by simp, _, .tail _ (.tail _ (.tail _ (.head _))), refuses⟩)
  | inline earlier comment =>
    refine .inr (.inr ⟨?_, _, .tail _ (.tail _ (.tail _ (.head _))), refuses⟩)
    rw [List.append_assoc, List.length_append]
    omega

/-- A decoration that fails for a URL has not sent the request for it. -/
theorem Ends.refused {ending : Except Failure Outcome × Line}
    (ends : prepared.Ends report (.fresh reach replies) ending)
    (failed : ending.1 = .error (.remote (.invalidUrl detail))) :
    ∃ done step, prepared.At report replies done step ∧
      ending.2.requests.length = done.length ∧ Refuses detail step.address := by
  cases ends with
  | broken broken =>
    obtain ⟨done, step, rest, between, split, completes, breaks⟩ := broken
    cases failed
    have place := prepared.at_of_plan split
    obtain ⟨refuses, quiet⟩ := place.refuses_of_breaks breaks
    exact ⟨done, step, place, by rw [quiet.requests, completes.length_requests], refuses⟩
  | unselected completes unselected =>
    -- A selection fails for the merge request, which is no matter of a URL.
    obtain ⟨mergeRequest, _, selected⟩ := Option.map_eq_some_iff.1 unselected
    have selects : report.Selects (listedCommits replies) mergeRequest report.issues
        (report.selection (listedCommits replies) mergeRequest) := by
      rw [Report.selection_eq]
      exact Report.selects_of_decisions report.issues
    change report.selection (listedCommits replies) mergeRequest = _ at selected
    rw [selected] at selects
    obtain ⟨_, name, _, said⟩ := selects
    rw [said] at failed
    cases failed
  | done completes selected said => cases failed

/-- Where the commits cannot be asked for, a decoration fails for their URL, and nothing is sent. -/
theorem Ends.of_refused {before : Line} {ending : Except Failure Outcome × Line}
    (ends : prepared.Ends report before ending)
    (refused : requestUrl prepared.endpoints.commits = .error (.invalidUrl detail)) :
    ending.1 = .error (.remote (.invalidUrl detail)) ∧ before.Quiet ending.2 := by
  obtain ⟨more, head⟩ :=
    pageSteps_head Commit.format [] prepared.endpoints.commits before.replies
  have plan : ∃ others, prepared.plan report before.replies =
      .page Commit.format [] prepared.endpoints.commits :: others := by
    rw [prepared.plan_eq, pages, head]
    exact ⟨_, rfl⟩
  obtain ⟨others, plan⟩ := plan
  have address : (Step.page Commit.format [] prepared.endpoints.commits).address =
      .ok prepared.endpoints.commits := by
    rw [Step.page_of_fresh List.not_mem_nil, Step.read]
  -- No steps that were taken begin with the one for the commits.
  have untaken : ∀ {steps : List Step} {after : Line},
      ¬ Completes prepared.token (.page Commit.format [] prepared.endpoints.commits :: steps)
        before after := by
    intro steps after completes
    obtain ⟨text, asked, addressed, requested⟩ := completes.requested List.mem_cons_self
    rw [address, Except.ok.injEq] at addressed
    rw [← addressed, refused] at requested
    cases requested
  cases ends with
  | broken broken =>
    obtain ⟨done, step, rest, between, split, completes, breaks⟩ := broken
    rw [plan] at split
    cases done with
    | nil =>
      rw [List.nil_append, List.cons.injEq] at split
      rw [← split.1] at breaks
      obtain ⟨rfl, quiet⟩ := breaks.of_refused address refused
      cases completes with
      | nil still => exact ⟨rfl, still.trans quiet⟩
    | cons first done =>
      rw [List.cons_append, List.cons.injEq] at split
      rw [← split.1] at completes
      exact absurd completes untaken
  | unselected completes unselected =>
    rw [plan] at completes
    exact absurd completes untaken
  | done completes selected said =>
    rw [plan] at completes
    exact absurd completes untaken

/-- A decoration that fails for a URL before it sends anything fails for that of the commits. -/
theorem Ends.refused_of_silent {ending : Except Failure Outcome × Line}
    (ends : prepared.Ends report (.fresh reach replies) ending)
    (failed : ending.1 = .error (.remote (.invalidUrl detail))) (silent : ending.2.requests = []) :
    requestUrl prepared.endpoints.commits = .error (.invalidUrl detail) := by
  obtain ⟨done, step, place, count, refuses⟩ := ends.refused failed
  obtain ⟨rest, head⟩ := pageSteps_head Commit.format [] prepared.endpoints.commits replies
  have first : 0 < (prepared.pages replies).length := by
    rw [pages, head]
    exact Nat.succ_pos _
  have none_done : done.length = 0 := by rw [← count, silent, List.length_nil]
  rcases place.refused_cases refuses with ⟨_, asked⟩ | ⟨later, _⟩ | ⟨behind, _⟩
  · exact refuses_ok_iff.1 asked
  · omega
  · omega

/-- A decoration all of whose own addresses can be asked for fails for a URL only where a reply has
led to it. -/
theorem Ends.strays {ending : Except Failure Outcome × Line}
    (ends : prepared.Ends report (.fresh reach replies) ending)
    (failed : ending.1 = .error (.remote (.invalidUrl detail)))
    (fine : ∀ address ∈ prepared.addresses, ¬ Refuses detail address) :
    0 < ending.2.requests.length ∧ ending.2.requests.length < (prepared.pages replies).length ∧
      ∃ next, ((replies.drop (ending.2.requests.length - 1)).headD .silence).next? = some next ∧
        requestUrl next = .error (.invalidUrl detail) := by
  obtain ⟨done, step, place, count, refuses⟩ := ends.refused failed
  rw [count]
  rcases place.refused_cases refuses with ⟨_, asked⟩ | linked | ⟨_, address, member, asked⟩
  · exact absurd asked (fine _ List.mem_cons_self)
  · obtain ⟨later, early, next, leads, asked⟩ := linked
    exact ⟨later, early, next, leads, refuses_ok_iff.1 asked⟩
  · exact absurd asked (fine address member)

end Preparation

/-- What becomes of a root that reads as a URL. A decoration fails for a URL before it sends
anything exactly if the root is not usable, or the address of the commits is too long; and a trigger
that leads to this is answered as if the server had failed. Below a usable root a request can be
made for each address of the decoration that is not too long; and where none is, a decoration only
ever fails for a URL to which a reply has led. -/
theorem decorate_usable {access : Access} {report : Report} {prepared : Preparation}
    {apiUrl : String} (possible : prepare access report = .ok prepared)
    (named : report.properties.get? Endpoints.apiProperty = some apiUrl) (reach : Reach)
    (replies : List Reply) :
    let ending := (decorate access report).run (.fresh reach replies)
    ((∃ detail, ending.1 = .error (.remote (.invalidUrl detail))) ∧ ending.2.requests = [] ↔
        isUsableRoot apiUrl = false ∨ Overlong prepared.endpoints.commits) ∧
      (isUsableRoot apiUrl = false ∨ Overlong prepared.endpoints.commits →
        ∀ (trigger : Trigger) secret requestId stamp, trigger.report = report →
          trimmed secret ≠ "" → trimmed trigger.secret = trimmed secret →
          ∃ message, ((trigger.serve secret access requestId stamp).run (.fresh reach replies)).1 =
            (Envelope.failure "DECORATION_FAILED" message []).respond 502) ∧
      (isUsableRoot apiUrl = true →
        (∀ address ∈ prepared.addresses, ∃ text, address = .ok text ∧
          ((∃ asked, requestUrl text = .ok asked) ↔ ¬ Overlong text)) ∧
        ((∀ text, .ok text ∈ prepared.addresses → ¬ Overlong text) →
          ∀ detail, ending.1 = .error (.remote (.invalidUrl detail)) →
            0 < ending.2.requests.length ∧
              ending.2.requests.length < (prepared.pages replies).length ∧
              ∃ next, ((replies.drop (ending.2.requests.length - 1)).headD .silence).next? =
                  some next ∧ requestUrl next = .error (.invalidUrl detail))) := by
  intro ending
  have commits := Preparation.exists_refused_commits_iff possible named
  have ends := ends_of_prepare possible
  refine ⟨⟨?_, ?_⟩, ?_, ?_⟩
  · intro failed
    obtain ⟨⟨detail, failed⟩, silent⟩ := failed
    exact commits.1 ⟨detail, (ends (.fresh reach replies)).refused_of_silent failed silent⟩
  · intro unusable
    obtain ⟨detail, refused⟩ := commits.2 unusable
    obtain ⟨failed, quiet⟩ := (ends (.fresh reach replies)).of_refused refused
    exact ⟨⟨detail, failed⟩, quiet.requests⟩
  · intro unusable trigger secret requestId stamp same visible known
    obtain ⟨detail, refused⟩ := commits.2 unusable
    obtain ⟨before, _, answer⟩ := trigger.serve_known visible known access requestId stamp
      (.fresh reach replies)
    rw [same, ((ends before).of_refused refused).1] at answer
    exact ⟨_, answer⟩
  · intro usable
    have own := Preparation.exists_requestUrl_of_mem_addresses possible named usable
    refine ⟨own, ?_⟩
    intro short detail failed
    apply (ends (.fresh reach replies)).strays failed
    -- No address of its own is refused.
    intro address member refuses
    obtain ⟨text, rfl, only⟩ := own address member
    obtain ⟨asked, requested⟩ := only.2 (short text member)
    rw [Preparation.refuses_ok_iff, requested] at refuses
    cases refuses

/-- A page without commits that leads to a URL of another scheme. -/
def strayingReplies : List Reply :=
  [.answer 200 [Utf8.bytes "<ftp://x>; rel=\"next\""] (Utf8.bytes "[]") true]

/-- Below a root of the web, a decoration that fails for the URL of another scheme, to which a reply
has led, has sent a request before. -/
theorem decorate_usable_straying :
    isUsableRoot "http://h/api" = true ∧
      ∃ after, (decorate ⟨"t", "http://s"⟩ (bareReport "9")).run (.fresh .plain strayingReplies) =
        (.error (.remote (.invalidUrl "builder error for url (ftp://x/)")), after) ∧
      after.requests ≠ [] := by
  have named : (bareReport "9").properties.get? Endpoints.apiProperty = some "http://h/api" := by
    decide +kernel
  have usable : isUsableRoot "http://h/api" = true := by decide +kernel
  have short : ¬ Overlong (barePreparation "9").endpoints.commits := by
    have possible : (requestUrl (barePreparation "9").endpoints.commits).toOption.isSome := by
      decide +kernel
    intro overlong
    obtain ⟨detail, refused⟩ := exists_refused_of_overlong overlong
    rw [refused] at possible
    cases possible
  have result : ((decorate ⟨"t", "http://s"⟩ (bareReport "9")).run
      (.fresh .plain strayingReplies)).1 =
        .error (.remote (.invalidUrl "builder error for url (ftp://x/)")) := by decide +kernel
  have silent := (decorate_usable (prepare_bare "9") named .plain strayingReplies).1
  refine ⟨usable, ?_⟩
  rcases run : (decorate ⟨"t", "http://s"⟩ (bareReport "9")).run
    (.fresh .plain strayingReplies) with ⟨outcome, after⟩
  rw [run] at result silent
  obtain rfl : outcome = _ := result
  refine ⟨after, rfl, ?_⟩
  intro none_sent
  -- Without a request it would be the root that is not usable, or the first address too long.
  rcases silent.1 ⟨⟨_, rfl⟩, none_sent⟩ with unusable | overlong
  · rw [usable] at unusable
    cases unusable
  · exact short overlong

/-- A root that reads as a URL of another scheme is prepared for, and only the request for the
commits is refused, as if the server had failed. -/
theorem ftp_root_fails_late :
    (∃ endpoints, Endpoints.ofReport (lackingReport "ftp://h" [⟨"new_coverage", .passed, none⟩]) =
      .ok endpoints) ∧
    ((decorate ⟨"t", ""⟩ (lackingReport "ftp://h" [⟨"new_coverage", .passed, none⟩])).run
      (.fresh .plain [])).1 = .error (.remote (.invalidUrl
        "builder error for url (ftp://h/projects/p/merge_requests/7/commits)")) ∧
    ((decorate ⟨"t", ""⟩ (lackingReport "ftp://h" [⟨"new_coverage", .passed, none⟩])).run
      (.fresh .plain [])).2.requests = [] ∧
    ((Trigger.serve ⟨"s", lackingReport "ftp://h" [⟨"new_coverage", .passed, none⟩]⟩ "s" ⟨"t", ""⟩
      none ⟨"", ""⟩).run (.fresh .plain [])).1.status = 502 := by
  refine ⟨⟨Endpoints.under "ftp://h" "p" "7" "c", ?_⟩, ?_, ?_, ?_⟩
  all_goals decide +kernel

end MergeNotes
