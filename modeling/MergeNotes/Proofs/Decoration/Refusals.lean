import MergeNotes.Proofs.Decoration.Endpoints
import MergeNotes.Proofs.Decoration.Plan
import MergeNotes.Proofs.Remote.Refusal

/-! The requests of a decoration that are refused: once the commits could be asked for, only the
length of an address stands in the way of those for the status and for the discussions. -/

namespace MergeNotes

/-- When the commits can be asked for, so can the merge request, and only their length stands in
the way of the requests for the status and for the discussions. -/
theorem Endpoints.requestable {report : Report} {endpoints : Endpoints} {asked : Url}
    (found : Endpoints.ofReport report = .ok endpoints)
    (possible : requestUrl endpoints.commits = .ok asked) :
    (∃ url, requestUrl endpoints.mergeRequest = .ok url) ∧
      (∀ status : BuildStatus, ∃ address, status.address endpoints.status = .ok address ∧
        ∀ failure, requestUrl address = .error failure → Overlong address) ∧
      ∀ failure, requestUrl endpoints.discussions = .error failure →
        Overlong endpoints.discussions := by
  obtain ⟨apiUrl, base, project, _, root, rfl⟩ := Endpoints.exists_apiUrl_of_ofReport found
  obtain ⟨url, read, _⟩ := requestUrl_eq_ok_iff.1 possible
  have web := isWeb_of_requestUrl read possible
  -- All four addresses are the root with names behind it, and are read alike.
  rw [Endpoints.under_eq] at read possible ⊢
  dsimp only at read possible ⊢
  have siblings := fun others present => @exists_sibling_below
    ["projects", project, "merge_requests", report.mergeRequestId, "commits"]
    (withoutTrailingSlashes apiUrl) base url others root read web (by simp) present
  refine ⟨?_, fun status => ?_, fun failure refused => ?_⟩
  · -- The merge request has a name less than the commits, so its address is no longer.
    obtain ⟨sibling, found, scheme, authority, shorter⟩ := siblings
      ["projects", project, "merge_requests", report.mergeRequestId] (by simp)
    exact exists_requestUrl_of_shorter read possible found scheme authority
      (shorter "commits" (by decide) rfl)
  · obtain ⟨sibling, found, scheme, authority, _⟩ := siblings
      ["projects", project, "statuses", report.commit] (by simp)
    obtain ⟨_, good⟩ := Url.isRead_of_parse found
      (Url.isWeb_of_scheme found (scheme ▸ Url.scheme_of_isWeb web))
    -- What is asked in the address of the status leaves its host alone.
    have asked := good.addQuery (@Form.isQueryChar_of_mem_encode status.fields)
    refine ⟨(sibling.addQuery (Form.encode status.fields)).text, ?_, fun failure refused => ?_⟩
    · rw [BuildStatus.address, found]
    · exact overlong_of_requestUrl read possible asked.again scheme authority refused
  · obtain ⟨sibling, found, scheme, authority, _⟩ := siblings
      ["projects", project, "merge_requests", report.mergeRequestId, "discussions"] (by simp)
    exact overlong_of_requestUrl read possible found scheme authority refused

/-- A status whose coverage is too long has an address that is too long. -/
theorem BuildStatus.overlong_of_coverage {status : BuildStatus} {address : String} {url : Url}
    (read : Url.parse address = .ok url) (web : url.isWeb = true)
    (long : longestRequestUrl < status.coverage.toList.length) :
    ∃ asked, status.address address = .ok asked ∧ Overlong asked := by
  obtain ⟨_, good⟩ := Url.isRead_of_parse read web
  have asked := good.addQuery (@Form.isQueryChar_of_mem_encode status.fields)
  refine ⟨_, by rw [BuildStatus.address, read], _, asked.again, ?_⟩
  -- The query is in the text, the form is in the query, and the coverage is in the form.
  have hidden := asked.withoutReadableCredentials
  obtain ⟨authority, named, _⟩ := hidden.authority
  obtain ⟨query, present, added⟩ := url.exists_query_of_addQuery (Form.encode status.fields)
  have kept : (url.addQuery (Form.encode status.fields)).withoutReadableCredentials.query =
      some query := by
    unfold Url.withoutReadableCredentials
    split <;> exact present
  -- Each of them is no longer than what it is part of.
  have behind := Url.length_query_lt kept
  have inside : status.coverage.toList.length ≤ (Form.encode status.fields).length :=
    Form.length_le_encode (show ("coverage", status.coverage) ∈ status.fields by
      simp [BuildStatus.fields])
  rw [hidden.utf8ByteSize, Url.length_text named]
  omega

/-- The steps that only read. -/
def Preparation.readings (prepared : Preparation) (replies : List Reply) : List Step :=
  prepared.pages replies ++ [.read MergeRequest.format (.ok prepared.endpoints.mergeRequest)]

/-- Where everything is read well, an address that is too long for the status ends a
decoration. -/
theorem Preparation.Ends.refused_of_overlong {prepared : Preparation} {report : Report}
    {reach : Reach} {replies : List Reply} {ending : Except Failure Outcome × Line}
    (ends : prepared.Ends report (.fresh reach replies) ending)
    (accepted : AllAccepted (prepared.readings replies) replies)
    (sendable : ∀ step ∈ prepared.readings replies, step.IsSendable reach)
    {address : String} (addressed : prepared.status.address prepared.endpoints.status = .ok address)
    (overlong : Overlong address) :
    (∃ detail, ending.1 = .error (.remote (.invalidUrl detail))) ∧
      ending.2.requests.map some =
        (prepared.readings replies).map (Step.request? prepared.token) := by
  obtain ⟨detail, refused⟩ := exists_refused_of_overlong overlong
  obtain ⟨more, plan⟩ : ∃ more, prepared.plan report replies = prepared.readings replies ++
      .status prepared.endpoints.status prepared.status :: more :=
    ⟨_, by rw [prepared.plan_eq, Preparation.readings, List.append_assoc]; rfl⟩
  -- No course can have taken the step that posts the status.
  have untaken : ∀ {steps : List Step} {before after : Line},
      Completes prepared.token steps before after →
        Step.status prepared.endpoints.status prepared.status ∉ steps := by
    intro steps before after completes member
    obtain ⟨other, url, same, requested⟩ := completes.requested member
    rw [Step.status, addressed, Except.ok.injEq] at same
    rw [← same, refused] at requested
    simp at requested
  -- A course that is taken to its end would have taken that step.
  have member : Step.status prepared.endpoints.status prepared.status ∈
      prepared.plan report replies := by
    rw [plan]
    exact List.mem_append_right _ List.mem_cons_self
  cases ends with
  | broken broken =>
    obtain ⟨between, completes, done, step, rest, middle, split, later, breaks⟩ :=
      BreaksOff.behind (plan ▸ broken) accepted sendable
    cases done with
    | nil =>
      rw [List.nil_append, List.cons.injEq] at split
      -- The step that broke off is the one for the status, for which nothing was sent.
      rw [← split.1] at breaks
      obtain ⟨rfl, quiet⟩ := breaks.of_refused addressed refused
      obtain ⟨_, sent, requests, same⟩ := (completes.append later).traffic
      rw [List.append_nil] at same
      refine ⟨⟨detail, rfl⟩, ?_⟩
      rw [quiet.requests, requests, ← same]
      rfl
    | cons first done =>
      rw [List.cons_append, List.cons.injEq] at split
      exact absurd (split.1 ▸ List.mem_cons_self) (untaken later)
  | unselected completes _ => exact absurd member (untaken completes)
  | done completes _ => exact absurd member (untaken completes)

end MergeNotes
