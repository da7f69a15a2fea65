import MergeNotes.Proofs.Url.Changed
import MergeNotes.Proofs.Url.Siblings
import MergeNotes.Remote.Exchange

/-! Addresses that no request can be made for: where a request for one URL of the web is possible,
only the length of another at the same host can stand in the way. -/

namespace MergeNotes

variable {url sibling : Url} {address : String}

/-- The URL of an address is longer than that of a request may be. -/
def Overlong (address : String) : Prop :=
  ∃ url, Url.parse address = .ok url ∧
    longestRequestUrl < url.withoutReadableCredentials.text.utf8ByteSize

/-- A request that is refused is refused for its URL. -/
theorem exists_invalidUrl_of_requestUrl {failure : RemoteFailure}
    (refused : requestUrl address = .error failure) : ∃ detail, failure = .invalidUrl detail := by
  -- Either the address is no URL, or no request is possible for the URL that it is.
  unfold requestUrl at refused
  split at refused
  · rw [Except.error.injEq] at refused
    exact ⟨_, refused.symm⟩
  · dsimp only at refused
    split at refused
    · simp at refused
    · rw [Except.error.injEq] at refused
      exact ⟨_, refused.symm⟩

/-- A request is made exactly for an address that is read as a URL for which one is possible. -/
theorem requestUrl_eq_ok_iff :
    requestUrl address = .ok url ↔ ∃ read, Url.parse address = .ok read ∧
      isRequestable read.withoutReadableCredentials = true ∧
      url = read.withoutReadableCredentials := by
  unfold requestUrl
  cases Url.parse address with
  | error reason => simp
  | ok read =>
    dsimp only
    split
    · rename_i possible
      simp only [Except.ok.injEq, exists_eq_left', possible, true_and]
      exact eq_comm
    · -- A text that reads as a URL may still be none that requests are made for.
      rename_i impossible
      simp only [reduceCtorEq, Except.ok.injEq, exists_eq_left', impossible, Bool.false_eq_true,
        false_and]

/-- No request is made for an address that is too long. -/
theorem exists_refused_of_overlong (overlong : Overlong address) :
    ∃ detail, requestUrl address = .error (.invalidUrl detail) := by
  cases requested : requestUrl address with
  | error failure =>
    obtain ⟨detail, rfl⟩ := exists_invalidUrl_of_requestUrl requested
    exact ⟨detail, rfl⟩
  | ok asked =>
    obtain ⟨read, known, requestable, _⟩ := requestUrl_eq_ok_iff.1 requested
    obtain ⟨url, found, long⟩ := overlong
    rw [known, Except.ok.injEq] at found
    subst found
    -- A request is only made for what is short enough.
    simp only [isRequestable, Bool.and_eq_true, decide_eq_true_eq] at requestable
    omega

namespace Url

/-- Credentials, readable or not, say nothing of the host. -/
theorem host?_withoutReadableCredentials (url : Url) :
    url.withoutReadableCredentials.host? = url.host? := by
  unfold withoutReadableCredentials
  split
  · unfold withoutCredentials host?
    rcases url.authority with _ | ⟨credentials, _ | _, number⟩ <;> rfl
  · rfl

theorem scheme_withoutReadableCredentials (url : Url) :
    url.withoutReadableCredentials.scheme = url.scheme := by
  unfold withoutReadableCredentials
  split <;> rfl

theorem IsRead.withoutReadableCredentials {port : Nat} (good : url.IsRead port) :
    url.withoutReadableCredentials.IsRead port := by
  unfold Url.withoutReadableCredentials
  split
  · exact good.withoutCredentials
  · exact good

/-- The text of a URL of the web takes one byte for each character. -/
theorem IsRead.utf8ByteSize {port : Nat} (good : url.IsRead port) :
    url.text.utf8ByteSize = url.text.toList.length := by
  have ascii : ∀ c ∈ url.text.toList, c.toNat < 128 := fun c member => by
    have bounds := isGraphic_iff.1 (good.graphic c member)
    omega
  -- Characters below 128 take one byte each.
  rw [← utf8ByteSize_of_ascii ascii, String.ofList_toList]

/-- The length of the text of a URL behind its authority. -/
def lengthBehind (url : Url) : Nat :=
  url.path.text.length + (url.query.elim [] ('?' :: ·)).length +
    (url.fragment.elim [] ('#' :: ·)).length

theorem length_text {authority : Authority} (named : url.authority = some authority) :
    url.text.toList.length =
      url.scheme.length + 3 + authority.text.length + url.lengthBehind := by
  simp only [text, withoutFragment, resource, named, lengthBehind, String.toList_ofList,
    List.length_append, List.length_cons, List.length_nil]
  omega

/-- The query is shorter than what stands behind the authority. -/
theorem length_query_lt {query : List Char} (present : url.query = some query) :
    query.length < url.lengthBehind := by
  rw [lengthBehind, present, Option.elim_some, List.length_cons]
  omega

/-- Of two URLs at one host the longer one stays the longer one without credentials. -/
theorem length_withoutReadableCredentials_le {authority : Authority}
    (scheme : sibling.scheme = url.scheme) (named : url.authority = some authority)
    (same : sibling.authority = some authority)
    (shorter : sibling.text.toList.length ≤ url.text.toList.length) :
    sibling.withoutReadableCredentials.text.toList.length ≤
      url.withoutReadableCredentials.text.toList.length := by
  unfold withoutReadableCredentials
  rw [named, same]
  split
  · -- What is hidden is as long in both, so hiding it changes nothing about which is longer.
    have hidden : ∀ url : Url, url.authority = some authority →
        url.withoutCredentials.authority = some { authority with credentials := none } := by
      intro url named
      rw [withoutCredentials, named]
      rfl
    have behind : ∀ url : Url, url.withoutCredentials.lengthBehind = url.lengthBehind :=
      fun _ => rfl
    have schemes : ∀ url : Url, url.withoutCredentials.scheme = url.scheme := fun _ => rfl
    rw [length_text named, length_text same, scheme] at shorter
    rw [length_text (hidden url named), length_text (hidden sibling same), behind, behind, schemes,
      schemes, scheme]
    omega
  · exact shorter

end Url

/-- Where a request is possible for one URL, only its length stands in the way of one for another
URL of its scheme at its host. -/
theorem overlong_of_requestUrl {other : String} {asked : Url} {failure : RemoteFailure}
    (read : Url.parse address = .ok url) (possible : requestUrl address = .ok asked)
    (found : Url.parse other = .ok sibling) (scheme : sibling.scheme = url.scheme)
    (authority : sibling.authority = url.authority)
    (refused : requestUrl other = .error failure) : Overlong other := by
  refine ⟨sibling, found, ?_⟩
  obtain ⟨same, known, requestable, rfl⟩ := requestUrl_eq_ok_iff.1 possible
  rw [read, Except.ok.injEq] at known
  subst known
  -- The host and the scheme are the same, with or without credentials.
  have host : sibling.withoutReadableCredentials.host? = url.withoutReadableCredentials.host? := by
    rw [Url.host?_withoutReadableCredentials, Url.host?_withoutReadableCredentials]
    unfold Url.host?
    rw [authority]
  have named : sibling.withoutReadableCredentials.scheme =
      url.withoutReadableCredentials.scheme := by
    rw [Url.scheme_withoutReadableCredentials, Url.scheme_withoutReadableCredentials, scheme]
  by_contra short
  have short : sibling.withoutReadableCredentials.text.utf8ByteSize ≤ longestRequestUrl := by omega
  -- All else that a request needs is the same for both.
  have fine : isRequestable sibling.withoutReadableCredentials = true := by
    simp only [isRequestable, Url.isWeb, Bool.and_eq_true, decide_eq_true_eq] at requestable ⊢
    rw [host, named]
    exact ⟨requestable.1, short⟩
  rw [requestUrl_eq_ok_iff.2 ⟨sibling, found, fine, rfl⟩] at refused
  simp at refused

/-- What a request is possible for is of the web. -/
theorem isWeb_of_requestUrl {asked : Url} (read : Url.parse address = .ok url)
    (possible : requestUrl address = .ok asked) : url.isWeb = true := by
  obtain ⟨same, known, requestable, _⟩ := requestUrl_eq_ok_iff.1 possible
  rw [read, Except.ok.injEq] at known
  subst known
  simp only [isRequestable, Url.isWeb, Bool.and_eq_true] at requestable ⊢
  -- What is asked differs from what was read in its credentials only.
  rw [Url.host?_withoutReadableCredentials, Url.scheme_withoutReadableCredentials] at requestable
  exact requestable.1.1

/-- Where a request is possible for one URL, it is for any that is no longer. -/
theorem exists_requestUrl_of_shorter {other : String} {asked : Url}
    (read : Url.parse address = .ok url) (possible : requestUrl address = .ok asked)
    (found : Url.parse other = .ok sibling) (scheme : sibling.scheme = url.scheme)
    (authority : sibling.authority = url.authority)
    (shorter : sibling.text.toList.length ≤ url.text.toList.length) :
    ∃ shown, requestUrl other = .ok shown := by
  cases refused : requestUrl other with
  | ok shown => exact ⟨shown, rfl⟩
  | error failure =>
    obtain ⟨same, known, overlong⟩ :=
      overlong_of_requestUrl read possible found scheme authority refused
    rw [found, Except.ok.injEq] at known
    subst known
    -- The bytes of both are their characters, and there are no more of them.
    have web := isWeb_of_requestUrl read possible
    obtain ⟨_, good⟩ := Url.isRead_of_parse read web
    obtain ⟨_, well⟩ := Url.isRead_of_parse found
      (Url.isWeb_of_scheme found (scheme ▸ Url.scheme_of_isWeb web))
    obtain ⟨place, named, _⟩ := good.authority
    have lengths := Url.length_withoutReadableCredentials_le scheme named (authority.trans named)
      shorter
    obtain ⟨same, known, requestable, _⟩ := requestUrl_eq_ok_iff.1 possible
    rw [read, Except.ok.injEq] at known
    subst known
    simp only [isRequestable, Bool.and_eq_true, decide_eq_true_eq] at requestable
    rw [well.withoutReadableCredentials.utf8ByteSize] at overlong
    rw [good.withoutReadableCredentials.utf8ByteSize] at requestable
    omega

end MergeNotes
