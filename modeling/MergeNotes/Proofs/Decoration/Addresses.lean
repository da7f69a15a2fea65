import MergeNotes.Proofs.Decoration.Endpoints
import MergeNotes.Proofs.Url.Changed
import MergeNotes.Proofs.Url.Root
import MergeNotes.Status

/-! The addresses under the root of an API: when the URLs that requests for them show name what
they are meant for. -/

namespace MergeNotes

open Url (isTailChar isInner IsSegment)

variable {base url : Url} {names : List String} {text : String}

/-- The URL that a request for an address shows, read as the server reads it. -/
def shownUrl (address : String) : Except Url.Error Url := do
  let url ← Url.parse address
  Url.parse (String.ofList url.withoutCredentials.withoutFragment)

namespace Url

/-- A URL names a resource by its path from the root of a base, at the host of the base. -/
structure IsBelow (base : Url) (names : List String) (url : Url) : Prop where
  scheme : url.scheme = base.scheme
  host : url.host? = base.host?
  port : url.authority.bind (·.port) = base.authority.bind (·.port)
  path : ∃ tail, url.path = .rooted (base.root ++ tail) ∧
    tail.map (fun segment => Percent.decode (Utf8.encode segment)) = names.map Utf8.bytes

/-- Requests for an address name a resource below a base, as far as there is an address. -/
def Leads (base : Url) (address : Except RemoteFailure String) (names : List String) : Prop :=
  ∃ text url, address = .ok text ∧ shownUrl text = .ok url ∧ base.IsBelow names url

/-- The slashes at the end of a text. -/
def trailingSlashes (text : String) : Nat :=
  (text.toList.reverse.takeWhile (· == '/')).length

/-- A path behind the text of a URL goes on from the root of the URL. -/
structure IsOpen (text : String) (base : Url) : Prop where
  unasked : base.query = none
  unplaced : base.fragment = none
  /-- Without slashes at its end, the text ends in neither a blank nor a separator. -/
  inner : trailingSlashes text = 0 → ∀ c ∈ (withoutGaps text.toList).getLast?, isInner c = true
  /-- Empty segments at the end come of slashes at the end, but for one. -/
  lean : base.segments.length ≤ base.root.length + max 1 (trailingSlashes text)

end Url

/-- The URL of the web that a text reads as is shown without credentials and fragment. -/
theorem shownUrl_eq (read : Url.parse text = .ok url) (web : url.isWeb = true) :
    shownUrl text = .ok url.shown := by
  obtain ⟨port, good⟩ := Url.isRead_of_parse read web
  rw [shownUrl, read]
  dsimp only [bind, Except.bind]
  rw [← Url.text_shown, good.shown.again]

namespace Url

/-- Neither what is hidden nor what is asked makes a URL name something else. -/
theorem isBelow_congr {other : Url} (scheme : other.scheme = url.scheme)
    (host : other.authority.map (fun authority => (authority.host, authority.port)) =
      url.authority.map fun authority => (authority.host, authority.port))
    (path : other.path = url.path) : base.IsBelow names other ↔ base.IsBelow names url := by
  -- Host and port are functions of the authority but for its credentials.
  have hosts : ∀ url : Url, url.host? = (url.authority.map fun authority =>
      (authority.host, authority.port)).bind fun place =>
        if place.1 = .empty then none else some place.1 := by
    intro url
    unfold host?
    rcases url.authority with _ | ⟨credentials, _ | _, number⟩ <;> simp
  have ports : ∀ url : Url, url.authority.bind (·.port) = (url.authority.map fun authority =>
      (authority.host, authority.port)).bind (·.2) := by
    intro url
    cases url.authority <;> rfl
  constructor
  · rintro ⟨h1, h2, h3, h4⟩
    exact ⟨scheme ▸ h1, by rw [hosts, ← host, ← hosts, h2], by rw [ports, ← host, ← ports, h3],
      path ▸ h4⟩
  · rintro ⟨h1, h2, h3, h4⟩
    exact ⟨scheme ▸ h1, by rw [hosts, host, ← hosts, h2], by rw [ports, host, ← ports, h3],
      path ▸ h4⟩

theorem leads_iff (web : ∀ url, parse text = .ok url → url.isWeb = true) :
    base.Leads (.ok text) names ↔ ∃ url, parse text = .ok url ∧ base.IsBelow names url := by
  -- Credentials and fragment are hidden, neither of which names anything.
  have same : ∀ url : Url, base.IsBelow names url.shown ↔ base.IsBelow names url := by
    intro url
    refine isBelow_congr rfl ?_ rfl
    rw [shown, withoutCredentials]
    cases url.authority <;> rfl
  constructor
  · rintro ⟨address, shown, known, read, below⟩
    rw [Except.ok.injEq] at known
    subst known
    cases found : parse text with
    | error reason => simp [shownUrl, found, bind, Except.bind] at read
    | ok url =>
      rw [shownUrl_eq found (web url found), Except.ok.injEq] at read
      exact ⟨url, rfl, (same url).1 (read ▸ below)⟩
  · rintro ⟨url, found, below⟩
    exact ⟨text, _, rfl, shownUrl_eq found (web url found), (same url).2 below⟩

/-- What is asked of a status makes no difference to where it goes. -/
theorem leads_address_iff (status : BuildStatus)
    (web : ∀ url, parse text = .ok url → url.isWeb = true) :
    base.Leads (status.address text) names ↔
      ∃ url, parse text = .ok url ∧ base.IsBelow names url := by
  cases found : parse text with
  | error reason =>
    constructor
    · rintro ⟨address, _, known, _⟩
      simp [BuildStatus.address, found] at known
    · simp
  | ok url =>
    -- The fields go to the query, with which the URL is still one that is read again.
    obtain ⟨port, good⟩ := isRead_of_parse found (web url found)
    have asked := good.addQuery (@Form.isQueryChar_of_mem_encode status.fields)
    have address : status.address text = .ok (url.addQuery (Form.encode status.fields)).text := by
      rw [BuildStatus.address, found]
    rw [address, leads_iff fun other again => ?_]
    · simp only [asked.again, Except.ok.injEq, exists_eq_left']
      exact isBelow_congr rfl rfl rfl
    · rw [asked.again, Except.ok.injEq] at again
      exact again ▸ asked.isWeb

/-- No URL that was read names dots. -/
theorem IsBelow.not_dots (below : base.IsBelow names url) {port : Nat} (good : url.IsRead port) :
    ∀ name ∈ names, name ≠ "." ∧ name ≠ ".." := by
  obtain ⟨tail, rooted, read⟩ := below.path
  obtain ⟨segments, same, _, whole⟩ := good.path
  rw [rooted, Path.rooted.injEq] at same
  intro name member
  obtain ⟨segment, present, decoded⟩ := List.mem_map.1 (read ▸ List.mem_map_of_mem member)
  have segment := whole segment (same ▸ List.mem_append_right _ present)
  have decode := Percent.decode_component name
  -- The name written out is read as this segment is, and so is no dots any more than it is.
  obtain ⟨single, double⟩ := isDots_congr (decode.trans decoded.symm)
  have segmentOf : IsSegment (.network port) (Percent.component name).toList :=
    ⟨fun c => isSegmentChar_of_mem_component, single.trans segment.single,
      double.trans segment.double⟩
  exact isSegment_component_iff.1 segmentOf

/-- A path that goes on from the root of a base by names goes on by these, and by no others. -/
theorem path_iff (port : Nat) (present : names ≠ []) {done : List (List Char)} {tail : List Char}
    (below : pathBelow names = '/' :: tail) (plain : ∀ name ∈ names, name ≠ "." ∧ name ≠ "..") :
    (∃ more, Path.rooted (continued (.network port) done tail) = .rooted (base.root ++ more) ∧
      more.map (fun segment => Percent.decode (Utf8.encode segment)) = names.map Utf8.bytes) ↔
      done.reverse = base.root := by
  -- Each name is one segment, and is read of it as it was.
  have good : ∀ segment ∈ names.map fun name => (Percent.component name).toList,
      IsSegment (.network port) segment := by
    intro segment member
    obtain ⟨name, known, rfl⟩ := List.mem_map.1 member
    exact isSegment_component_iff.2 (plain name known)
  have read : (names.map fun name => (Percent.component name).toList).map
      (fun segment => Percent.decode (Utf8.encode segment)) = names.map Utf8.bytes := by
    simp only [List.map_map, Function.comp_def, Percent.decode_component]
  have some_left : (names.map fun name => (Percent.component name).toList) ≠ [] := by
    simpa using present
  obtain ⟨text, same, pieces⟩ := splitAtEach_segments some_left good
  rw [← pathBelow, below, List.cons.injEq] at same
  obtain ⟨_, rfl⟩ := same
  rw [continued_segments (by simp) some_left good pieces done]
  constructor
  · rintro ⟨more, whole, others⟩
    -- As many segments are read as there are names, so that the rest of the path is the root.
    have lengths : more.length =
        (names.map fun name => (Percent.component name).toList).length := by
      have counted := congrArg List.length others
      simpa using counted
    rw [Path.rooted.injEq] at whole
    exact (List.append_inj' whole lengths.symm).1
  · exact fun root => ⟨_, by rw [root], read⟩

/-- A URL that shares its path with a base names nothing below it. -/
theorem not_isBelow_of_path (named : ∃ name ∈ names, name ≠ "") (same : url.path = base.path) :
    ¬ base.IsBelow names url := by
  intro below
  obtain ⟨tail, rooted, read⟩ := below.path
  obtain ⟨name, member, something⟩ := named
  obtain ⟨empties, whole, empty⟩ := dropWhileEnd_append List.isEmpty base.segments
  -- What is behind the root of the base is empty, and so is what is read of it.
  have segments : base.segments = base.root ++ tail := by
    rw [Url.segments, ← same, rooted]
  rw [← root, segments, List.append_cancel_left_eq] at whole
  subst whole
  obtain ⟨segment, present, decoded⟩ := List.mem_map.1 (read ▸ List.mem_map_of_mem member)
  have nothing := empty segment present
  rw [List.isEmpty_iff] at nothing
  rw [nothing, Utf8.encode_nil, Percent.decode_nil, eq_comm, Utf8.bytes,
    Utf8.encode_eq_nil_iff] at decoded
  exact something (String.toList_inj.1 decoded)

/-- The slashes at the end of a text are what it has more than the text without them. -/
theorem toList_eq_append_slashes (text : String) :
    text.toList =
      (withoutTrailingSlashes text).toList ++ List.replicate (trailingSlashes text) '/' := by
  -- From behind, the slashes are the first characters that are taken.
  have slashes : (text.toList.reverse.takeWhile (· == '/')) =
      List.replicate (trailingSlashes text) '/' :=
    List.eq_replicate_iff.2 ⟨rfl, fun c member => by
      simpa using List.all_eq_true.1 List.all_takeWhile c member⟩
  have whole := List.takeWhile_append_dropWhile (p := (· == '/')) (l := text.toList.reverse)
  rw [slashes] at whole
  rw [withoutTrailingSlashes, String.toList_ofList, dropWhileEnd,
    ← List.reverse_reverse (List.replicate _ _), List.reverse_replicate, ← List.reverse_append,
    whole, List.reverse_reverse]

theorem splitAtEach_slashes (kind : Kind) (count : Nat) :
    splitAtEach (isSeparator kind) (List.replicate count '/') = List.replicate (count + 1) [] := by
  induction count with
  | zero => rfl
  | succ count ih =>
    rw [List.replicate_succ, splitAtEach, if_pos (by simp [isSeparator]), ih, ← List.replicate_succ]

theorem isTailChar_of_mem_slashes {count : Nat} {c : Char} (member : c ∈ List.replicate count '/') :
    isTailChar c = true :=
  List.eq_of_mem_replicate member ▸ by decide

/-- The text without the slashes at its end is of the web as well. -/
theorem isWeb_of_slashes {trimmed : Url} (found : parse (withoutTrailingSlashes text) = .ok trimmed)
    (read : parse text = .ok base) (web : base.isWeb = true) :
    base.scheme = trimmed.scheme ∧ trimmed.isWeb = true := by
  rw [← String.ofList_toList (s := text), toList_eq_append_slashes] at read
  have scheme := scheme_of_append found (fun c => isTailChar_of_mem_slashes) read
  exact ⟨scheme, isWeb_of_scheme found (scheme ▸ scheme_of_isWeb web)⟩

/-- Behind the text of a URL without query and fragment, with or without slashes at its end, a
path goes on from the root exactly when the text is open. -/
theorem exists_stem_of_slashes {trimmed : Url}
    (found : parse (withoutTrailingSlashes text) = .ok trimmed) (read : parse text = .ok base)
    (web : base.isWeb = true) (unasked : trimmed.query = none)
    (unplaced : trimmed.fragment = none) :
    ∃ (port : Nat) (authority : Except Error Authority) (done : List (List Char)),
      (∀ tail : List Char, (∀ c ∈ tail, isTailChar c = true) →
        parse (String.ofList ((withoutTrailingSlashes text).toList ++ '/' :: tail)) =
          authority.map fun authority => ⟨base.scheme, some authority,
            .rooted (continued (.network port) done tail), none, none⟩) ∧
      (∀ known, authority = .ok known → base.authority = some known) ∧
      (((∃ known, authority = .ok known) ∧ done.reverse = base.root) ↔ IsOpen text base) := by
  obtain ⟨scheme, good⟩ := isWeb_of_slashes found read web
  have whole := toList_eq_append_slashes text
  rw [← String.ofList_toList (s := text), whole] at read
  obtain ⟨port, authority, done, network, stem, goes⟩ := exists_stem found good unasked unplaced
  rw [← scheme] at goes
  refine ⟨port, authority, done, goes, ?_⟩
  -- Without slashes the URL is the one that the addresses are put together from.
  cases slashed : trailingSlashes text with
  | zero =>
    rw [slashed, List.replicate_zero, List.append_nil, String.ofList_toList, found,
      Except.ok.injEq] at read
    subst read
    rw [slashed, List.replicate_zero, List.append_nil] at whole
    refine ⟨fun _ known => stem.named known, ?_⟩
    rw [stem.root_iff, ← whole]
    constructor
    · exact fun ⟨inner, lean⟩ => ⟨unasked, unplaced, fun _ => inner, by rwa [slashed]⟩
    · exact fun ⟨_, _, inner, lean⟩ => ⟨inner slashed, by rwa [slashed] at lean⟩
  | succ count =>
    rw [slashed, List.replicate_succ, goes _ fun c => isTailChar_of_mem_slashes] at read
    cases authority with
    | error reason => simp [Except.map] at read
    | ok known =>
      rw [Except.map, Except.ok.injEq, continued_segments (by simp) (by simp)
        (fun s member => (List.eq_of_mem_replicate member) ▸ isSegment_nil)
        (splitAtEach_slashes _ count)] at read
      -- With slashes it goes on from the same place, by an empty segment for each of them.
      have shape : base.segments = (List.replicate (count + 1) [] ++ done).reverse := by
        rw [← read, segments, List.reverse_append, List.reverse_replicate]
      have root : base.root = (done.dropWhile List.isEmpty).reverse := by
        rw [Url.root, shape, dropWhileEnd_reverse, List.dropWhile_append_of_pos]
        exact fun segment member => (List.eq_of_mem_replicate member) ▸ rfl
      refine ⟨fun other same => by rw [← read, Except.ok.inj same], ?_⟩
      rw [root, List.reverse_inj, eq_dropWhile_iff]
      constructor
      · rintro ⟨_, long⟩
        refine ⟨by rw [← read], by rw [← read], by simp [slashed], ?_⟩
        rw [shape, root, slashed]
        simp only [List.length_reverse, List.length_append, List.length_replicate]
        omega
      · rintro ⟨_, _, _, lean⟩
        rw [shape, root, slashed] at lean
        simp only [List.length_reverse, List.length_append, List.length_replicate] at lean
        exact ⟨⟨known, rfl⟩, by omega⟩

/-- Slashes behind a query or a fragment change nothing but these. -/
theorem marked_of_slashes {trimmed : Url}
    (found : parse (withoutTrailingSlashes text) = .ok trimmed) (read : parse text = .ok base)
    (web : trimmed.isWeb = true) (marked : trimmed.query ≠ none ∨ trimmed.fragment ≠ none) :
    (base.query ≠ none ∨ base.fragment ≠ none) ∧ base.path = trimmed.path := by
  have whole := toList_eq_append_slashes text
  rw [← String.ofList_toList (s := text), whole] at read
  cases slashed : trailingSlashes text with
  | zero =>
    rw [slashed, List.replicate_zero, List.append_nil, String.ofList_toList, found,
      Except.ok.injEq] at read
    exact read ▸ ⟨marked, rfl⟩
  | succ count =>
    rw [slashed] at read
    have present : List.replicate (count + 1) '/' ≠ [] := by simp
    obtain ⟨blanks, again⟩ := parse_append_of_marked found web marked
    rw [again _ (fun c => isTailChar_of_mem_slashes) present, Except.ok.injEq] at read
    have spec := followed_spec trimmed (blanks ++ List.replicate (count + 1) '/')
    exact read ▸ ⟨spec.2.2.2 marked, spec.2.2.1⟩

/-- What is read of the text of a root with names behind it is below the root exactly when the text
is open and no name is dots. -/
theorem below_iff {trimmed : Url} (found : parse (withoutTrailingSlashes text) = .ok trimmed)
    (read : parse text = .ok base) (web : base.isWeb = true)
    (named : ∃ name ∈ names, name ≠ "") :
    (∃ url, parse (String.ofList ((withoutTrailingSlashes text).toList ++ pathBelow names)) =
        .ok url ∧ base.IsBelow names url) ↔
      IsOpen text base ∧ ∀ name ∈ names, name ≠ "." ∧ name ≠ ".." := by
  have present : names ≠ [] := by
    obtain ⟨name, member, _⟩ := named
    exact List.ne_nil_of_mem member
  obtain ⟨tail, slash, plain⟩ := exists_tail present
  by_cases marked : trimmed.query ≠ none ∨ trimmed.fragment ≠ none
  · -- The names do not get into the path.
    have good := (isWeb_of_slashes found read web).2
    obtain ⟨still, path⟩ := marked_of_slashes found read good marked
    obtain ⟨blanks, again⟩ := parse_append_of_marked found good marked
    constructor
    · rintro ⟨url, same, below⟩
      rw [again _ plain (by simp [slash]), Except.ok.injEq] at same
      have unchanged := (followed_spec trimmed (blanks ++ pathBelow names)).2.2.1
      exact absurd below (not_isBelow_of_path named (by rw [← same, unchanged, path]))
    · rintro ⟨isOpen, _⟩
      rw [isOpen.unasked, isOpen.unplaced] at still
      simp at still
  · rw [not_or, not_ne_iff, not_ne_iff] at marked
    obtain ⟨port, authority, done, goes, known, isOpen⟩ :=
      exists_stem_of_slashes found read web marked.1 marked.2
    rw [slash] at plain ⊢
    have again := goes tail (List.forall_mem_cons.1 plain).2
    rw [← isOpen]
    cases authority with
    | error reason =>
      rw [again]
      simp [Except.map]
    | ok place =>
      rw [Except.map] at again
      rw [again]
      have same := known place rfl
      constructor
      · rintro ⟨url, whole, below⟩
        rw [Except.ok.injEq] at whole
        subst whole
        -- What was read names no dots, so the path is that of the root and the names.
        have web := scheme_of_isWeb web
        obtain ⟨_, good⟩ := isRead_of_parse again (isWeb_of_scheme again web)
        have fine := below.not_dots good
        exact ⟨⟨⟨place, rfl⟩, (path_iff port present slash fine).1 below.path⟩, fine⟩
      · rintro ⟨⟨_, root⟩, fine⟩
        refine ⟨_, rfl, rfl, ?_, ?_, (path_iff port present slash fine).2 root⟩
        · unfold host?
          rw [same]
        · rw [same]

end Url

/-- What a request shows is what its address is shown as. -/
theorem shownUrl_of_requestUrl {address : String} (requested : requestUrl address = .ok url)
    (token : Token) (method : Method) (form : Option Comment) :
    shownUrl address = Url.parse (requestFor token method url form).url := by
  unfold requestUrl at requested
  cases found : Url.parse address with
  | error reason => simp [found] at requested
  | ok read =>
    simp only [found] at requested
    split at requested
    · rw [Except.ok.injEq] at requested
      subst requested
      rw [shownUrl, found, requestFor, Url.withoutCredentials_withoutReadableCredentials]
      dsimp only [bind, Except.bind]
    · simp at requested

/-- The addresses under the root of an API all lead to what they are meant for exactly when the
text of the root is open and neither the project, the merge request nor the revision is named by
dots. -/
theorem addresses_lead_iff {apiUrl project mergeRequestId revision : String} {endpoints : Endpoints}
    (resolved : Endpoints.resolve apiUrl project mergeRequestId revision = .ok endpoints)
    (read : Url.parse apiUrl = .ok base) (web : base.isWeb = true) (status : BuildStatus) :
    (base.Leads (status.address endpoints.status) ["projects", project, "statuses", revision] ∧
      base.Leads (.ok endpoints.mergeRequest)
        ["projects", project, "merge_requests", mergeRequestId] ∧
      base.Leads (.ok endpoints.commits)
        ["projects", project, "merge_requests", mergeRequestId, "commits"] ∧
      base.Leads (.ok endpoints.discussions)
        ["projects", project, "merge_requests", mergeRequestId, "discussions"] ↔
      Url.IsOpen apiUrl base ∧
        ∀ name ∈ [project, mergeRequestId, revision], name ≠ "." ∧ name ≠ "..") ∧
    ∀ address url token method form, requestUrl address = .ok url →
      shownUrl address = Url.parse (requestFor token method url form).url := by
  refine ⟨?_, fun _ _ token method form requested =>
    shownUrl_of_requestUrl requested token method form⟩
  unfold Endpoints.resolve at resolved
  dsimp only at resolved
  cases found : Url.parse (withoutTrailingSlashes apiUrl) with
  | error reason => simp [found] at resolved
  | ok trimmed =>
    rw [found, Except.ok.injEq] at resolved
    subst resolved
    have good := (Url.isWeb_of_slashes found read web).2
    -- All texts with names behind the root have its scheme.
    have webs : ∀ names : List String, names ≠ [] → ∀ url, Url.parse (String.ofList
        ((withoutTrailingSlashes apiUrl).toList ++ pathBelow names)) = .ok url →
        url.isWeb = true := by
      intro names present url longer
      obtain ⟨_, _, plain⟩ := exists_tail present
      have scheme := Url.scheme_of_append found plain longer
      exact Url.isWeb_of_scheme longer (scheme ▸ Url.scheme_of_isWeb good)
    rw [Endpoints.under_eq]
    dsimp only
    rw [Url.leads_address_iff status (webs _ (by simp)), Url.leads_iff (webs _ (by simp)),
      Url.leads_iff (webs _ (by simp)), Url.leads_iff (webs _ (by simp)),
      Url.below_iff found read web ⟨"projects", by simp⟩,
      Url.below_iff found read web ⟨"projects", by simp⟩,
      Url.below_iff found read web ⟨"projects", by simp⟩,
      Url.below_iff found read web ⟨"projects", by simp⟩]
    -- The other names are fixed, and none of them is dots.
    have fixed : ∀ name ∈ ["projects", "statuses", "merge_requests", "commits", "discussions"],
        name ≠ "." ∧ name ≠ ".." := by decide
    simp only [List.forall_mem_cons] at fixed ⊢
    obtain ⟨projects, statuses, requests, commits, discussions, none_left⟩ := fixed
    constructor
    · rintro ⟨⟨isOpen, _, named, _, revised, _⟩, ⟨_, _, _, _, numbered, _⟩, _⟩
      exact ⟨isOpen, named, numbered, revised, by simp⟩
    · rintro ⟨isOpen, named, numbered, revised, _⟩
      exact ⟨⟨isOpen, projects, named, statuses, revised, by simp⟩,
        ⟨isOpen, projects, named, requests, numbered, by simp⟩,
        ⟨isOpen, projects, named, requests, numbered, commits, by simp⟩,
        isOpen, projects, named, requests, numbered, discussions, by simp⟩

/-- A slash at the end of the root, and a slash and a space in the name of a project, lead no
request astray. -/
theorem addresses_lead_encoded :
    ∃ base endpoints, Url.parse "http://h:81/api/v4/" = .ok base ∧ base.isWeb = true ∧
      Endpoints.resolve "http://h:81/api/v4/" "group/app 1" "7" "c0ffee" = .ok endpoints ∧
      base.Leads (.ok endpoints.commits)
        ["projects", "group/app 1", "merge_requests", "7", "commits"] := by
  let base : Url := ⟨"http".toList, some ⟨none, .name "h".toList, some 81⟩,
    .rooted ["api".toList, "v4".toList, []], none, none⟩
  have read : Url.parse "http://h:81/api/v4/" = .ok base := by decide +kernel
  have web : base.isWeb = true := by decide
  have resolved : Endpoints.resolve "http://h:81/api/v4/" "group/app 1" "7" "c0ffee" =
      .ok (Endpoints.under "http://h:81/api/v4" "group/app 1" "7" "c0ffee") := by decide +kernel
  have isOpen : Url.IsOpen "http://h:81/api/v4/" base :=
    ⟨rfl, rfl, by decide +kernel, by decide +kernel⟩
  have leads := (addresses_lead_iff resolved read web ⟨"success", "", "0"⟩).1.2
    ⟨isOpen, by decide⟩
  exact ⟨base, _, read, web, resolved, leads.2.2.1⟩

/-- A project that is named by two dots leads requests past the projects. -/
theorem parent_project_misleads :
    ∃ base endpoints, Url.parse "http://h/api/v4" = .ok base ∧ base.isWeb = true ∧
      Endpoints.resolve "http://h/api/v4" ".." "7" "c0ffee" = .ok endpoints ∧
      (shownUrl endpoints.commits).map Url.text = .ok "http://h/api/v4/merge_requests/7/commits" ∧
      ¬ base.Leads (.ok endpoints.commits)
        ["projects", "..", "merge_requests", "7", "commits"] := by
  let base : Url := ⟨"http".toList, some ⟨none, .name "h".toList, none⟩,
    .rooted ["api".toList, "v4".toList], none, none⟩
  let shown : Url := ⟨"http".toList, some ⟨none, .name "h".toList, none⟩,
    .rooted ["api".toList, "v4".toList, "merge_requests".toList, "7".toList, "commits".toList],
    none, none⟩
  have read : shownUrl (Endpoints.under "http://h/api/v4" ".." "7" "c0ffee").commits =
      .ok shown := by decide +kernel
  refine ⟨base, Endpoints.under "http://h/api/v4" ".." "7" "c0ffee", by decide +kernel, by decide,
    by decide +kernel, by rw [read]; decide +kernel, ?_⟩
  rintro ⟨address, url, known, again, below⟩
  rw [Except.ok.injEq] at known
  rw [← known, read, Except.ok.injEq] at again
  obtain ⟨tail, path, decoded⟩ := below.path
  -- Three segments are left behind the root, and five names were meant.
  have behind : tail.length = 5 := by simpa using congrArg List.length decoded
  have root : base.root.length = 2 := by decide
  rw [← again, Url.Path.rooted.injEq] at path
  have lengths := congrArg List.length path
  rw [List.length_append, behind, root] at lengths
  simp at lengths

end MergeNotes
