import MergeNotes.Proofs.Url.Authority

/-! URLs of well-known schemes: their text is read again as the same URL. -/

namespace MergeNotes

variable {port : Nat}

namespace Url

/-! Texts split at marks. -/

theorem splitMark_of_not_mem {mark : Char} {text : List Char} (absent : mark ∉ text) :
    splitMark mark text = (text, none) := by
  -- No character stops the search for the mark.
  have passed : ∀ c ∈ text, (c != mark) = true := fun c member =>
    bne_iff_ne.2 fun same => absent (same ▸ member)
  rw [splitMark, span_of_all passed]

theorem splitMark_of_first {mark : Char} {before after : List Char} (first : mark ∉ before) :
    splitMark mark (before ++ mark :: after) = (before, some after) := by
  have passed : ∀ c ∈ before, (c != mark) = true := fun c member =>
    bne_iff_ne.2 fun same => first (same ▸ member)
  rw [splitMark, span_of_stop passed (by simp)]

/-- The parts before the marks of a query and of a fragment, and behind them. -/
def splitMarks (text : List Char) : List Char × Option (List Char) × Option (List Char) :=
  let (text, fragment) := splitMark '#' text
  let (text, query) := splitMark '?' text
  (text, query, fragment)

/-- A text where the slashes in front of it are left out, however many. -/
def behindSlashes (kind : Kind) (text : List Char) : List Char :=
  (withoutGaps text).dropWhile (isSeparator kind)

/-- The URL of three parts behind a well-known scheme. -/
def assemble (scheme : List Char) (port : Nat) (body : List Char)
    (query fragment : Option (List Char)) : Except Error Url :=
  let text := behindSlashes (.network port) body
  (readAuthority (.network port) (text.takeWhile (!isSeparator (.network port) ·))).map
    fun authority =>
      { scheme, authority := some authority
        path := pathBehindHost (.network port) (text.dropWhile (!isSeparator (.network port) ·))
        query := query.map fun text => encodeQuery (.network port) (withoutGaps text)
        fragment := fragment.map fun text => encodeFragment (withoutGaps text) }

/-- A text with a well-known scheme is read part by part. -/
theorem parse_eq {text : String} {scheme rest : List Char}
    (split : splitScheme? (significant text) = some (scheme, rest))
    (network : kindOf scheme = .network port) :
    parse text =
      assemble scheme port (splitMarks rest).1 (splitMarks rest).2.1 (splitMarks rest).2.2 := by
  unfold parse
  rw [split]
  dsimp only [splitMarks]
  -- A network scheme has an authority, however many slashes stand before it.
  rw [network, parseHierarchy, parseAuthority_eq, ← behindSlashes]
  unfold assemble
  dsimp only
  cases readAuthority (.network port) ((behindSlashes (.network port)
    (splitMark '?' (splitMark '#' rest).1).1).takeWhile (!isSeparator (.network port) ·)) <;> rfl

/-! URLs that were read. -/

/-- The characters that a query is written in. -/
def isQueryChar (c : Char) : Bool :=
  keepsBut " \"#<>'" c

/-- The characters that a fragment is written in. -/
def isFragmentChar (c : Char) : Bool :=
  keepsBut " \"<>`" c

end Url

/-- A URL of the web as it comes of reading a text. -/
structure Url.IsRead (port : Nat) (url : Url) : Prop where
  scheme : url.scheme = "http".toList ∧ port = 80 ∨ url.scheme = "https".toList ∧ port = 443
  authority : ∃ authority, url.authority = some authority ∧ authority.IsRead (.network port)
  path : ∃ segments, url.path = .rooted segments ∧ segments ≠ [] ∧
    ∀ segment ∈ segments, Url.IsSegment (.network port) segment
  query : ∀ query ∈ url.query, ∀ c ∈ query, Url.isQueryChar c = true
  fragment : ∀ fragment ∈ url.fragment, ∀ c ∈ fragment, Url.isFragmentChar c = true

namespace Url

variable {url : Url}

theorem IsRead.kind (good : url.IsRead port) : kindOf url.scheme = .network port := by
  rcases good.scheme with ⟨same, rfl⟩ | ⟨same, rfl⟩
  · rw [same]
    rfl
  · rw [same]
    rfl

theorem kindOf_web {scheme : List Char}
    (web : scheme = "http".toList ∨ scheme = "https".toList) :
    ∃ port, kindOf scheme = .network port ∧
      (scheme = "http".toList ∧ port = 80 ∨ scheme = "https".toList ∧ port = 443) := by
  rcases web with rfl | rfl
  · exact ⟨80, rfl, .inl ⟨rfl, rfl⟩⟩
  · exact ⟨443, rfl, .inr ⟨rfl, rfl⟩⟩

/-- Whatever is assembled can be written. -/
theorem isRead_of_assemble {scheme body : List Char} {query fragment : Option (List Char)}
    (web : scheme = "http".toList ∧ port = 80 ∨ scheme = "https".toList ∧ port = 443)
    (read : assemble scheme port body query fragment = .ok url) : url.IsRead port := by
  unfold assemble at read
  dsimp only at read
  cases known : readAuthority (.network port) ((behindSlashes (.network port) body).takeWhile
      (!isSeparator (.network port) ·)) with
  | error => simp [known, Except.map] at read
  | ok authority =>
    rw [known, Except.map, Except.ok.injEq] at read
    rw [← read]
    refine ⟨web, ⟨authority, rfl, Authority.isRead_of_readAuthority known⟩,
      isSegment_pathBehindHost _, ?_, ?_⟩
    · intro text same c member
      obtain ⟨source, _, rfl⟩ := Option.map_eq_some_iff.1 same
      -- Both are escaped on the way in, so that only what they keep is left.
      exact Percent.keep_of_mem_encode (fun c => keepsBut_of_isEscape (by decide)) member
    · intro text same c member
      obtain ⟨source, _, rfl⟩ := Option.map_eq_some_iff.1 same
      exact Percent.keep_of_mem_encode (fun c => keepsBut_of_isEscape (by decide)) member

/-- A URL that is read has a scheme that is split off. -/
theorem exists_splitScheme?_of_parse {text : String} (read : parse text = .ok url) :
    ∃ rest, splitScheme? (significant text) = some (url.scheme, rest) := by
  cases split : splitScheme? (significant text) with
  | none => simp [parse, split] at read
  | some parts =>
    obtain ⟨scheme, rest⟩ := parts
    simp only [parse, split] at read
    -- The scheme of the URL is the one split off, whatever its kind.
    obtain ⟨found, _, read⟩ := exists_ok_of_bind read
    rw [Except.ok.injEq] at read
    rw [← read]
    exact ⟨rest, rfl⟩

/-- What is behind the scheme of a URL of the web is assembled. -/
theorem exists_assemble_of_scheme {text : String} (read : parse text = .ok url)
    (named : url.scheme = "http".toList ∨ url.scheme = "https".toList) :
    ∃ rest port, splitScheme? (significant text) = some (url.scheme, rest) ∧
      kindOf url.scheme = .network port ∧
      (url.scheme = "http".toList ∧ port = 80 ∨ url.scheme = "https".toList ∧ port = 443) ∧
      assemble url.scheme port (splitMarks rest).1 (splitMarks rest).2.1 (splitMarks rest).2.2 =
        .ok url := by
  obtain ⟨rest, split⟩ := exists_splitScheme?_of_parse read
  obtain ⟨port, network, scheme⟩ := kindOf_web named
  -- The reader of a network scheme is `assemble`, and its answer is the one given.
  exact ⟨rest, port, split, network, scheme, (parse_eq split network).symm.trans read⟩

theorem scheme_of_isWeb (web : url.isWeb = true) :
    url.scheme = "http".toList ∨ url.scheme = "https".toList := by
  have whole := ((Bool.and_eq_true _ _).mp web).1
  simpa using whole

/-- What can be written is a URL of the web. -/
theorem IsRead.isWeb (good : url.IsRead port) : url.isWeb = true := by
  obtain ⟨⟨credentials, host, number⟩, named, known⟩ := good.authority
  have present := known.host.present
  have scheme : url.scheme = "http".toList ∨ url.scheme = "https".toList :=
    good.scheme.imp And.left And.left
  unfold Url.isWeb host?
  rw [named]
  cases host with
  -- A host that was read has a text, and the empty host has none.
  | empty => exact absurd rfl present
  | _ => simpa using scheme

/-- A scheme of the web makes a URL of the web. -/
theorem isWeb_of_scheme {text : String} (read : parse text = .ok url)
    (named : url.scheme = "http".toList ∨ url.scheme = "https".toList) : url.isWeb = true := by
  obtain ⟨rest, port, _, _, scheme, assembled⟩ := exists_assemble_of_scheme read named
  exact (isRead_of_assemble scheme assembled).isWeb

/-- Every URL of the web that is read can be written. -/
theorem isRead_of_parse {text : String} (read : parse text = .ok url) (web : url.isWeb = true) :
    ∃ port, url.IsRead port := by
  obtain ⟨rest, port, _, _, scheme, assembled⟩ :=
    exists_assemble_of_scheme read (scheme_of_isWeb web)
  exact ⟨port, isRead_of_assemble scheme assembled⟩

/-! The text of a URL. -/

/-- A text of graphic characters is significant from end to end. -/
theorem significant_of_graphic {text : List Char} (graphic : ∀ c ∈ text, isGraphic c = true) :
    significant (String.ofList text) = text := by
  have front : ∀ text : List Char, (∀ c ∈ text, isGraphic c = true) →
      text.dropWhile (fun c => decide (c.toNat ≤ 0x20)) = text := by
    intro text graphic
    cases text with
    | nil => rfl
    | cons c text =>
      -- The first character is no space, so that nothing is dropped before it.
      have bounds := isGraphic_iff.1 (graphic c List.mem_cons_self)
      exact List.dropWhile_cons_of_neg (by simp; omega)
  -- From behind it is the same text in reverse.
  have back : ∀ c ∈ text.reverse, isGraphic c = true :=
    fun c member => graphic c (List.mem_reverse.1 member)
  simp only [significant, dropWhileEnd, String.toList_ofList]
  rw [front text graphic, front _ back, List.reverse_reverse]

theorem withoutGaps_of_graphic {text : List Char} (graphic : ∀ c ∈ text, isGraphic c = true) :
    withoutGaps text = text := by
  refine List.filter_eq_self.2 fun c member => ?_
  have bounds := isGraphic_iff.1 (graphic c member)
  -- A tab or a line break is no graphic character.
  have gap : isGap c = false := by
    simp only [isGap, Bool.or_eq_false_iff, beq_eq_false_iff_ne, ne_eq]
    refine ⟨⟨?_, ?_⟩, ?_⟩ <;> rintro rfl <;> simp at bounds
  simp [gap]

/-- What is kept apart from the space is graphic. -/
theorem isGraphic_of_keepsBut {reserved : String} (space : ' ' ∈ reserved.toList) {c : Char}
    (kept : keepsBut reserved c = true) : isGraphic c = true := by
  obtain ⟨⟨low, high⟩, free⟩ := keepsBut_iff.1 kept
  -- Of the printable characters only the space is not graphic.
  have other : c.toNat ≠ ' '.toNat := fun same => free (Char.toNat_inj.1 same ▸ space)
  have code : ' '.toNat = 0x20 := rfl
  exact isGraphic_iff.2 ⟨by omega, high⟩

theorem isAuthorityChar_spec {c : Char} (plain : isAuthorityChar c = true) :
    isGraphic c = true ∧ isSeparator (.network port) c = false ∧ c ≠ '?' ∧ c ≠ '#' := by
  simp only [isAuthorityChar, Bool.and_eq_true, Bool.not_eq_true', List.contains_eq_mem,
    decide_eq_false_iff_not] at plain
  obtain ⟨graphic, free⟩ := plain
  -- Neither a separator nor a mark is let into an authority.
  have others : c ≠ '/' ∧ c ≠ '\\' ∧ c ≠ '?' ∧ c ≠ '#' := by
    refine ⟨?_, ?_, ?_, ?_⟩ <;> rintro rfl <;> exact free (by decide)
  exact ⟨graphic, by simp [isSeparator_network, endsPort, others], others.2.2⟩

theorem isSegmentChar_spec {kind : Kind} {c : Char} (plain : isSegmentChar kind c = true) :
    isGraphic c = true ∧ c ≠ '?' ∧ c ≠ '#' := by
  have kept := ((Bool.and_eq_true _ _).mp plain).1
  have free := (keepsBut_iff.1 kept).2
  refine ⟨isGraphic_of_keepsBut (by decide) kept, ?_, ?_⟩ <;> rintro rfl <;> exact free (by decide)

theorem isQueryChar_spec {c : Char} (plain : isQueryChar c = true) :
    isGraphic c = true ∧ c ≠ '#' := by
  have free := (keepsBut_iff.1 plain).2
  refine ⟨isGraphic_of_keepsBut (by decide) plain, ?_⟩
  rintro rfl
  exact free (by decide)

theorem isGraphic_of_isFragmentChar {c : Char} (plain : isFragmentChar c = true) :
    isGraphic c = true :=
  isGraphic_of_keepsBut (by decide) plain

/-- The text of segments is plain. -/
theorem plain_segments {kind : Kind} {segments : List (List Char)}
    (good : ∀ s ∈ segments, IsSegment kind s) :
    ∀ c ∈ (Path.rooted segments).text, isGraphic c = true ∧ c ≠ '?' ∧ c ≠ '#' := by
  intro c member
  -- The character is the slash before a segment or stands in the segment.
  obtain ⟨segment, present, member⟩ := List.mem_flatMap.1 member
  rcases List.mem_cons.1 member with rfl | inside
  · decide
  · exact isSegmentChar_spec ((good segment present).plain c inside)

/-- A web scheme is split off from the text behind its colon. -/
theorem splitScheme?_web {scheme rest : List Char}
    (web : scheme = "http".toList ∧ port = 80 ∨ scheme = "https".toList ∧ port = 443) :
    splitScheme? (scheme ++ ':' :: rest) = some (scheme, rest) := by
  unfold splitScheme?
  rcases web with ⟨rfl, _⟩ | ⟨rfl, _⟩
  · dsimp only
    -- The letters of the scheme are let through, and the colon stops the search.
    rw [span_of_stop (List.all_eq_true.1 (by decide)) (by decide)]
    rfl
  · dsimp only
    rw [span_of_stop (List.all_eq_true.1 (by decide)) (by decide)]
    rfl

/-- What is written falls apart at the marks it was put together at. -/
theorem splitMarks_written {body : List Char} {query fragment : Option (List Char)}
    (plain : ∀ c ∈ body, c ≠ '?' ∧ c ≠ '#')
    (asked : ∀ text ∈ query, ∀ c ∈ text, c ≠ '#') :
    splitMarks (body ++ query.elim [] ('?' :: ·) ++ fragment.elim [] ('#' :: ·)) =
      (body, query, fragment) := by
  -- The fragment is split off first, so that the query may hold no mark of one.
  have front : '#' ∉ body ++ query.elim [] ('?' :: ·) := by
    intro member
    rcases List.mem_append.1 member with inside | behind
    · exact (plain _ inside).2 rfl
    · cases query with
      | none => simp at behind
      | some text =>
        rw [Option.elim_some, List.mem_cons] at behind
        rcases behind with wrong | inside
        · revert wrong
          decide
        · exact asked text rfl _ inside rfl
  -- Only then the query is, so that a mark of one in the fragment does no harm.
  have unasked : '?' ∉ body := fun member => (plain _ member).1 rfl
  have byFragment : splitMark '#'
      (body ++ query.elim [] ('?' :: ·) ++ fragment.elim [] ('#' :: ·)) =
      (body ++ query.elim [] ('?' :: ·), fragment) := by
    cases fragment with
    | none => rw [Option.elim_none, List.append_nil, splitMark_of_not_mem front]
    | some text => rw [Option.elim_some, splitMark_of_first front]
  have byQuery : splitMark '?' (body ++ query.elim [] ('?' :: ·)) = (body, query) := by
    cases query with
    | none => rw [Option.elim_none, List.append_nil, splitMark_of_not_mem unasked]
    | some text => rw [Option.elim_some, splitMark_of_first unasked]
  rw [splitMarks, byFragment]
  dsimp only
  rw [byQuery]

/-- An authority and a path behind two slashes are taken apart again. -/
theorem behindSlashes_written {authority : List Char} {segments : List (List Char)}
    (someone : authority ≠ []) (plain : ∀ c ∈ authority, isAuthorityChar c = true)
    (good : ∀ s ∈ segments, IsSegment (.network port) s) :
    behindSlashes (.network port) ('/' :: '/' :: (authority ++ (Path.rooted segments).text)) =
      authority ++ (Path.rooted segments).text := by
  have graphic : ∀ c ∈ '/' :: '/' :: (authority ++ (Path.rooted segments).text),
      isGraphic c = true := by
    intro c member
    simp only [List.mem_cons, List.mem_append] at member
    rcases member with rfl | rfl | inside | behind
    · decide
    · decide
    · exact (@isAuthorityChar_spec port c (plain c inside)).1
    · exact (plain_segments good c behind).1
  rw [behindSlashes, withoutGaps_of_graphic graphic]
  cases authority with
  | nil => exact absurd rfl someone
  | cons c authority =>
    -- The two slashes are dropped, and no more, since the authority begins with none.
    have inside := (@isAuthorityChar_spec port c (plain c List.mem_cons_self)).2.1
    rw [List.dropWhile_cons_of_pos rfl, List.dropWhile_cons_of_pos rfl, List.cons_append,
      List.dropWhile_cons_of_neg (by simp [inside])]

/-- What stands behind the colon in the text of a URL. -/
def behindScheme (authority : Authority) (segments : List (List Char))
    (query fragment : Option (List Char)) : List Char :=
  '/' :: '/' :: (authority.text ++ (Path.rooted segments).text) ++ query.elim [] ('?' :: ·) ++
    fragment.elim [] ('#' :: ·)

theorem text_eq (scheme : List Char) (authority : Authority) (segments : List (List Char))
    (query fragment : Option (List Char)) :
    text ⟨scheme, some authority, .rooted segments, query, fragment⟩ =
      String.ofList (scheme ++ ':' :: behindScheme authority segments query fragment) := by
  simp only [Url.text, withoutFragment, resource, behindScheme, List.append_assoc,
    List.cons_append, List.nil_append]

/-- The authority and the path hold no mark. -/
theorem plain_body {authority : Authority} (known : authority.IsRead (.network port))
    {segments : List (List Char)} (good : ∀ s ∈ segments, IsSegment (.network port) s) :
    ∀ c ∈ '/' :: '/' :: (authority.text ++ (Path.rooted segments).text),
      isGraphic c = true ∧ c ≠ '?' ∧ c ≠ '#' := by
  intro c member
  simp only [List.mem_cons, List.mem_append] at member
  rcases member with rfl | rfl | inside | behind
  · decide
  · decide
  · have spec := @isAuthorityChar_spec port c (known.plain.2 c inside)
    exact ⟨spec.1, spec.2.2⟩
  · exact plain_segments good c behind

/-- The text of a URL of the web is graphic. -/
theorem IsRead.graphic (good : url.IsRead port) : ∀ c ∈ url.text.toList, isGraphic c = true := by
  obtain ⟨web, ⟨authority, named, known⟩, ⟨segments, rooted, _, path⟩, query, fragment⟩ := good
  obtain ⟨scheme, _, _, asked, place⟩ := url
  dsimp only at web named rooted query fragment
  subst named rooted
  rw [text_eq, String.toList_ofList]
  intro c member
  rw [List.mem_append, List.mem_cons, behindScheme, List.mem_append, List.mem_append] at member
  -- The part that the character is in decides why it is graphic.
  rcases member with inScheme | rfl | (inBody | inQuery) | inFragment
  · rcases web with ⟨rfl, _⟩ | ⟨rfl, _⟩
    · exact List.all_eq_true.1 (show "http".toList.all isGraphic = true by decide) c inScheme
    · exact List.all_eq_true.1 (show "https".toList.all isGraphic = true by decide) c inScheme
  · decide
  · exact (plain_body known path c inBody).1
  · cases asked with
    | none => simp at inQuery
    | some text =>
      rcases List.mem_cons.1 inQuery with rfl | inside
      · decide
      · exact (isQueryChar_spec (query text rfl c inside)).1
  · cases place with
    | none => simp at inFragment
    | some text =>
      rcases List.mem_cons.1 inFragment with rfl | inside
      · decide
      · exact isGraphic_of_isFragmentChar (fragment text rfl c inside)

theorem encodeQuery_of_plain {text : List Char} (plain : ∀ c ∈ text, isQueryChar c = true) :
    encodeQuery (.network port) (withoutGaps text) = text := by
  rw [withoutGaps_of_graphic fun c member => (isQueryChar_spec (plain c member)).1]
  exact Percent.encode_of_kept plain

theorem encodeFragment_of_plain {text : List Char} (plain : ∀ c ∈ text, isFragmentChar c = true) :
    encodeFragment (withoutGaps text) = text := by
  rw [withoutGaps_of_graphic fun c member => isGraphic_of_isFragmentChar (plain c member)]
  exact Percent.encode_of_kept plain

/-- The text of a URL of the web is read as that URL. -/
theorem IsRead.again (good : url.IsRead port) : parse url.text = .ok url := by
  have kind := good.kind
  have significant := significant_of_graphic good.graphic
  obtain ⟨web, ⟨authority, named, known⟩, ⟨segments, rooted, present, path⟩, query, fragment⟩ :=
    good
  obtain ⟨scheme, _, _, asked, place⟩ := url
  dsimp only at web named rooted query fragment kind
  subst named rooted
  rw [String.ofList_toList] at significant
  -- The scheme is split off first, and then what is behind it falls apart at the marks.
  have split := @splitScheme?_web port scheme (behindScheme authority segments asked place) web
  rw [← String.toList_ofList (l := scheme ++ _), ← text_eq, ← significant] at split
  rw [parse_eq split kind, behindScheme, splitMarks_written
    (fun c member => (plain_body known path c member).2)
    fun text same c member => (isQueryChar_spec (query text same c member)).2]
  dsimp only [assemble]
  -- The path begins with a slash, which ends the authority.
  obtain ⟨someone, plain⟩ := known.plain
  obtain ⟨behind, slash, _⟩ := splitAtEach_segments present path
  have inside : ∀ c ∈ authority.text, (!isSeparator (.network port) c) = true := fun c member => by
    simp [(@isAuthorityChar_spec port c (plain c member)).2.1]
  rw [behindSlashes_written someone plain path, Path.text, slash,
    List.takeWhile_append_of_pos inside, List.dropWhile_append_of_pos inside,
    List.takeWhile_cons_of_neg (by simp [isSeparator]), List.append_nil,
    List.dropWhile_cons_of_neg (by simp [isSeparator]), known.again, ← slash, ← Path.text,
    pathBehindHost_text (by simp) present path]
  -- What was escaped once is not escaped again.
  have asks : asked.map (fun text => encodeQuery (.network port) (withoutGaps text)) = asked :=
    (Option.map_congr fun text same => encodeQuery_of_plain (query text same)).trans Option.map_id'
  have places : place.map (fun text => encodeFragment (withoutGaps text)) = place :=
    (Option.map_congr fun text same => encodeFragment_of_plain (fragment text same)).trans
      Option.map_id'
  rw [asks, places]
  rfl

end Url

end MergeNotes
