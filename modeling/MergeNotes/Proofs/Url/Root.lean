import MergeNotes.Proofs.Url.Dots
import MergeNotes.Proofs.Url.Extension

/-! The root of a URL, which is its path without the empty segments at the end: what the text of
the URL must end in for a path behind it to go on from the root. -/

namespace MergeNotes.Url

variable {port : Nat} {text : List Char} {base : Url} {authority : Except Error Authority}
  {done : List (List Char)}

/-- The segments of a path. -/
def segments (url : Url) : List (List Char) :=
  match url.path with
  | .plain _ => []
  | .rooted segments => segments

/-- The segments of a path but for the empty ones at the end. -/
def root (url : Url) : List (List Char) :=
  dropWhileEnd List.isEmpty url.segments

/-- Whether a slash behind a character begins a segment, and the character belongs to what is
before. -/
def isInner (c : Char) : Bool :=
  !isEdge c && !endsPort c

/-- The root of segments in reverse. -/
theorem dropWhileEnd_reverse (segments : List (List Char)) :
    dropWhileEnd List.isEmpty segments.reverse = (segments.dropWhile List.isEmpty).reverse := by
  rw [dropWhileEnd, List.reverse_reverse]

/-- No authority but that of the URL is read. -/
theorem Stem.named (stem : Stem port text base authority done) {read : Authority}
    (known : authority = .ok read) : base.authority = some read := by
  cases stem with
  | path _ _ _ _ named _ =>
    rw [Except.ok.injEq] at known
    exact known ▸ named
  | @host front name edges known' whole present inside closing edge named' named bare =>
    rcases List.eq_nil_or_concat edges with rfl | ⟨blanks, blank, rfl⟩
    · rw [List.append_nil, named', Except.ok.injEq] at known
      exact known ▸ named
    · -- A host is not read with a blank behind it.
      rw [List.concat_eq_append, ← List.append_assoc] at known
      have low := edge blank (by simp)
      exact absurd known (readAuthority_concat (by simpa [isEdge] using low) _ _)

/-- What is put behind the text of a URL changes nothing about whose resource it names. -/
theorem authority_of_append {text : String} {url : Url} {tail : List Char}
    (read : parse text = .ok base) (plain : ∀ c ∈ tail, isTailChar c = true)
    (longer : parse (String.ofList (text.toList ++ '/' :: tail)) = .ok url)
    (web : url.isWeb = true) : url.authority = base.authority := by
  have slash : ∀ c ∈ '/' :: tail, isTailChar c = true :=
    List.forall_mem_cons.2 ⟨by decide, plain⟩
  have scheme := scheme_of_append read slash longer
  have good : base.isWeb = true := isWeb_of_scheme read (scheme ▸ scheme_of_isWeb web)
  by_cases marked : base.query ≠ none ∨ base.fragment ≠ none
  · -- Behind a mark it gets into the query or the fragment.
    obtain ⟨blanks, again⟩ := parse_append_of_marked read good marked
    rw [again _ slash (by simp), Except.ok.injEq] at longer
    rw [← longer]
    exact (followed_spec base (blanks ++ '/' :: tail)).2.1
  · rw [not_or, not_ne_iff, not_ne_iff] at marked
    obtain ⟨port, authority, done, _, stem, goes⟩ := exists_stem read good marked.1 marked.2
    rw [goes tail plain] at longer
    cases authority with
    | error reason => simp [Except.map] at longer
    | ok place =>
      rw [Except.map, Except.ok.injEq] at longer
      rw [← longer]
      exact (stem.named rfl).symm

/-- Dropping empty segments leaves all of them exactly when nothing is dropped. -/
theorem eq_dropWhile_iff (segments : List (List Char)) :
    segments = segments.dropWhile List.isEmpty ↔
      segments.length ≤ (segments.dropWhile List.isEmpty).length := by
  -- What is left is the end of the segments, and all of them if it is as long.
  have suffix := List.dropWhile_suffix (l := segments) List.isEmpty
  exact ⟨fun same => Nat.le_of_eq (congrArg List.length same),
    fun long => (suffix.eq_of_length_le long).symm⟩

theorem written_append (raw more : List Char) :
    written (raw ++ more) = written raw ++ written more := by
  rw [written, withoutGaps, List.filter_append, encodeSegment, Percent.encode_append]
  rfl

/-- A blank at the end of a segment is written out, so the segment is no dots. -/
theorem written_concat {c : Char} (edge : isEdge c = true) (gap : isGap c = false)
    (raw : List Char) :
    written [c] ≠ [] ∧ isSingleDot (written (raw ++ [c])) = false ∧
      isDoubleDot (written (raw ++ [c])) = false := by
  have low : c.toNat ≤ 0x20 := by simpa [isEdge] using edge
  have escaped : written [c] = Percent.encodeByte c.toNat.toUInt8 := by
    -- Of all blanks only the space is printable, and it is reserved in a path.
    have dropped : keepsBut " \"<>`#?\x7b\x7d" c = false := by
      rw [Bool.eq_false_iff, ne_eq, keepsBut_iff]
      rintro ⟨⟨high, _⟩, free⟩
      have space : c = ' ' := Char.toNat_inj.1 (by change c.toNat = 32; omega)
      exact free (space ▸ by decide)
    rw [written, withoutGaps, List.filter_cons_of_pos (by simp [gap]), List.filter_nil,
      encodeSegment, Percent.encode_cons, Percent.encode_nil, List.append_nil, Percent.encodeChar,
      if_neg (by simp [dropped]), Utf8.encodeChar_of_ascii (by omega)]
    simp
  -- The last byte that is read of the segment is the blank.
  have read : Percent.decode (Utf8.encode (written (raw ++ [c]))) =
      Percent.decode (Utf8.encode (written raw)) ++ [c.toNat.toUInt8] := by
    have byte := Percent.decode_encodeByte c.toNat.toUInt8 []
    rw [List.append_nil, Percent.decode_nil] at byte
    rw [written_append, escaped, Utf8.encode_append, Percent.encodeByte, Utf8.encode_cons,
      Utf8.encodeChar_of_ascii (by decide), List.singleton_append]
    rw [Percent.encodeByte, Utf8.encode_cons, Utf8.encodeChar_of_ascii (by decide),
      List.singleton_append] at byte
    exact (Percent.decode_append _ _).trans (congrArg _ byte)
  -- A dot is no blank.
  have other : c.toNat.toUInt8 ≠ 0x2E := by
    intro same
    have code := congrArg UInt8.toNat same
    rw [Utf8.toNat_toUInt8 (by omega)] at code
    change c.toNat = 46 at code
    omega
  refine ⟨by simp [escaped, Percent.encodeByte], ?_, ?_⟩
  · rw [Bool.eq_false_iff, ne_eq, isSingleDot_iff, read]
    intro dot
    have last := congrArg List.getLast? dot
    simp [other] at last
  · rw [Bool.eq_false_iff, ne_eq, isDoubleDot_iff, read]
    intro dots
    have last := congrArg List.getLast? dots
    simp [other] at last

/-- A path goes on from its root exactly when its last segment is something, and does not lead
back to an empty one. -/
theorem advance_eq_iff (done : List (List Char)) (raw : List Char) :
    advance done raw = (finish done raw).dropWhile List.isEmpty ↔
      written raw ≠ [] ∧
        (finish done raw).length ≤ ((finish done raw).dropWhile List.isEmpty).length + 1 := by
  -- Where the segment is dots, an empty one comes behind those that are left, and is dropped.
  have dots : ∀ rest : List (List Char), written raw ≠ [] →
      (rest = ([] :: rest).dropWhile List.isEmpty ↔ written raw ≠ [] ∧
        ([] :: rest).length ≤ (([] :: rest).dropWhile List.isEmpty).length + 1) := by
    intro rest present
    rw [List.dropWhile_cons_of_pos rfl, eq_dropWhile_iff, List.length_cons]
    exact ⟨fun long => ⟨present, by omega⟩, fun ⟨_, long⟩ => by omega⟩
  unfold advance finish
  -- The segment is two dots, one dot, or itself.
  cases double : isDoubleDot (written raw) with
  | true =>
    simp only [if_true]
    refine dots (goUp done) fun empty => ?_
    rw [empty] at double
    revert double
    decide
  | false =>
    cases single : isSingleDot (written raw) with
    | true =>
      simp only [Bool.false_eq_true, if_false, if_true]
      refine dots done fun empty => ?_
      rw [empty] at single
      revert single
      decide
    | false =>
      simp only [Bool.false_eq_true, if_false]
      cases written raw with
      | nil =>
        -- An empty segment is no part of the root.
        have short := (List.dropWhile_suffix (l := done) List.isEmpty).length_le
        constructor
        · intro same
          have lengths := congrArg List.length same
          rw [List.dropWhile_cons_of_pos rfl, List.length_cons] at lengths
          omega
        · simp
      | cons c segment => simp

/-- A segment other than the last one is not where the root ends. -/
theorem cons_ne_dropWhile_finish {segment raw : List Char} (other : segment ≠ written raw)
    (done : List (List Char)) :
    segment :: done ≠ (finish done raw).dropWhile List.isEmpty := by
  -- What is left of fewer segments is too short to be more of them.
  have short : ∀ rest : List (List Char), rest.length ≤ done.length →
      segment :: done ≠ ([] :: rest).dropWhile List.isEmpty := by
    intro rest shorter same
    have lengths := congrArg List.length same
    have dropped := (List.dropWhile_suffix (l := rest) List.isEmpty).length_le
    rw [List.dropWhile_cons_of_pos rfl, List.length_cons] at lengths
    omega
  unfold finish
  split
  · refine short _ ?_
    cases done with
    | nil => exact Nat.le_refl _
    | cons head done =>
      rw [goUp]
      split
      · exact Nat.le_refl _
      · exact Nat.le_succ _
  · split
    · exact short _ (Nat.le_refl _)
    · intro same
      cases empty : written raw with
      | nil =>
        rw [empty] at same
        exact short _ (Nat.le_refl _) same
      | cons c rest =>
        rw [empty, List.dropWhile_cons_of_neg (by simp), List.cons.injEq] at same
        exact other (same.1.trans empty.symm)

/-- With a blank behind its last segment, a path does not go on from its root. -/
theorem advance_append_ne {blank : Char} (edge : isEdge blank = true) (gap : isGap blank = false)
    (done : List (List Char)) (raw blanks : List Char) :
    advance done (raw ++ (blanks ++ [blank])) ≠ (finish done raw).dropWhile List.isEmpty := by
  obtain ⟨present, single, double⟩ := written_concat edge gap (raw ++ blanks)
  rw [← List.append_assoc, advance, double, single, written_append, written_append]
  -- The last segment is longer by the blank, so that it is another one.
  refine cons_ne_dropWhile_finish (fun same => ?_) done
  rw [List.append_assoc, List.append_right_eq_self, List.append_eq_nil_iff] at same
  exact present same.2

theorem isInner_iff {c : Char} :
    isInner c = true ↔ isEdge c = false ∧ isSeparator (.network port) c = false := by
  simp [isInner, isSeparator_network]

/-- What is left of a text is no gap. -/
theorem not_gap_of_mem_withoutGaps {text : List Char} {c : Char} (member : c ∈ withoutGaps text) :
    isGap c = false := by
  simpa using (List.mem_filter.1 member).2

/-- The last segment is something exactly when the text does not end in a separator. -/
theorem written_ne_nil_iff {front lead last : List Char} {c : Char}
    (whole : text = front ++ c :: (lead ++ last))
    (separates : isSeparator (.network port) c = true)
    (slash : ∀ c ∈ lead.getLast?, isSeparator (.network port) c = true)
    (inside : ∀ c ∈ last, isSeparator (.network port) c = false)
    (closing : ∀ c ∈ (lead ++ last).getLast?, isEdge c = false)
    (dense : ∀ c ∈ last, isGap c = false) :
    written last ≠ [] ↔ ∀ c ∈ text.getLast?, isInner c = true := by
  have same : withoutGaps last = last :=
    List.filter_eq_self.2 fun c member => by simp [dense c member]
  rw [written, encodeSegment, same, ne_eq, Percent.encode_eq_nil_iff, whole]
  rcases List.eq_nil_or_concat last with rfl | ⟨before, final, rfl⟩
  · -- The last character is the separator before the empty segment.
    obtain ⟨before, final, same, stop⟩ : ∃ before final, c :: lead = before ++ [final] ∧
        isSeparator (.network port) final = true := by
      rcases List.eq_nil_or_concat lead with rfl | ⟨before, final, rfl⟩
      · exact ⟨[], c, rfl, separates⟩
      · exact ⟨c :: before, final, by rw [List.concat_eq_append, List.cons_append],
          slash final (by rw [List.concat_eq_append, List.getLast?_concat, Option.mem_def])⟩
    rw [List.append_nil, same, ← List.append_assoc, List.getLast?_concat]
    refine ⟨fun wrong => absurd rfl wrong, fun inner => ?_⟩
    have apart := ((@isInner_iff port final).1 (inner final rfl)).2
    rw [stop] at apart
    simp at apart
  · rw [List.concat_eq_append] at closing inside ⊢
    rw [← List.cons_append, ← List.append_assoc, ← List.append_assoc, List.getLast?_concat]
    rw [← List.append_assoc, List.getLast?_concat] at closing
    refine ⟨fun _ x last => ?_, fun _ => by simp⟩
    rw [Option.mem_def, Option.some.injEq] at last
    subst last
    exact isInner_iff.2 ⟨closing final rfl, inside final (by simp)⟩

/-- The path of a URL goes on from its root exactly when the text, gaps aside, ends neither in a
blank nor in a slash, and the path does not end in two empty segments. -/
theorem Stem.root_iff (stem : Stem port text base authority done) :
    ((∃ read, authority = .ok read) ∧ done.reverse = base.root) ↔
      (∀ c ∈ (withoutGaps text).getLast?, isInner c = true) ∧
        base.segments.length ≤ base.root.length + 1 := by
  cases stem with
  | @host front name edges known whole present inside closing edge read named bare =>
    -- Behind an authority alone the path is empty, and so is its root.
    have empty : base.segments = [[]] ∧ base.root = [] := by
      rw [root, segments, bare]
      exact ⟨rfl, rfl⟩
    rcases List.eq_nil_or_concat edges with rfl | ⟨blanks, blank, rfl⟩
    · refine ⟨fun _ => ⟨fun c last => ?_, ?_⟩, fun _ => ⟨⟨known, ?_⟩, ?_⟩⟩
      · obtain ⟨before, final, rfl⟩ : ∃ before final, name = before ++ [final] :=
          ⟨_, _, (List.dropLast_concat_getLast present).symm⟩
        rw [whole, List.append_nil, ← List.append_assoc, List.getLast?_concat, Option.mem_def,
          Option.some.injEq] at last
        subst last
        exact isInner_iff.2 ⟨closing final List.getLast?_concat, inside final (by simp)⟩
      · rw [empty.1, empty.2]
        decide
      · rw [List.append_nil, read]
      · rw [empty.2, List.reverse_nil]
    · have low := edge blank (by simp)
      constructor
      · rintro ⟨⟨other, again⟩, _⟩
        rw [List.concat_eq_append, ← List.append_assoc] at again
        exact absurd again (readAuthority_concat (by simpa [isEdge] using low) _ _)
      · rintro ⟨last, _⟩
        have inner := last blank (by rw [whole, List.concat_eq_append, ← List.append_assoc,
          List.getLast?_concat, Option.mem_def])
        rw [(@isInner_iff port blank).1 inner |>.1] at low
        simp at low
  | @path front path edges c known whole separates closing edge named led =>
    obtain ⟨raws, lead, last, rfl, slash, inside, pieces⟩ :=
      exists_last_piece (isSeparator (.network port)) path
    have apart : ∀ c ∈ edges, isSeparator (.network port) c = false := fun c member =>
      (isEdge_spec (edge c member)).1
    have shape : base.segments = (finish (raws.foldl advance []) last).reverse := by
      -- With nothing behind it the path is that of the URL.
      have alone := pieces [] (by simp)
      rw [List.append_nil, List.append_nil] at alone
      rw [segments, led, pathOf_eq (by simp) alone]
    rw [root, shape, dropWhileEnd_reverse, closed, pieces edges apart, List.foldl_append]
    simp only [List.length_reverse, List.reverse_inj]
    generalize raws.foldl advance [] = done
    change (_ ∧ advance done (last ++ edges) = _) ↔ _
    -- The last segment and the edges stand in the text without its gaps.
    have dense : ∀ x ∈ last ++ edges, isGap x = false := by
      intro x member
      refine @not_gap_of_mem_withoutGaps text x ?_
      rw [whole]
      simp only [List.mem_append, List.mem_cons] at member ⊢
      tauto
    rcases List.eq_nil_or_concat edges with rfl | ⟨blanks, blank, rfl⟩
    · rw [List.append_nil] at whole dense ⊢
      rw [advance_eq_iff, written_ne_nil_iff whole separates slash inside closing dense]
      exact ⟨And.right, fun both => ⟨⟨known, rfl⟩, both⟩⟩
    · have low := edge blank (by simp)
      rw [List.concat_eq_append] at dense whole ⊢
      constructor
      · rintro ⟨_, same⟩
        exact absurd same (advance_append_ne low (dense blank (by simp)) _ _ _)
      · rintro ⟨final, _⟩
        have inner := final blank (by rw [whole, ← List.append_assoc, List.getLast?_concat,
          Option.mem_def])
        rw [(@isInner_iff port blank).1 inner |>.1] at low
        simp at low

end MergeNotes.Url
