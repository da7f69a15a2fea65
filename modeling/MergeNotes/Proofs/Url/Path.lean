import MergeNotes.Proofs.Text.Plain
import MergeNotes.Proofs.Text.Split
import MergeNotes.Url.Parse

/-! Paths that were read: no segment of them is dots, and their text is read again as the same
segments. -/

namespace MergeNotes.Url

variable {kind : Kind}

theorem keepsBut_iff {reserved : String} {c : Char} :
    keepsBut reserved c = true ↔ (0x20 ≤ c.toNat ∧ c.toNat < 0x7F) ∧ c ∉ reserved.toList := by
  simp [keepsBut]

/-- The characters of an escape are kept everywhere. -/
theorem keepsBut_of_isEscape {reserved : String}
    (other : reserved.toList.all (!Percent.isEscape ·) = true) {c : Char}
    (escape : Percent.isEscape c = true) : keepsBut reserved c = true := by
  have printable : 0x20 ≤ c.toNat ∧ c.toNat < 0x7F := by
    -- The characters of an escape are the percent sign, digits and letters.
    have graphic := isGraphic_iff.1 (Percent.forall_escape (by decide) escape)
    omega
  refine keepsBut_iff.2 ⟨printable, fun member => ?_⟩
  have free := List.all_eq_true.1 other c member
  simp [escape] at free

/-- The characters that a segment is written in. -/
def isSegmentChar (kind : Kind) (c : Char) : Bool :=
  keepsBut " \"<>`#?\x7b\x7d" c && !isSeparator kind c

/-- A segment as it comes of reading a path. -/
structure IsSegment (kind : Kind) (segment : List Char) : Prop where
  plain : ∀ c ∈ segment, isSegmentChar kind c = true
  single : isSingleDot segment = false
  double : isDoubleDot segment = false

/-- What a segment is written as. -/
def written (raw : List Char) : List Char :=
  encodeSegment (withoutGaps raw)

/-- Where a path is behind a segment with more to come; the segments are in reverse. -/
def advance (done : List (List Char)) (raw : List Char) : List (List Char) :=
  if isDoubleDot (written raw) then goUp done
  else if isSingleDot (written raw) then done
  else written raw :: done

/-- Where a path is behind its last segment. -/
def finish (done : List (List Char)) (raw : List Char) : List (List Char) :=
  if isDoubleDot (written raw) then [] :: goUp done
  else if isSingleDot (written raw) then [] :: done
  else written raw :: done

/-- But for files, a path is resolved segment by segment, and only the last one is special. -/
theorem done_resolve (notFile : kind ≠ .file) (last : List Char) (front : List (List Char)) :
    ∀ trail : Trail, (resolve kind trail (front ++ [last])).done =
      finish (front.foldl advance trail.done) last := by
  induction front with
  | nil =>
    intro trail
    -- The last segment is dots, one dot or neither, and so is each one before it.
    cases double : isDoubleDot (encodeSegment (withoutGaps last)) <;>
      cases single : isSingleDot (encodeSegment (withoutGaps last)) <;>
        simp [resolve, notFile, finish, written, double, single]
  | cons raw front ih =>
    intro trail
    cases double : isDoubleDot (encodeSegment (withoutGaps raw)) <;>
      cases single : isSingleDot (encodeSegment (withoutGaps raw)) <;>
        simp [resolve, notFile, advance, written, double, single, ih]

/-- The segments of a path, the last of which is in no way special when more is to come. -/
theorem pathOf_eq (notFile : kind ≠ .file) {text : List Char} {front : List (List Char)}
    {last : List Char} (pieces : splitAtEach (isSeparator kind) text = front ++ [last]) :
    pathOf kind text = (finish (front.foldl advance []) last).reverse := by
  rw [pathOf, trailOf, pieces, done_resolve notFile]

/-- Where a path is behind a text when more is to come. -/
def closed (kind : Kind) (text : List Char) : List (List Char) :=
  (splitAtEach (isSeparator kind) text).foldl advance []

/-- The segments that a path comes to when a text goes on behind a slash. -/
def continued (kind : Kind) (done : List (List Char)) (text : List Char) : List (List Char) :=
  (resolve kind ⟨done, false⟩ (splitAtEach (isSeparator kind) text)).done.reverse

theorem continued_eq (notFile : kind ≠ .file) (done : List (List Char)) {text : List Char}
    {front : List (List Char)} {last : List Char}
    (pieces : splitAtEach (isSeparator kind) text = front ++ [last]) :
    continued kind done text = (finish (front.foldl advance done) last).reverse := by
  rw [continued, pieces, done_resolve notFile]

/-! Every segment that is read is one. -/

theorem isSegment_nil : IsSegment kind [] where
  plain := by simp
  single := rfl
  double := rfl

/-- A separator is neither an escape nor any character that is written as one. -/
theorem isSeparator_of_isEscape {c : Char} (escape : Percent.isEscape c = true) :
    isSeparator kind c = false := by
  have other : (c != '/' && c != '\\') = true :=
    @Percent.forall_escape c (fun c => c != '/' && c != '\\') (by decide) escape
  rw [Bool.and_eq_true, bne_iff_ne, bne_iff_ne] at other
  simp [isSeparator, other.1, other.2]

theorem plain_written {raw : List Char} (inside : ∀ c ∈ raw, isSeparator kind c = false) :
    ∀ c ∈ written raw, isSegmentChar kind c = true := by
  intro c member
  have kept : keepsBut " \"<>`#?\x7b\x7d" c = true :=
    Percent.keep_of_mem_encode (fun c => keepsBut_of_isEscape (by decide)) member
  have apart : isSeparator kind c = false := by
    -- What is written stood there before, or it is part of an escape.
    rcases Percent.mem_encode member with ⟨old, _⟩ | escape
    · exact inside c (List.mem_filter.1 old).1
    · exact isSeparator_of_isEscape escape
  simp [isSegmentChar, kept, apart]

theorem mem_goUp {done : List (List Char)} {segment : List Char} (member : segment ∈ goUp done) :
    segment ∈ done := by
  cases done with
  | nil => simp [goUp] at member
  | cons head done =>
    rw [goUp] at member
    split at member
    · exact member
    · exact List.mem_cons_of_mem _ member

/-- What is written is a segment unless it is dots. -/
theorem isSegment_written {raw : List Char} (inside : ∀ c ∈ raw, isSeparator kind c = false)
    (double : ¬ isDoubleDot (written raw) = true) (single : ¬ isSingleDot (written raw) = true) :
    IsSegment kind (written raw) where
  plain := plain_written inside
  single := Bool.eq_false_iff.2 single
  double := Bool.eq_false_iff.2 double

/-- One more segment leaves only segments behind. -/
theorem isSegment_advance {done : List (List Char)} {raw : List Char}
    (inside : ∀ c ∈ raw, isSeparator kind c = false) (good : ∀ s ∈ done, IsSegment kind s) :
    ∀ s ∈ advance done raw, IsSegment kind s := by
  unfold advance
  split
  · -- Two dots take a segment away, if there is one.
    exact fun s member => good s (mem_goUp member)
  · rename_i double
    split
    · -- One dot stays where it is.
      exact good
    · rename_i single
      exact List.forall_mem_cons.2 ⟨isSegment_written inside double single, good⟩

theorem isSegment_foldl_advance {raws : List (List Char)} :
    ∀ {done : List (List Char)}, (∀ raw ∈ raws, ∀ c ∈ raw, isSeparator kind c = false) →
      (∀ s ∈ done, IsSegment kind s) → ∀ s ∈ raws.foldl advance done, IsSegment kind s := by
  induction raws with
  | nil => exact fun _ good => good
  | cons raw raws ih =>
    intro done inside good
    obtain ⟨first, rest⟩ := List.forall_mem_cons.1 inside
    -- The induction is on what is still to come, with any segments behind it.
    exact ih rest (isSegment_advance first good)

/-- So does the last segment, and it leaves at least one. -/
theorem isSegment_finish {done : List (List Char)} {raw : List Char}
    (inside : ∀ c ∈ raw, isSeparator kind c = false) (good : ∀ s ∈ done, IsSegment kind s) :
    finish done raw ≠ [] ∧ ∀ s ∈ finish done raw, IsSegment kind s := by
  unfold finish
  split
  · -- Dots at the end leave an empty segment, so that the path ends in a slash.
    refine ⟨by simp, List.forall_mem_cons.2 ⟨isSegment_nil, ?_⟩⟩
    exact fun s member => good s (mem_goUp member)
  · rename_i double
    split
    · exact ⟨by simp, List.forall_mem_cons.2 ⟨isSegment_nil, good⟩⟩
    · rename_i single
      exact ⟨by simp, List.forall_mem_cons.2 ⟨isSegment_written inside double single, good⟩⟩

theorem exists_concat_splitAtEach (test : Char → Bool) (text : List Char) :
    ∃ front last, splitAtEach test text = front ++ [last] :=
  (List.eq_nil_or_concat (splitAtEach test text)).elim
    (fun none_left => absurd none_left (splitAtEach_ne_nil test text))
    fun ⟨front, last, same⟩ => ⟨front, last, by rw [same, List.concat_eq_append]⟩

/-- The path of a URL, but for files: there is at least one segment, and all are segments. -/
theorem isSegment_pathOf (notFile : kind ≠ .file) (text : List Char) :
    pathOf kind text ≠ [] ∧ ∀ s ∈ pathOf kind text, IsSegment kind s := by
  obtain ⟨front, last, pieces⟩ := exists_concat_splitAtEach (isSeparator kind) text
  -- The pieces of the text have no separator in them, since it is split at each.
  have inside : ∀ raw ∈ front ++ [last], ∀ c ∈ raw, isSeparator kind c = false :=
    fun raw member c present => (mem_splitAtEach (pieces ▸ member) c present).2
  obtain ⟨ahead, final⟩ := List.forall_mem_append.1 inside
  obtain ⟨present, good⟩ := isSegment_finish (final last List.mem_cons_self)
    (isSegment_foldl_advance ahead fun s member => absurd member List.not_mem_nil)
  rw [pathOf_eq notFile pieces]
  exact ⟨by simpa using present, fun s member => good s (List.mem_reverse.1 member)⟩

/-- A path goes on behind a slash from where it was. -/
theorem pathOf_append (notFile : kind ≠ .file) (before : List Char) {c : Char}
    (separates : isSeparator kind c = true) (after : List Char) :
    pathOf kind (before ++ c :: after) = continued kind (closed kind before) after := by
  obtain ⟨front, last, pieces⟩ := exists_concat_splitAtEach (isSeparator kind) after
  -- The pieces before the slash are all followed by more, so that none of them is the last.
  have whole : splitAtEach (isSeparator kind) (before ++ c :: after) =
      (splitAtEach (isSeparator kind) before ++ front) ++ [last] := by
    rw [splitAtEach_append before after separates, pieces, List.append_assoc]
  rw [pathOf_eq notFile whole, continued_eq notFile _ pieces, List.foldl_append, closed]

/-! Written segments are read as they are. -/

theorem written_of_plain {segment : List Char}
    (plain : ∀ c ∈ segment, isSegmentChar kind c = true) : written segment = segment := by
  have kept : ∀ c ∈ segment, keepsBut " \"<>`#?\x7b\x7d" c = true := fun c member =>
    ((Bool.and_eq_true _ _).mp (plain c member)).1
  -- A tab or a line break is not printable, so that there is none to drop.
  have dense : withoutGaps segment = segment := by
    refine List.filter_eq_self.2 fun c member => ?_
    have printable := (keepsBut_iff.1 (kept c member)).1
    have gap : isGap c = false := by
      simp only [isGap, Bool.or_eq_false_iff, beq_eq_false_iff_ne, ne_eq]
      refine ⟨⟨?_, ?_⟩, ?_⟩ <;> rintro rfl <;> simp at printable
    simp [gap]
  rw [written, dense]
  exact Percent.encode_of_kept kept

theorem IsSegment.advance {segment : List Char} (good : IsSegment kind segment)
    (done : List (List Char)) : advance done segment = segment :: done := by
  rw [Url.advance, written_of_plain good.plain, good.double, good.single]
  rfl

theorem IsSegment.finish {segment : List Char} (good : IsSegment kind segment)
    (done : List (List Char)) : finish done segment = segment :: done := by
  rw [Url.finish, written_of_plain good.plain, good.double, good.single]
  rfl

theorem foldl_advance_segments {segments : List (List Char)}
    (good : ∀ s ∈ segments, IsSegment kind s) :
    ∀ done, segments.foldl advance done = segments.reverse ++ done := by
  induction segments with
  | nil => simp
  | cons segment segments ih =>
    intro done
    obtain ⟨first, rest⟩ := List.forall_mem_cons.1 good
    -- Each segment is put on top of those that are there.
    rw [List.foldl_cons, first.advance, ih rest, List.reverse_cons, List.append_assoc]
    rfl

/-- Segments with slashes before them fall apart into these segments. -/
theorem splitAtEach_segments {segments : List (List Char)} (present : segments ≠ [])
    (good : ∀ s ∈ segments, IsSegment kind s) :
    ∃ text, segments.flatMap ('/' :: ·) = '/' :: text ∧
      splitAtEach (isSeparator kind) text = segments := by
  induction segments with
  | nil => exact absurd rfl present
  | cons segment segments ih =>
    obtain ⟨first, rest⟩ := List.forall_mem_cons.1 good
    -- A segment is one piece, since it holds no separator.
    have inside : ∀ c ∈ segment, isSeparator kind c = false := fun c member => by
      simpa using ((Bool.and_eq_true _ _).mp (first.plain c member)).2
    cases segments with
    | nil => exact ⟨segment, by simp, splitAtEach_of_none inside⟩
    | cons next segments =>
      obtain ⟨text, same, pieces⟩ := ih (by simp) rest
      refine ⟨segment ++ '/' :: text, ?_, ?_⟩
      · rw [List.flatMap_cons, same, List.cons_append]
      · rw [splitAtEach_append segment text (by simp [isSeparator]), splitAtEach_of_none inside,
          pieces, List.singleton_append]

/-- Segments behind a path are put behind its own. -/
theorem continued_segments (notFile : kind ≠ .file) {segments : List (List Char)}
    (present : segments ≠ []) (good : ∀ s ∈ segments, IsSegment kind s) {text : List Char}
    (pieces : splitAtEach (isSeparator kind) text = segments) (done : List (List Char)) :
    continued kind done text = done.reverse ++ segments := by
  obtain ⟨front, last, rfl⟩ : ∃ front last, segments = front ++ [last] :=
    ⟨_, _, (List.dropLast_concat_getLast present).symm⟩
  obtain ⟨ahead, final⟩ := List.forall_mem_append.1 good
  -- None of the segments is dots, so that each is put on top of those before.
  rw [continued_eq notFile done pieces, foldl_advance_segments ahead,
    (final last List.mem_cons_self).finish, List.reverse_cons, List.reverse_append,
    List.reverse_reverse, List.append_assoc]

/-- The text of segments is read as these segments, but for files. -/
theorem pathBehindHost_text (notFile : kind ≠ .file) {segments : List (List Char)}
    (present : segments ≠ []) (good : ∀ s ∈ segments, IsSegment kind s) :
    pathBehindHost kind (Path.rooted segments).text = .rooted segments := by
  obtain ⟨text, same, pieces⟩ := splitAtEach_segments present good
  -- The slash before the first segment is the root's, those behind it are between segments.
  have separates : isSeparator kind '/' = true := by simp [isSeparator]
  rw [Path.text, same, pathBehindHost, if_pos separates]
  exact congrArg Path.rooted (continued_segments notFile present good pieces [])

/-- What is behind a host becomes at least one segment, but for files and schemes of one's own. -/
theorem isSegment_pathBehindHost {port : Nat} (text : List Char) :
    ∃ segments, pathBehindHost (.network port) text = .rooted segments ∧ segments ≠ [] ∧
      ∀ s ∈ segments, IsSegment (.network port) s := by
  cases text with
  | nil =>
    -- With nothing behind the host the path is the root, with one empty segment.
    refine ⟨[[]], rfl, by simp, ?_⟩
    simpa using isSegment_nil
  | cons c text =>
    obtain ⟨present, good⟩ := @isSegment_pathOf (.network port) (by simp)
      (if isSeparator (.network port) c then text else c :: text)
    exact ⟨_, rfl, present, good⟩

end MergeNotes.Url
