import MergeNotes.Proofs.Url.Path

/-! Dot segments: a segment means a place exactly when it is one or two dots once its escapes are
read, so no name that is dots can be written as a segment of its own. -/

namespace MergeNotes.Url

variable {kind : Kind}

/-- The two ways to write out a dot. -/
theorem decode_dot (rest : List Char) (c : Char) (digit : c = 'e' ∨ c = 'E') :
    Percent.decode (Utf8.encode ('%' :: '2' :: c :: rest)) =
      0x2E :: Percent.decode (Utf8.encode rest) := by
  -- The two digits differ in their last bytes, which the reader takes for the same value.
  simp only [Utf8.encode_cons]
  rw [Percent.decode.eq_def]
  rcases digit with rfl | rfl <;> rfl

/-- A dot is read as one, written out or not. -/
theorem decode_of_dropDot? {segment rest : List Char} (dot : dropDot? segment = some rest) :
    Percent.decode (Utf8.encode segment) = 0x2E :: Percent.decode (Utf8.encode rest) := by
  unfold dropDot? at dot
  split at dot
  · rw [Option.some.injEq] at dot
    rw [dot, Utf8.encode_cons, Utf8.encodeChar_of_ascii (by decide), List.singleton_append,
      Percent.decode_cons (by decide)]
    rfl
  · rw [Option.some.injEq] at dot
    exact dot ▸ decode_dot _ 'e' (.inl rfl)
  · rw [Option.some.injEq] at dot
    exact dot ▸ decode_dot _ 'E' (.inr rfl)
  · simp at dot

/-- The digits of a dot that is written out. -/
theorem digits_of_dot {high low : UInt8} {h l : Nat} (first : Ascii.hexDigit? high = some h)
    (second : Ascii.hexDigit? low = some l) (dot : (h * 16 + l).toUInt8 = 0x2E) :
    high = 0x32 ∧ (low = 0x65 ∨ low = 0x45) := by
  have code : (h * 16 + l) % 256 = 46 := by
    have byte := congrArg UInt8.toNat dot
    rwa [Nat.toUInt8, UInt8.toNat_ofNat'] at byte
  simp only [← UInt8.toNat_inj]
  change high.toNat = 50 ∧ (low.toNat = 101 ∨ low.toNat = 69)
  unfold Ascii.hexDigit? at first second
  simp only [UInt8.le_iff_toNat_le] at first second
  simp only [UInt8.reduceToNat] at first second
  -- A digit is in one of three ranges, and only these two bytes make up the code.
  split at first <;> split at second <;> grind

/-- Only a dot is read as one. -/
theorem exists_dropDot?_of_decode {segment : List Char} {more : List UInt8}
    (read : Percent.decode (Utf8.encode segment) = 0x2E :: more) :
    ∃ rest, dropDot? segment = some rest ∧ Percent.decode (Utf8.encode rest) = more := by
  -- The reader goes by bytes, and each byte here is a character of its own.
  generalize bytes : Utf8.encode segment = data at read
  rw [Percent.decode.eq_def] at read
  split at read
  · simp at read
  · rename_i byte rest
    split at read
    · obtain ⟨rfl, rfl⟩ := List.cons.inj read
      -- The dot stands there as it is.
      obtain ⟨others, rfl, rfl⟩ := Utf8.exists_cons_of_encode bytes (by decide)
      exact ⟨others, rfl, rfl⟩
    · rename_i percent
      rw [ne_eq, Decidable.not_not] at percent
      subst percent
      split at read
      · rename_i high low rest₂
        split at read
        · rename_i h l high' low'
          obtain ⟨code, rfl⟩ := List.cons.inj read
          -- The dot is written out, with one of two digits at its end.
          obtain ⟨rfl, digit⟩ := digits_of_dot high' low' code
          -- The three bytes are three characters.
          obtain ⟨others₁, rfl, bytes₁⟩ := Utf8.exists_cons_of_encode bytes (by decide)
          obtain ⟨others₂, rfl, bytes₂⟩ := Utf8.exists_cons_of_encode bytes₁ (by decide)
          rcases digit with rfl | rfl
          · obtain ⟨others, rfl, rfl⟩ := Utf8.exists_cons_of_encode bytes₂ (by decide)
            exact ⟨others, rfl, rfl⟩
          · obtain ⟨others, rfl, rfl⟩ := Utf8.exists_cons_of_encode bytes₂ (by decide)
            exact ⟨others, rfl, rfl⟩
        · simp at read
      · simp at read
      · simp at read

/-- Only from nothing is nothing read. -/
theorem decode_eq_nil_iff {segment : List Char} :
    Percent.decode (Utf8.encode segment) = [] ↔ segment = [] := by
  rw [← Utf8.encode_eq_nil_iff]
  cases bytes : Utf8.encode segment with
  | nil => simp
  | cons byte rest =>
    rw [Percent.decode.eq_def]
    grind

/-- A segment means the place where it stands exactly when it is read as a dot. -/
theorem isSingleDot_iff {segment : List Char} :
    isSingleDot segment = true ↔ Percent.decode (Utf8.encode segment) = [0x2E] := by
  rw [isSingleDot, beq_iff_eq]
  constructor
  · intro dot
    -- One dot and nothing behind it is read as one dot and nothing behind it.
    rw [decode_of_dropDot? dot, Utf8.encode_nil, Percent.decode_nil]
  · intro read
    obtain ⟨rest, dot, nothing⟩ := exists_dropDot?_of_decode read
    rw [dot, decode_eq_nil_iff.1 nothing]

/-- A segment means the place one up exactly when it is read as two dots. -/
theorem isDoubleDot_iff {segment : List Char} :
    isDoubleDot segment = true ↔ Percent.decode (Utf8.encode segment) = [0x2E, 0x2E] := by
  rw [isDoubleDot, beq_iff_eq, Option.bind_eq_some_iff]
  constructor
  · rintro ⟨rest, first, second⟩
    rw [decode_of_dropDot? first, decode_of_dropDot? second, Utf8.encode_nil, Percent.decode_nil]
  · intro read
    obtain ⟨rest, first, behind⟩ := exists_dropDot?_of_decode read
    -- Each dot that is read is dropped, and what is left is read as nothing.
    obtain ⟨more, second, nothing⟩ := exists_dropDot?_of_decode behind
    exact ⟨rest, first, second.trans (congrArg some (decode_eq_nil_iff.1 nothing))⟩

/-- Whether a segment is dots depends on nothing but what is read of it. -/
theorem isDots_congr {segment other : List Char}
    (same : Percent.decode (Utf8.encode segment) = Percent.decode (Utf8.encode other)) :
    isSingleDot segment = isSingleDot other ∧ isDoubleDot segment = isDoubleDot other := by
  constructor
  · rw [Bool.eq_iff_iff, isSingleDot_iff, isSingleDot_iff, same]
  · rw [Bool.eq_iff_iff, isDoubleDot_iff, isDoubleDot_iff, same]

/-- The characters of a component can stand in a segment, where they mean nothing. -/
theorem isSegmentChar_of_mem_component {name : String} {c : Char}
    (member : c ∈ (Percent.component name).toList) : isSegmentChar kind c = true := by
  rw [Percent.component, String.toList_ofList] at member
  -- A name is written in unreserved characters and escapes.
  have plain : keepsBut " \"<>`#?\x7b\x7d" c = true ∧ c ≠ '/' ∧ c ≠ '\\' := by
    rcases Percent.mem_encode member with ⟨_, known⟩ | escape
    · have ascii := Percent.ascii_of_isUnreserved known
      revert known
      exact @forall_ascii (fun c => Percent.isUnreserved c = true →
        keepsBut " \"<>`#?\x7b\x7d" c = true ∧ c ≠ '/' ∧ c ≠ '\\') (by decide +kernel) c ascii
    · refine ⟨keepsBut_of_isEscape (by decide) escape, ?_, ?_⟩ <;> rintro rfl <;> revert escape <;>
        decide
  simp [isSegmentChar, isSeparator, plain]

/-- A name is a segment of its own unless it is dots. -/
theorem isSegment_component_iff {name : String} :
    IsSegment kind (Percent.component name).toList ↔ name ≠ "." ∧ name ≠ ".." := by
  have read := Percent.decode_component name
  constructor
  · rintro ⟨_, single, double⟩
    refine ⟨?_, ?_⟩ <;> rintro rfl
    · rw [isSingleDot_iff.2 read] at single
      simp at single
    · rw [isDoubleDot_iff.2 read] at double
      simp at double
  · rintro ⟨single, double⟩
    refine ⟨fun c => isSegmentChar_of_mem_component, ?_, ?_⟩
    · rw [Bool.eq_false_iff, ne_eq, isSingleDot_iff, read]
      intro dot
      -- What is read of the component is the name, so that a dot is all there is of it.
      obtain ⟨rest, text, nothing⟩ := Utf8.exists_cons_of_encode dot (by decide)
      rw [Utf8.encode_eq_nil_iff.1 nothing] at text
      exact single (String.toList_inj.1 text)
    · rw [Bool.eq_false_iff, ne_eq, isDoubleDot_iff, read]
      intro dots
      obtain ⟨more, text, dot⟩ := Utf8.exists_cons_of_encode dots (by decide)
      obtain ⟨rest, behind, nothing⟩ := Utf8.exists_cons_of_encode dot (by decide)
      rw [behind, Utf8.encode_eq_nil_iff.1 nothing] at text
      exact double (String.toList_inj.1 text)

end MergeNotes.Url
