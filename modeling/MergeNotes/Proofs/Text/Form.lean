import MergeNotes.Proofs.Text.Plain
import MergeNotes.Proofs.Text.Search
import MergeNotes.Proofs.Text.Split

/-! Forms read back: each name and value is decoded once, and is what was written. -/

namespace MergeNotes.Form

variable {text : List Char} {c : Char}

theorem ascii_of_isKept (known : isKept c = true) : c.toNat < 128 := by
  simp only [isKept, Bool.or_eq_true, beq_iff_eq] at known
  rcases known with (((letter | rfl) | rfl) | rfl) | rfl
  · exact Percent.ascii_of_isAlphanumeric letter
  all_goals decide

/-- Letters, digits and the like are written as they are. -/
theorem encodeText_of_kept (kept : ∀ c ∈ text, isKept c = true) : encodeText text = text := by
  induction text with
  | nil => rfl
  | cons c text ih =>
    obtain ⟨first, rest⟩ := List.forall_mem_cons.1 kept
    have visible : c ≠ ' ' := by
      rintro rfl
      revert first
      decide
    have same : encodeChar c = [c] := by
      rw [encodeChar, if_neg visible, Percent.encodeChar, if_pos first]
    rw [encodeText, List.flatMap_cons, same, List.singleton_append]
    exact congrArg (c :: ·) (ih rest)

/-- The characters that forms are written in: the letters and digits of ASCII and eight signs. -/
def isFormChar (c : Char) : Bool :=
  Percent.isAlphanumeric c || "*-._+%&=".toList.contains c

theorem ascii_of_isFormChar (known : isFormChar c = true) : c.toNat < 128 := by
  rw [isFormChar, Bool.or_eq_true, List.contains_iff_mem] at known
  rcases known with letter | sign
  · exact Percent.ascii_of_isAlphanumeric letter
  · have small : "*-._+%&=".toList.all (fun c => decide (c.toNat < 128)) = true := by decide
    exact of_decide_eq_true (List.all_eq_true.1 small c sign)

/-- A form is written in plus signs, in what stands for itself, and in escapes. -/
theorem mem_encodeText (member : c ∈ encodeText text) :
    c = '+' ∨ isKept c = true ∨ Percent.isEscape c = true := by
  obtain ⟨source, _, member⟩ := List.mem_flatMap.1 member
  unfold encodeChar at member
  split at member
  · exact .inl (List.mem_singleton.1 member)
  · exact .inr ((Percent.mem_encodeChar member).imp_left And.right)

/-- Of names and values, all that is left are letters, digits and some of the eight signs. -/
theorem isFormChar_of_mem_encodeText (member : c ∈ encodeText text) : isFormChar c = true := by
  rcases mem_encodeText member with rfl | kept | escape
  · decide
  · have ascii := ascii_of_isKept kept
    revert kept
    exact @forall_ascii (fun c => isKept c = true → isFormChar c = true) (by decide +kernel) c ascii
  · exact Percent.forall_escape (by decide) escape

/-- A form is written in its characters alone. -/
theorem isFormChar_of_mem_encode {pairs : List (String × String)} (member : c ∈ encode pairs) :
    isFormChar c = true := by
  -- Between the pairs stand ampersands, and within each an equals sign.
  rcases mem_intercalate member with mark | ⟨pair, present, inside⟩
  · rw [List.mem_singleton.1 mark]
    decide
  · obtain ⟨⟨name, value⟩, _, rfl⟩ := List.mem_map.1 present
    rcases List.mem_append.1 inside with first | second
    · exact isFormChar_of_mem_encodeText first
    · rcases List.mem_cons.1 second with rfl | second
      · decide
      · exact isFormChar_of_mem_encodeText second

/-- Neither an ampersand nor an equals sign is written in a name or a value. -/
theorem not_mem_encodeText (text : List Char) :
    '&' ∉ encodeText text ∧ '=' ∉ encodeText text := by
  constructor
  all_goals
    intro member
    have written := mem_encodeText member
    revert written
    decide

/-- Whether a character stands for itself once the plus signs are spaces again. -/
def isSpaced (c : Char) : Bool :=
  isKept c || c == ' '

theorem isSpaced_spec (known : isSpaced c = true) : c.toNat < 0x80 ∧ c ≠ '%' := by
  simp only [isSpaced, Bool.or_eq_true, beq_iff_eq] at known
  rcases known with kept | rfl
  · refine ⟨ascii_of_isKept kept, ?_⟩
    rintro rfl
    revert kept
    decide
  · decide

/-- Without plus signs there is nothing to be read as a space. -/
theorem map_of_no_plus (none : '+' ∉ text) :
    (text.map fun c => if c = '+' then ' ' else c) = text := by
  refine (List.map_congr_left fun c member => ?_).trans (List.map_id _)
  have other : c ≠ '+' := fun plus => none (plus ▸ member)
  rw [if_neg other, id]

/-- With its plus signs read as spaces, a text is written as if spaces stood for themselves. -/
theorem map_encodeChar (c : Char) :
    ((encodeChar c).map fun c => if c = '+' then ' ' else c) = Percent.encodeChar isSpaced c := by
  by_cases space : c = ' '
  · subst space
    rfl
  · have same : isSpaced c = isKept c := by
      rw [isSpaced, beq_eq_false_iff_ne.2 space, Bool.or_false]
    have whole : Percent.encodeChar isSpaced c = encodeChar c := by
      rw [encodeChar, if_neg space, Percent.encodeChar, Percent.encodeChar, same]
    -- A plus sign is neither kept nor part of an escape.
    have other : '+' ∉ encodeChar c := by
      rw [← whole]
      intro plus
      rcases Percent.mem_encodeChar plus with ⟨_, kept⟩ | escape
      · revert kept
        decide
      · revert escape
        decide
    rw [whole, map_of_no_plus other]

/-- What was written of a text is read as that text. -/
theorem decodeText_encodeText (text : List Char) :
    decodeText (encodeText text) = String.ofList text := by
  have spaced : ((encodeText text).map fun c => if c = '+' then ' ' else c) =
      Percent.encode isSpaced text := by
    rw [encodeText, Percent.encode, List.map_flatMap]
    simp only [map_encodeChar]
  -- The escapes are undone once, and the bytes that they stood for are read as UTF-8.
  have bytes := Percent.decode_encode (fun _ => isSpaced_spec) text []
  rw [List.append_nil, Percent.decode_nil, List.append_nil] at bytes
  rw [decodeText, spaced, bytes, Utf8.decodeLossy_encode]

/-- A component of a URL can be read as one of a form. -/
theorem decodeText_component (text : String) :
    decodeText (Percent.component text).toList = text := by
  have other : '+' ∉ (Percent.component text).toList :=
    Percent.not_mem_component (by decide) (by decide) text
  -- There is no plus sign in it that could be taken for a space.
  rw [decodeText, map_of_no_plus other, Percent.decode_component, Utf8.bytes,
    Utf8.decodeLossy_encode, String.ofList_toList]

/-- What a piece of a form says. -/
theorem decode_piece {name value : List Char} (before : '&' ∉ name) (equals : '=' ∉ name)
    (behind : '&' ∉ value) :
    decode (name ++ '=' :: value) = [(decodeText name, decodeText value)] := by
  have ampersand : '&' ∉ name ++ '=' :: value := by simp [before, behind]
  have single : splitAtEach (· == '&') (name ++ '=' :: value) = [name ++ '=' :: value] := by
    refine splitAtEach_of_none fun c member => beq_eq_false_iff_ne.2 ?_
    rintro rfl
    exact ampersand member
  have present : (name ++ '=' :: value).isEmpty = false := by simp
  simp only [decode, single, List.filter, present, Bool.not_false, List.map_cons, List.map_nil,
    splitOnce?_of_first equals]

/-- A name that is written as it is may have a component of a URL for its value. -/
theorem decode_component {name : String} (kept : name.toList.all isKept = true) (text : String) :
    decode (name.toList ++ '=' :: (Percent.component text).toList) = [(name, text)] := by
  -- Written as one of a form, the name would look the same.
  have written := encodeText_of_kept (List.all_eq_true.1 kept)
  obtain ⟨ampersand, equals⟩ := not_mem_encodeText name.toList
  rw [written] at ampersand equals
  have read : decodeText name.toList = name := by
    have same := decodeText_encodeText name.toList
    rwa [written, String.ofList_toList] at same
  have behind : '&' ∉ (Percent.component text).toList :=
    Percent.not_mem_component (by decide) (by decide) text
  rw [decode_piece ampersand equals behind, decodeText_component, read]

/-- What stands on the two sides of an ampersand is read by itself. -/
theorem decode_append (first second : List Char) :
    decode (first ++ '&' :: second) = decode first ++ decode second := by
  rw [decode, splitAtEach_append _ _ (by decide), List.filter_append, List.map_append]
  rfl

@[simp] theorem decode_nil : decode [] = [] :=
  rfl

theorem decode_encodePair (name value : String) :
    decode (encodePair name value) = [(name, value)] := by
  obtain ⟨ampersand, equals⟩ := not_mem_encodeText name.toList
  rw [encodePair, decode_piece ampersand equals (not_mem_encodeText value.toList).1,
    decodeText_encodeText, decodeText_encodeText, String.ofList_toList, String.ofList_toList]

/-- What was written of pairs is read as these pairs, in their order. -/
theorem decode_encode (pairs : List (String × String)) : decode (encode pairs) = pairs := by
  induction pairs with
  | nil => rfl
  | cons pair pairs ih =>
    obtain ⟨name, value⟩ := pair
    cases pairs with
    | nil =>
      have single : encode [(name, value)] = encodePair name value := List.intercalate_singleton
      rw [single, decode_encodePair]
    | cons next pairs =>
      -- The first pair stands before the first ampersand, the others behind it.
      have joined : encode ((name, value) :: next :: pairs) =
          encodePair name value ++ '&' :: encode (next :: pairs) := by
        rw [encode, List.map_cons, List.map_cons, List.intercalate_cons_cons]
        simp [encode]
      rw [joined, decode_append, decode_encodePair, ih, List.singleton_append]

end MergeNotes.Form
