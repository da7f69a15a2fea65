import MergeNotes.Proofs.Json.Containers
import MergeNotes.Proofs.Json.SkippedTokens

/-! Passing over a value and reading it: what can be passed over is read up to the same place, or it
is refused for what a value cannot hold. -/

namespace MergeNotes.Json

variable {α : Type} {c after : Cursor}

/-! Between the parts of an array or object the reading looks ahead for the next part, and the
passing over does not. -/

namespace Cursor

theorem skipSpace_skipSpace (c : Cursor) : c.skipSpace.skipSpace = c.skipSpace := by
  have general : ∀ bytes position,
      (skipSpace.go bytes position).skipSpace = skipSpace.go bytes position := by
    intro bytes
    induction bytes with
    | nil => exact fun _ => rfl
    | cons byte bytes ih =>
      intro position
      rw [skipSpace.go]
      split
      · exact ih _
      · rename_i glyph
        exact skipSpace_cons (Bool.eq_false_iff.2 glyph) _ _
  exact general c.rest c.position

theorem peek?_of_next? {byte : UInt8} (next : c.next? = some (byte, after)) :
    c.peek? = some byte := by
  rw [peek?, rest_of_next? next, List.head?_cons]

end Cursor

theorem readValue_skipSpace (depth : Nat) (c : Cursor) :
    readValue depth c.skipSpace = readValue depth c := by
  rw [readValue.eq_def, readValue.eq_def]
  dsimp only
  rw [Cursor.skipSpace_skipSpace]

theorem nextItem_end {isFirst : Bool}
    (next : c.skipSpace.next? = some (Ascii.closeBracket, after)) :
    nextItem isFirst c = .ok (false, c.skipSpace) := by
  simp only [nextItem, next, if_true]

theorem closeArray_end (next : c.skipSpace.next? = some (Ascii.closeBracket, after)) :
    closeArray c.skipSpace = .ok after := by
  simp only [closeArray, Cursor.skipSpace_skipSpace, next, if_true]

theorem readArray_end {item : Cursor → Except Error (α × Cursor)}
    (next : c.skipSpace.next? = some (Ascii.closeBracket, after)) :
    readArray item c = .ok ([], after) := by
  rw [readArray, readItems, nextItem_end next]
  show (closeArray c.skipSpace >>= _) = _
  rw [closeArray_end next]
  rfl

theorem nextItem_comma {behind : Cursor} {byte : UInt8}
    (comma : c.skipSpace.next? = some (Ascii.comma, behind))
    (next : behind.skipSpace.next? = some (byte, after)) (other : byte ≠ Ascii.closeBracket) :
    nextItem false c = .ok (true, behind.skipSpace) := by
  have differ : Ascii.comma ≠ Ascii.closeBracket := by decide
  simp only [nextItem, comma, if_neg differ, if_true, Bool.false_eq_true, if_false,
    Cursor.peek?_of_next? next]
  split
  · rename_i absent
    cases absent
  · rename_i same
    exact absurd (Option.some.inj same) other
  · rfl

theorem nextMember_end {isFirst : Bool}
    (next : c.skipSpace.next? = some (Ascii.closeBrace, after)) :
    nextMember isFirst c = .ok (false, c.skipSpace) := by
  simp only [nextMember, next, if_true]

theorem closeObject_end (next : c.skipSpace.next? = some (Ascii.closeBrace, after)) :
    closeObject c.skipSpace = .ok after := by
  simp only [closeObject, Cursor.skipSpace_skipSpace, next, if_true]

theorem readObject_end {κ ν : Type} {key : Cursor → Except Error (κ × Cursor)}
    {keyText : κ → String} {value : Cursor → Except Error (ν × Cursor)}
    (next : c.skipSpace.next? = some (Ascii.closeBrace, after)) :
    readObject key keyText value c = .ok ([], after) := by
  rw [readObject, readMembers, nextMember_end next]
  show (closeObject c.skipSpace >>= _) = _
  rw [closeObject_end next]
  rfl

theorem nextMember_comma {behind : Cursor}
    (comma : c.skipSpace.next? = some (Ascii.comma, behind))
    (next : behind.skipSpace.next? = some (Ascii.quote, after)) :
    nextMember false c = .ok (true, behind.skipSpace) := by
  have differ : Ascii.comma ≠ Ascii.closeBrace := by decide
  simp only [nextMember, comma, if_neg differ, if_true, Bool.false_eq_true, if_false,
    Cursor.peek?_of_next? next]
  rfl

/-- What is passed over as a value does not begin with a closing bracket. -/
theorem next?_of_skipValueWithin {fuel : Nat} (skip : skipValueWithin fuel c = .ok after) :
    ∃ byte behind, c.skipSpace.next? = some (byte, behind) ∧ byte ≠ Ascii.closeBracket := by
  cases fuel with
  | zero => cases skip
  | succ fuel =>
    obtain ⟨byte, behind, next, skips⟩ := exists_skipsAs skip
    refine ⟨byte, behind, next, ?_⟩
    cases skips with
    | natural digit => exact ne_of_digit digit Ascii.closeBracket rfl
    | _ => decide

theorem next?_of_skipItems {fuel steps : Nat}
    (skip : skipItems (skipValueWithin fuel) steps c = .ok after) :
    ∃ byte behind, c.skipSpace.next? = some (byte, behind) ∧ byte ≠ Ascii.closeBracket := by
  cases steps with
  | zero => cases skip
  | succ steps =>
    obtain ⟨_, item, _⟩ := exists_ok_of_bind skip
    exact next?_of_skipValueWithin item

theorem next?_of_skipMembers {value : Cursor → Except Error Cursor} {steps : Nat}
    (skip : skipMembers value steps c = .ok after) :
    ∃ behind, c.skipSpace.next? = some (Ascii.quote, behind) := by
  cases steps with
  | zero => cases skip
  | succ steps =>
    simp only [skipMembers] at skip
    split at skip
    · cases skip
    · rename_i byte behind next
      split at skip
      · cases skip
      · rename_i quote
        exact ⟨behind, Decidable.not_not.1 quote ▸ next⟩

section Begins

variable {depth : Nat} {behind : Cursor}

/-! Whatever is yielded behind its first byte is yielded as a value. -/

theorem yields_negative {property : Number × Cursor → Prop}
    (next : c.skipSpace.next? = some (Ascii.minus, behind))
    (yields : Yields (readNumber true behind) property) :
    Yields (readValue depth c) fun found =>
      ∃ number, found.1 = .number number ∧ property (number, found.2) := by
  rw [readValue.eq_def]
  simp only [next]
  refine yields.bind fun found _ holds => ?_
  exact yields_ok ⟨found.1, rfl, holds⟩

theorem yields_natural {property : Number × Cursor → Prop} {byte : UInt8}
    (next : c.skipSpace.next? = some (byte, behind)) (digit : (Ascii.digit? byte).isSome = true)
    (yields : Yields (readNumber false c.skipSpace) property) :
    Yields (readValue depth c) fun found =>
      ∃ number, found.1 = .number number ∧ property (number, found.2) := by
  rw [readValue.eq_def]
  simp only [next, if_neg (ne_of_digit digit Ascii.lowerN rfl),
    if_neg (ne_of_digit digit Ascii.lowerT rfl), if_neg (ne_of_digit digit Ascii.lowerF rfl),
    if_neg (ne_of_digit digit Ascii.minus rfl), if_pos digit]
  refine yields.bind fun found _ holds => ?_
  exact yields_ok ⟨found.1, rfl, holds⟩

theorem yields_string {property : String × Cursor → Prop}
    (next : c.skipSpace.next? = some (Ascii.quote, behind))
    (yields : Yields (readString behind) property) :
    Yields (readValue depth c) fun found =>
      ∃ text, found.1 = .string text ∧ property (text, found.2) := by
  rw [readValue.eq_def]
  simp only [next]
  refine yields.bind fun found _ holds => ?_
  exact yields_ok ⟨found.1, rfl, holds⟩

/-- An array is read as one, unless it is nested too deep. -/
theorem yields_array {property : List Value × Cursor → Prop}
    (next : c.skipSpace.next? = some (Ascii.openBracket, behind))
    (yields : ∀ depth, Yields (readArray (readValue depth) behind) property) :
    Yields (readValue depth c) fun found =>
      ∃ items, found.1 = .array items ∧ property (items, found.2) := by
  rw [readValue.eq_def]
  simp only [next]
  cases depth with
  | zero => exact yields_fail rfl _
  | succ depth =>
    refine (yields depth).bind fun found _ holds => ?_
    exact yields_ok ⟨found.1, rfl, holds⟩

/-- An object is read as one, with its members in order, unless it is nested too deep. -/
theorem yields_object {property : List (String × Value) × Cursor → Prop}
    (next : c.skipSpace.next? = some (Ascii.openBrace, behind))
    (yields : ∀ depth, Yields (readObject readKey id (readValue depth) behind) property) :
    Yields (readValue depth c) fun found =>
      ∃ members, found.1 = .object (sortMembers members) ∧ property (members, found.2) := by
  rw [readValue.eq_def]
  simp only [next]
  cases depth with
  | zero => exact yields_fail rfl _
  | succ depth =>
    refine (yields depth).bind fun found _ holds => ?_
    exact yields_ok ⟨found.1, rfl, holds⟩

end Begins

section Nested

variable {depth fuel : Nat}
  (each : ∀ ⦃c after : Cursor⦄, c.InText → skipValueWithin fuel c = .ok after →
    Yields (readValue depth c) fun read => read.2 = after)

include each in
/-- Items that can be passed over end at the same bracket for their reading. -/
theorem yields_readItems_of_skip {steps index bound : Nat} {place : Cursor} (inText : c.InText)
    (skip : skipItems (skipValueWithin fuel) steps c = .ok after)
    (next : nextItem (index == 0) place = .ok (true, c.skipSpace))
    (enough : c.rest.length < bound) :
    Yields (readItems (readValue depth) bound index place) fun read =>
      closeArray read.2 = .ok after := by
  induction steps generalizing c place index bound with
  | zero => cases skip
  | succ steps ih =>
    obtain ⟨bound, rfl⟩ := Nat.exists_eq_succ_of_ne_zero (Nat.ne_zero_of_lt enough)
    obtain ⟨behind, item, skip⟩ := exists_ok_of_bind skip
    rw [readItems, next]
    show Yields (within (.item index) (readValue depth c.skipSpace) >>= _) _
    rw [readValue_skipSpace]
    -- The item ends at the same place for its reading, and there both look for what follows.
    refine ((each inText item).within (.item index)).bind ?_
    intro found read same
    obtain ⟨value, place⟩ := found
    cases same
    have read := mapError_eq_ok_iff.1 read
    have forward := advances_readValue depth read
    have shorter := length_lt_of_readValue read
    have spaces := place.suffix_skipSpace
    dsimp only at skip
    split at skip
    · cases skip
    · rename_i byte behind next
      have behind := (Cursor.suffix_of_next? next).trans spaces
      split at skip
      · -- Behind a comma there is another item.
        rename_i comma
        subst comma
        obtain ⟨byte, _, begins, other⟩ := next?_of_skipItems skip
        have length := spaces.length_le
        rw [Cursor.rest_of_next? next, List.length_cons] at length
        have goesOn : nextItem (index + 1 == 0) place = _ := nextItem_comma next begins other
        refine (ih (inText.forward (behind.trans forward)) skip goesOn (by omega)).bind ?_
        exact fun found _ close => yields_ok close
      split at skip
      · -- The bracket ends both.
        rename_i bracket
        subst bracket
        cases skip
        obtain ⟨bound, rfl⟩ := Nat.exists_eq_succ_of_ne_zero (n := bound) (by omega)
        show Yields (readItems (readValue depth) (bound + 1) (index + 1) place >>= _) _
        rw [readItems, nextItem_end next]
        exact yields_ok (closeArray_end next)
      · cases skip

include each in
/-- An array that can be passed over ends at the same place for its reading. -/
theorem yields_readArray_of_skip {steps : Nat} (inText : c.InText) {byte : UInt8} {behind : Cursor}
    (next : c.skipSpace.next? = some (byte, behind)) (other : byte ≠ Ascii.closeBracket)
    (skip : skipItems (skipValueWithin fuel) steps c.skipSpace = .ok after) :
    Yields (readArray (readValue depth) c) fun read => read.2 = after := by
  have first : nextItem (0 == 0) c = .ok (true, c.skipSpace.skipSpace) := by
    simp only [nextItem, next, if_neg other, Cursor.skipSpace_skipSpace]
    rfl
  have spaces := c.suffix_skipSpace
  have enough : c.skipSpace.rest.length < c.rest.length + 1 := Nat.lt_succ_of_le spaces.length_le
  refine (yields_readItems_of_skip each (inText.forward spaces) skip first enough).bind ?_
  intro read _ close
  show Yields (closeArray read.2 >>= _) _
  rw [close]
  exact yields_ok rfl

include each in
/-- Members that can be passed over end at the same brace for their reading. -/
theorem yields_readMembers_of_skip {steps bound : Nat} {isFirst : Bool} {place : Cursor}
    (inText : c.InText) (skip : skipMembers (skipValueWithin fuel) steps c = .ok after)
    (next : nextMember isFirst place = .ok (true, c.skipSpace)) (enough : c.rest.length < bound) :
    Yields (readMembers readKey id (readValue depth) bound isFirst place) fun read =>
      closeObject read.2 = .ok after := by
  induction steps generalizing c place isFirst bound with
  | zero => cases skip
  | succ steps ih =>
    obtain ⟨bound, rfl⟩ := Nat.exists_eq_succ_of_ne_zero (Nat.ne_zero_of_lt enough)
    obtain ⟨behind, quote⟩ := next?_of_skipMembers skip
    simp only [skipMembers, quote, ne_eq, not_true_eq_false, if_false] at skip
    obtain ⟨behindKey, key, skip⟩ := exists_ok_of_bind skip
    obtain ⟨behindColon, colon, skip⟩ := exists_ok_of_bind skip
    obtain ⟨place, value, skip⟩ := exists_ok_of_bind skip
    have inText := inText.forward c.suffix_skipSpace
    rw [readMembers, next]
    show Yields (readKey c.skipSpace >>= _) _
    refine (yields_readKey inText quote key).bind ?_
    intro found readName same
    obtain ⟨name, behindKey⟩ := found
    cases same
    have forward := (suffix_readColon colon).trans (advances_readKey readName)
    show Yields (readColon _ >>= _) _
    rw [colon]
    have inText := inText.forward forward
    -- The value ends at the same place for its reading, and there both look for what follows.
    refine ((each inText value).within (.member name)).bind ?_
    intro found readHeld same
    obtain ⟨held, place⟩ := found
    cases same
    have readHeld := mapError_eq_ok_iff.1 readHeld
    have shorter := length_lt_of_readValue readHeld
    have length := (forward.trans c.suffix_skipSpace).length_le
    have spaces := place.suffix_skipSpace
    dsimp only at skip
    split at skip
    · cases skip
    · rename_i byte behind next
      have behind := (Cursor.suffix_of_next? next).trans spaces
      split at skip
      · -- Behind a comma there is another member.
        rename_i comma
        subst comma
        obtain ⟨_, begins⟩ := next?_of_skipMembers skip
        have inText := inText.forward (behind.trans (advances_readValue depth readHeld))
        have spaces := spaces.length_le
        rw [Cursor.rest_of_next? next, List.length_cons] at spaces
        refine (ih inText skip (nextMember_comma next begins) (by omega)).bind ?_
        exact fun found _ close => yields_ok close
      split at skip
      · -- The brace ends both.
        rename_i brace
        subst brace
        cases skip
        obtain ⟨bound, rfl⟩ := Nat.exists_eq_succ_of_ne_zero (n := bound) (by omega)
        show Yields (readMembers readKey id (readValue depth) (bound + 1) false place >>= _) _
        rw [readMembers, nextMember_end next]
        exact yields_ok (closeObject_end next)
      · cases skip

include each in
/-- An object that can be passed over ends at the same place for its reading. -/
theorem yields_readObject_of_skip {steps : Nat} (inText : c.InText)
    (skip : skipMembers (skipValueWithin fuel) steps c.skipSpace = .ok after) :
    Yields (readObject readKey id (readValue depth) c) fun read => read.2 = after := by
  obtain ⟨behind, quote⟩ := next?_of_skipMembers skip
  rw [Cursor.skipSpace_skipSpace] at quote
  have first : nextMember true c = .ok (true, c.skipSpace.skipSpace) := by
    have differ : Ascii.quote ≠ Ascii.closeBrace := by decide
    simp only [nextMember, quote, if_neg differ, if_true, Cursor.skipSpace_skipSpace]
  have spaces := c.suffix_skipSpace
  have enough : c.skipSpace.rest.length < c.rest.length + 1 := Nat.lt_succ_of_le spaces.length_le
  refine (yields_readMembers_of_skip each (inText.forward spaces) skip first enough).bind ?_
  intro read _ close
  show Yields (closeObject read.2 >>= _) _
  rw [close]
  exact yields_ok rfl

end Nested

/-- A value that can be passed over ends at the same place for its reading, which is refused only
for what a value cannot hold. -/
theorem yields_readValue_of_skip {fuel : Nat} (depth : Nat) (inText : c.InText)
    (skip : skipValueWithin fuel c = .ok after) :
    Yields (readValue depth c) fun read => read.2 = after := by
  induction fuel generalizing depth c after with
  | zero => cases skip
  | succ fuel ih =>
    have inText := inText.forward c.suffix_skipSpace
    obtain ⟨byte, behind, next, skips⟩ := exists_skipsAs skip
    have inside := inText.forward (Cursor.suffix_of_next? next)
    -- A value ends where the part that it is made of ends.
    have last {β : Type} {make : β → Value} (yields : Yields (readValue depth c) fun found =>
        ∃ part, found.1 = make part ∧ found.2 = after) :
        Yields (readValue depth c) fun read => read.2 = after := by
      refine yields.mono ?_
      intro found _ made
      obtain ⟨_, _, same⟩ := made
      exact same
    cases skips with
    | null word =>
      rw [readValue_eq_ok_iff.2 ⟨_, _, next, .null word⟩]
      exact yields_ok rfl
    | yes word =>
      rw [readValue_eq_ok_iff.2 ⟨_, _, next, .yes word⟩]
      exact yields_ok rfl
    | no word =>
      rw [readValue_eq_ok_iff.2 ⟨_, _, next, .no word⟩]
      exact yields_ok rfl
    | negative skip => exact last (yields_negative next (yields_readNumber skip))
    | natural digit skip => exact last (yields_natural next digit (yields_readNumber skip))
    | string skip =>
      exact last (yields_string next (yields_readString inText next (by decide) skip))
    | emptyArray close =>
      have inner (depth : Nat) : Yields (readArray (readValue depth) behind) (·.2 = after) := by
        rw [readArray_end close]
        exact yields_ok rfl
      exact last (yields_array next inner)
    | array first other skip =>
      exact last (yields_array next fun depth =>
        yields_readArray_of_skip (fun _ _ => ih depth) inside first other skip)
    | emptyObject close =>
      have inner (depth : Nat) :
          Yields (readObject readKey id (readValue depth) behind) (·.2 = after) := by
        rw [readObject_end close]
        exact yields_ok rfl
      exact last (yields_object next inner)
    | object skip =>
      exact last (yields_object next fun depth =>
        yields_readObject_of_skip (fun _ _ => ih depth) inside skip)

end MergeNotes.Json
