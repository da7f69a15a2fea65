import MergeNotes.Proofs.Json.FirstByte

/-! Reading goes forward: what is left behind a value is an end of what was there before it. -/

namespace MergeNotes.Json

variable {α κ ν : Type} {c after : Cursor}

namespace Cursor

theorem rest_of_next? {byte : UInt8} (next : c.next? = some (byte, after)) :
    c.rest = byte :: after.rest := by
  rw [next?] at next
  split at next
  · cases next
  · rename_i more rest same
    obtain ⟨rfl, rfl⟩ := Prod.mk.inj (Option.some.inj next)
    exact same

theorem suffix_of_next? {byte : UInt8} (next : c.next? = some (byte, after)) :
    after.rest <:+ c.rest := by
  rw [rest_of_next? next]
  exact List.suffix_cons _ _

theorem suffix_advance (c : Cursor) : c.advance.rest <:+ c.rest := by
  rw [advance]
  split
  · exact List.suffix_rfl
  · rename_i next
    exact suffix_of_next? next

theorem suffix_skipSpace (c : Cursor) : c.skipSpace.rest <:+ c.rest := by
  have general : ∀ bytes position, (skipSpace.go bytes position).rest <:+ bytes := by
    intro bytes
    induction bytes with
    | nil => exact fun _ => List.suffix_rfl
    | cons byte bytes ih =>
      intro position
      rw [skipSpace.go]
      split
      · exact (ih _).trans (List.suffix_cons _ _)
      · exact List.suffix_rfl
  exact general c.rest c.position

end Cursor

theorem suffix_readWord {word : List UInt8} (read : readWord word c = .ok after) :
    after.rest <:+ c.rest := by
  induction word generalizing c with
  | nil =>
    cases read
    exact List.suffix_rfl
  | cons expected word ih =>
    rw [readWord] at read
    split at read
    · cases read
    · rename_i byte next found
      split at read
      · exact (ih read).trans (Cursor.suffix_of_next? found)
      · cases read

theorem suffix_takeDigits_go (bytes : List UInt8) (position : Position) :
    (takeDigits.go bytes position).2.rest <:+ bytes := by
  induction bytes generalizing position with
  | nil => exact List.suffix_rfl
  | cons byte bytes ih =>
    rw [takeDigits.go]
    split
    · exact List.suffix_rfl
    · exact (ih _).trans (List.suffix_cons _ _)

theorem suffix_takeDigits (c : Cursor) : (takeDigits c).2.rest <:+ c.rest :=
  suffix_takeDigits_go c.rest c.position

theorem suffix_readExponentDigits (total : Nat) (bytes : List UInt8) (position : Position) :
    (readExponentDigits total bytes position).2.rest <:+ bytes := by
  induction bytes generalizing total position with
  | nil => exact List.suffix_rfl
  | cons byte bytes ih =>
    rw [readExponentDigits]
    split
    · exact List.suffix_rfl
    · split
      · exact (ih _ _).trans (List.suffix_cons _ _)
      · exact List.suffix_cons _ _

/-- A reader goes forward. -/
def Advances (read : Cursor → Except Error (α × Cursor)) : Prop :=
  ∀ ⦃c a after⦄, read c = .ok (a, after) → after.rest <:+ c.rest

theorem advances_readScaled (negative : Bool) (significand : Nat) (exponent : Int) :
    Advances (readScaled negative significand exponent) := by
  intro c number after read
  rw [readScaled] at read
  split at read
  · cases read
    exact List.suffix_rfl
  · cases read

/-- Whether the sign of an exponent is a minus, and the place behind it. -/
def exponentSign (c : Cursor) : Bool × Cursor :=
  match c.next? with
  | some (Ascii.plus, after) => (false, after)
  | some (Ascii.minus, after) => (true, after)
  | _ => (false, c)

theorem suffix_exponentSign (c : Cursor) : (exponentSign c).2.rest <:+ c.rest := by
  rw [exponentSign]
  split
  · rename_i next
    exact Cursor.suffix_of_next? next
  · rename_i next
    exact Cursor.suffix_of_next? next
  · exact List.suffix_rfl

/-- An exponent is read behind its sign. -/
theorem readExponent_eq (negative : Bool) (significand : Nat) (exponent : Int) (c : Cursor) :
    readExponent negative significand exponent c =
      match (exponentSign c).2.next? with
      | none => (exponentSign c).2.fail .endInValue
      | some (byte, after) =>
        match Ascii.digit? byte with
        | none => after.fail .invalidNumber
        | some first =>
          match readExponentDigits first after.rest after.position with
          | (.inl total, after) =>
            readScaled negative significand
              (if (exponentSign c).1 then exponent - total else exponent + total) after
          | (.inr (), after) =>
            if significand ≠ 0 ∧ !(exponentSign c).1 then after.fail .numberOutOfRange
            else .ok (.float ⟨negative, 0, 0⟩, (takeDigits after).2) :=
  rfl

theorem advances_readExponent (negative : Bool) (significand : Nat) (exponent : Int) :
    Advances (readExponent negative significand exponent) := by
  intro c number after read
  rw [readExponent_eq] at read
  split at read
  · cases read
  · rename_i byte behind next
    have first := (Cursor.suffix_of_next? next).trans (suffix_exponentSign c)
    split at read
    · cases read
    · rename_i digit _
      have digits := suffix_readExponentDigits digit behind.rest behind.position
      split at read
      · rename_i ended
        rw [ended] at digits
        exact (advances_readScaled _ _ _ read).trans (digits.trans first)
      · -- Beyond 32 bits the number is zero or out of range, and its digits are passed over.
        rename_i ended
        rw [ended] at digits
        split at read
        · cases read
        · cases read
          exact (suffix_takeDigits _).trans (digits.trans first)

theorem advances_readFraction (negative : Bool) (significand : Nat) (exponent : Int) :
    Advances (readFraction negative significand exponent) := by
  intro c number after read
  rw [readFraction] at read
  have digits := suffix_takeDigits c
  generalize takeDigits c = taken at read digits
  obtain ⟨places, behind⟩ := taken
  dsimp only at read digits
  split at read
  · -- A point must be followed by a digit.
    split at read <;> cases read
  · split at read
    · rename_i next
      exact (advances_readExponent _ _ _ read).trans ((Cursor.suffix_of_next? next).trans digits)
    · rename_i next
      exact (advances_readExponent _ _ _ read).trans ((Cursor.suffix_of_next? next).trans digits)
    · exact (advances_readScaled _ _ _ read).trans digits

/-- A number is at least one digit, and what may stand behind its digits. -/
theorem suffix_readNumber {negative : Bool} {number : Number}
    (read : readNumber negative c = .ok (number, after)) :
    (takeDigits c).1 ≠ [] ∧ after.rest <:+ (takeDigits c).2.rest := by
  rw [readNumber] at read
  split at read
  · -- Without a digit there is no number.
    split at read <;> cases read
  · cases read
  · rename_i digits behind some _ taken
    rw [taken]
    refine ⟨some, ?_⟩
    dsimp only at read
    -- Either a fraction, an exponent, or nothing of the number stands behind the digits.
    split at read
    · rename_i next
      exact (advances_readFraction _ _ _ read).trans (Cursor.suffix_of_next? next)
    · rename_i next
      exact (advances_readExponent _ _ _ read).trans (Cursor.suffix_of_next? next)
    · rename_i next
      exact (advances_readExponent _ _ _ read).trans (Cursor.suffix_of_next? next)
    · split at read
      · cases read
        exact List.suffix_rfl
      · exact advances_readScaled _ _ _ read

theorem advances_readNumber (negative : Bool) : Advances (readNumber negative) :=
  fun c _ _ read => (suffix_readNumber read).2.trans (suffix_takeDigits c)

/-- The first digit of a number is not left behind it. -/
theorem suffix_behind_readNumber {negative : Bool} {number : Number} {byte : UInt8}
    {behind : Cursor} (read : readNumber negative c = .ok (number, after))
    (next : c.next? = some (byte, behind)) : after.rest <:+ behind.rest := by
  obtain ⟨some, rest⟩ := suffix_readNumber read
  refine rest.trans ?_
  rw [takeDigits, Cursor.rest_of_next? next, takeDigits.go] at some ⊢
  split
  · rename_i none
    rw [none] at some
    exact absurd rfl some
  · exact suffix_takeDigits_go _ _

theorem suffix_readStringFrom {state : StringState} {found bytes data : List UInt8}
    {position : Position} (read : readStringFrom state found bytes position = .ok (data, after)) :
    after.rest <:+ bytes := by
  induction bytes generalizing state found position with
  | nil => cases read
  | cons byte bytes ih =>
    rw [readStringFrom] at read
    split at read
    · cases read
    · cases read
      exact List.suffix_cons _ _
    · exact (ih read).trans (List.suffix_cons _ _)

theorem advances_readString : Advances readString := by
  intro c text after read
  obtain ⟨⟨data, behind⟩, inner, last⟩ := exists_ok_of_bind read
  dsimp only at last
  split at last
  · cases last
    exact suffix_readStringFrom inner
  · cases last

theorem suffix_nextItem {isFirst goesOn : Bool} (next : nextItem isFirst c = .ok (goesOn, after)) :
    after.rest <:+ c.rest := by
  rw [nextItem] at next
  have spaces := c.suffix_skipSpace
  dsimp only at next
  split at next
  · cases next
  · rename_i byte behind found
    have first := (Cursor.suffix_of_next? found).trans spaces
    split at next
    · -- At the closing bracket nothing but space is passed.
      cases next
      exact spaces
    · split at next
      · cases next
        exact spaces
      · split at next
        · -- The comma is passed, and the space behind it.
          split at next
          · cases next
          · cases next
          · cases next
            exact behind.suffix_skipSpace.trans first
        · cases next

theorem suffix_nextMember {isFirst goesOn : Bool}
    (next : nextMember isFirst c = .ok (goesOn, after)) : after.rest <:+ c.rest := by
  rw [nextMember] at next
  have spaces := c.suffix_skipSpace
  dsimp only at next
  split at next
  · cases next
  · rename_i byte behind found
    have first := (Cursor.suffix_of_next? found).trans spaces
    split at next
    · -- At the closing brace nothing but space is passed.
      cases next
      exact spaces
    · split at next
      · split at next
        · cases next
          exact spaces
        · cases next
      · split at next
        · -- The comma is passed, and the space behind it.
          split at next
          · cases next
          · cases next
            exact behind.suffix_skipSpace.trans first
          · cases next
          · cases next
        · cases next

theorem suffix_readColon (read : readColon c = .ok after) : after.rest <:+ c.rest := by
  rw [readColon] at read
  split at read
  · cases read
  · rename_i next
    split at read
    · cases read
      exact (Cursor.suffix_of_next? next).trans c.suffix_skipSpace
    · cases read

theorem suffix_closeArray (read : closeArray c = .ok after) : after.rest <:+ c.rest := by
  rw [closeArray] at read
  dsimp only at read
  split at read
  · cases read
  · rename_i next
    split at read
    · cases read
      exact (Cursor.suffix_of_next? next).trans c.suffix_skipSpace
    · split at read
      · split at read <;> cases read
      · cases read

theorem suffix_closeObject (read : closeObject c = .ok after) : after.rest <:+ c.rest := by
  rw [closeObject] at read
  split at read
  · cases read
  · rename_i next
    split at read
    · cases read
      exact (Cursor.suffix_of_next? next).trans c.suffix_skipSpace
    · split at read <;> cases read

theorem Advances.within {read : Cursor → Except Error (α × Cursor)} (advances : Advances read)
    {segment : Segment} {a : α} (found : Json.within segment (read c) = .ok (a, after)) :
    after.rest <:+ c.rest :=
  advances (mapError_eq_ok_iff.1 found)

theorem advances_readItems {item : Cursor → Except Error (α × Cursor)} (advances : Advances item)
    (fuel index : Nat) : Advances (readItems item fuel index) := by
  induction fuel generalizing index with
  | zero =>
    intro c items after read
    cases read
  | succ fuel ih =>
    intro c items after read
    obtain ⟨⟨goesOn, place⟩, next, read⟩ := exists_ok_of_bind read
    have first := suffix_nextItem next
    cases goesOn with
    | false =>
      cases read
      exact first
    | true =>
      obtain ⟨⟨head, behind⟩, inner, read⟩ := exists_ok_of_bind read
      obtain ⟨⟨others, last⟩, later, read⟩ := exists_ok_of_bind read
      cases read
      -- Each step leaves an end of what the step before it left.
      have throughItem := (advances.within inner).trans first
      exact (ih _ later).trans throughItem

theorem advances_readArray {item : Cursor → Except Error (α × Cursor)} (advances : Advances item) :
    Advances (readArray item) := by
  intro c items after read
  obtain ⟨⟨found, behind⟩, inner, read⟩ := exists_ok_of_bind read
  obtain ⟨last, close, read⟩ := exists_ok_of_bind read
  cases read
  exact (suffix_closeArray close).trans (advances_readItems advances _ _ inner)

theorem advances_readMembers {key : Cursor → Except Error (κ × Cursor)} (keyText : κ → String)
    {value : Cursor → Except Error (ν × Cursor)} (advancesKey : Advances key)
    (advances : Advances value) (fuel : Nat) (isFirst : Bool) :
    Advances (readMembers key keyText value fuel isFirst) := by
  induction fuel generalizing isFirst with
  | zero =>
    intro c members after read
    cases read
  | succ fuel ih =>
    intro c members after read
    obtain ⟨⟨goesOn, place⟩, next, read⟩ := exists_ok_of_bind read
    have first := suffix_nextMember (mapError_eq_ok_iff.1 next)
    cases goesOn with
    | false =>
      cases read
      exact first
    | true =>
      obtain ⟨⟨name, behindKey⟩, readKey, read⟩ := exists_ok_of_bind read
      obtain ⟨behindColon, colon, read⟩ := exists_ok_of_bind read
      obtain ⟨⟨held, behind⟩, inner, read⟩ := exists_ok_of_bind read
      obtain ⟨⟨others, last⟩, later, read⟩ := exists_ok_of_bind read
      cases read
      have throughKey := (advancesKey readKey).trans first
      have throughColon := (suffix_readColon colon).trans throughKey
      have throughValue := (advances.within inner).trans throughColon
      exact (ih _ later).trans throughValue

theorem advances_readObject {key : Cursor → Except Error (κ × Cursor)} (keyText : κ → String)
    {value : Cursor → Except Error (ν × Cursor)} (advancesKey : Advances key)
    (advances : Advances value) : Advances (readObject key keyText value) := by
  intro c members after read
  obtain ⟨⟨found, behind⟩, inner, read⟩ := exists_ok_of_bind read
  obtain ⟨last, close, read⟩ := exists_ok_of_bind read
  cases read
  have members := advances_readMembers keyText advancesKey advances _ _ inner
  exact (suffix_closeObject close).trans members

theorem advances_readKey : Advances readKey := by
  intro c key after read
  exact (advances_readString (mapError_eq_ok_iff.1 read)).trans c.suffix_advance

/-- A value takes its first byte and goes forward from there. -/
theorem suffix_behind_readValue {depth : Nat} {value : Value}
    (read : readValue depth c = .ok (value, after)) :
    ∃ byte behind, c.skipSpace.next? = some (byte, behind) ∧ after.rest <:+ behind.rest := by
  induction depth using Nat.strongRecOn generalizing c value after with
  | ind depth ih =>
    -- What is nested in an array or object goes forward from its own first byte.
    have inner (smaller : Nat) (less : smaller < depth) : Advances (readValue smaller) := by
      intro c value after read
      obtain ⟨_, _, next, rest⟩ := ih smaller less read
      exact rest.trans ((Cursor.suffix_of_next? next).trans c.suffix_skipSpace)
    obtain ⟨byte, behind, next, reads⟩ := readValue_eq_ok_iff.1 read
    refine ⟨byte, behind, next, ?_⟩
    cases reads with
    | null word => exact suffix_readWord word
    | yes word => exact suffix_readWord word
    | no word => exact suffix_readWord word
    | negative found => exact advances_readNumber true found
    | natural _ found => exact suffix_behind_readNumber found next
    | string found => exact advances_readString found
    | array found => exact advances_readArray (inner _ (Nat.lt_succ_self _)) found
    | object found =>
      exact advances_readObject id advances_readKey (inner _ (Nat.lt_succ_self _)) found

theorem advances_readValue (depth : Nat) : Advances (readValue depth) := by
  intro c value after read
  obtain ⟨_, _, next, rest⟩ := suffix_behind_readValue read
  exact rest.trans ((Cursor.suffix_of_next? next).trans c.suffix_skipSpace)

/-- A value takes at least one byte. -/
theorem length_lt_of_readValue {depth : Nat} {value : Value}
    (read : readValue depth c = .ok (value, after)) : after.rest.length < c.rest.length := by
  obtain ⟨_, _, next, rest⟩ := suffix_behind_readValue read
  have spaces := c.suffix_skipSpace.length_le
  rw [Cursor.rest_of_next? next, List.length_cons] at spaces
  have shorter := rest.length_le
  omega

end MergeNotes.Json
