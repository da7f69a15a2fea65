import MergeNotes.Json.Read
import MergeNotes.Proofs.Result

/-! By its first byte it is known what a value may be, where it is read and where it is passed
over. -/

namespace MergeNotes.Json

/-- What a value may be by its first byte, and where it ends. -/
inductive ReadsAs (place behind : Cursor) : Nat → UInt8 → Value → Cursor → Prop
  | null {depth : Nat} {after : Cursor} (word : readNull behind = .ok after) :
      ReadsAs place behind depth Ascii.lowerN .null after
  | yes {depth : Nat} {after : Cursor} (word : readTrue behind = .ok after) :
      ReadsAs place behind depth Ascii.lowerT (.boolean true) after
  | no {depth : Nat} {after : Cursor} (word : readFalse behind = .ok after) :
      ReadsAs place behind depth Ascii.lowerF (.boolean false) after
  | negative {depth : Nat} {number : Number} {after : Cursor}
      (read : readNumber true behind = .ok (number, after)) :
      ReadsAs place behind depth Ascii.minus (.number number) after
  | natural {depth : Nat} {byte : UInt8} {number : Number} {after : Cursor}
      (digit : (Ascii.digit? byte).isSome = true)
      (read : readNumber false place = .ok (number, after)) :
      ReadsAs place behind depth byte (.number number) after
  | string {depth : Nat} {text : String} {after : Cursor}
      (read : readString behind = .ok (text, after)) :
      ReadsAs place behind depth Ascii.quote (.string text) after
  | array {depth : Nat} {items : List Value} {after : Cursor}
      (read : readArray (readValue depth) behind = .ok (items, after)) :
      ReadsAs place behind (depth + 1) Ascii.openBracket (.array items) after
  | object {depth : Nat} {members : List (String × Value)} {after : Cursor}
      (read : readObject readKey id (readValue depth) behind = .ok (members, after)) :
      ReadsAs place behind (depth + 1) Ascii.openBrace (.object (sortMembers members)) after

/-- How a value may be passed over by its first byte, and where it ends. -/
inductive SkipsAs (fuel : Nat) (place behind : Cursor) : UInt8 → Cursor → Prop
  | null {after : Cursor} (word : readNull behind = .ok after) :
      SkipsAs fuel place behind Ascii.lowerN after
  | yes {after : Cursor} (word : readTrue behind = .ok after) :
      SkipsAs fuel place behind Ascii.lowerT after
  | no {after : Cursor} (word : readFalse behind = .ok after) :
      SkipsAs fuel place behind Ascii.lowerF after
  | negative {after : Cursor} (skip : skipNumber behind = .ok after) :
      SkipsAs fuel place behind Ascii.minus after
  | natural {byte : UInt8} {after : Cursor} (digit : (Ascii.digit? byte).isSome = true)
      (skip : skipNumber place = .ok after) : SkipsAs fuel place behind byte after
  | string {after : Cursor} (skip : skipString behind = .ok after) :
      SkipsAs fuel place behind Ascii.quote after
  | emptyArray {after : Cursor}
      (close : behind.skipSpace.next? = some (Ascii.closeBracket, after)) :
      SkipsAs fuel place behind Ascii.openBracket after
  | array {first : UInt8} {more after : Cursor} (next : behind.skipSpace.next? = some (first, more))
      (other : first ≠ Ascii.closeBracket) {steps : Nat}
      (skip : skipItems (skipValueWithin fuel) steps behind.skipSpace = .ok after) :
      SkipsAs fuel place behind Ascii.openBracket after
  | emptyObject {after : Cursor}
      (close : behind.skipSpace.next? = some (Ascii.closeBrace, after)) :
      SkipsAs fuel place behind Ascii.openBrace after
  | object {after : Cursor} {steps : Nat}
      (skip : skipMembers (skipValueWithin fuel) steps behind.skipSpace = .ok after) :
      SkipsAs fuel place behind Ascii.openBrace after

variable {c after : Cursor} {depth fuel : Nat} {value : Value}

/-- The byte of a digit is that of no other token. -/
theorem ne_of_digit {byte : UInt8} (digit : (Ascii.digit? byte).isSome = true) (other : UInt8)
    (none : Ascii.digit? other = none) : byte ≠ other := by
  intro same
  rw [same, none] at digit
  cases digit

/-- A value is read by its first byte. -/
theorem readValue_eq_ok_iff : readValue depth c = .ok (value, after) ↔
    ∃ byte behind, c.skipSpace.next? = some (byte, behind) ∧
      ReadsAs c.skipSpace behind depth byte value after := by
  rw [readValue.eq_def]
  dsimp only
  constructor
  · intro read
    split at read
    · cases read
    · -- The kinds of values are told apart by the byte, one after the other.
      rename_i byte behind next
      refine ⟨byte, behind, next, ?_⟩
      split at read
      · rename_i letter
        obtain ⟨_, word, read⟩ := exists_ok_of_bind read
        cases read
        exact letter ▸ .null word
      split at read
      · rename_i letter
        obtain ⟨_, word, read⟩ := exists_ok_of_bind read
        cases read
        exact letter ▸ .yes word
      split at read
      · rename_i letter
        obtain ⟨_, word, read⟩ := exists_ok_of_bind read
        cases read
        exact letter ▸ .no word
      split at read
      · rename_i minus
        obtain ⟨⟨number, _⟩, found, read⟩ := exists_ok_of_bind read
        cases read
        exact minus ▸ .negative found
      split at read
      · rename_i digit
        obtain ⟨⟨number, _⟩, found, read⟩ := exists_ok_of_bind read
        cases read
        exact .natural digit found
      split at read
      · rename_i quote
        obtain ⟨⟨text, _⟩, found, read⟩ := exists_ok_of_bind read
        cases read
        exact quote ▸ .string found
      split at read
      · rename_i bracket
        split at read
        · cases read
        · obtain ⟨⟨items, _⟩, found, read⟩ := exists_ok_of_bind read
          cases read
          exact bracket ▸ .array found
      split at read
      · rename_i brace
        split at read
        · cases read
        · obtain ⟨⟨members, _⟩, found, read⟩ := exists_ok_of_bind read
          cases read
          exact brace ▸ .object found
      · cases read
  · -- No kind that is looked for earlier has the same byte.
    intro reads
    obtain ⟨byte, behind, next, reads⟩ := reads
    cases reads with
    | null word =>
      simp only [next, word]
      rfl
    | yes word =>
      simp only [next, word]
      rfl
    | no word =>
      simp only [next, word]
      rfl
    | negative read =>
      simp only [next, read]
      rfl
    | natural digit read =>
      simp only [next, if_neg (ne_of_digit digit Ascii.lowerN rfl),
        if_neg (ne_of_digit digit Ascii.lowerT rfl), if_neg (ne_of_digit digit Ascii.lowerF rfl),
        if_neg (ne_of_digit digit Ascii.minus rfl), if_pos digit, read]
      rfl
    | string read =>
      simp only [next, read]
      rfl
    | array read =>
      simp only [next, read]
      rfl
    | object read =>
      simp only [next, read]
      rfl

/-- A value is passed over by its first byte. -/
theorem exists_skipsAs (skip : skipValueWithin (fuel + 1) c = .ok after) :
    ∃ byte behind, c.skipSpace.next? = some (byte, behind) ∧
      SkipsAs fuel c.skipSpace behind byte after := by
  rw [skipValueWithin] at skip
  dsimp only at skip
  split at skip
  · cases skip
  · -- The kinds of values are told apart as they are for their reading.
    rename_i byte behind next
    refine ⟨byte, behind, next, ?_⟩
    split at skip
    · rename_i letter
      exact letter ▸ .null skip
    split at skip
    · rename_i letter
      exact letter ▸ .yes skip
    split at skip
    · rename_i letter
      exact letter ▸ .no skip
    split at skip
    · rename_i minus
      exact minus ▸ .negative skip
    split at skip
    · rename_i digit
      exact .natural digit skip
    split at skip
    · rename_i quote
      exact quote ▸ .string skip
    split at skip
    · rename_i bracket
      -- Either the array is closed at once, or there is an item.
      split at skip
      · cases skip
      · rename_i close
        cases skip
        exact bracket ▸ .emptyArray close
      · rename_i found nonempty first
        obtain ⟨head, more⟩ := found
        have other : head ≠ Ascii.closeBracket := by
          intro same
          subst same
          exact nonempty more rfl
        exact bracket ▸ .array first other skip
    split at skip
    · rename_i brace
      -- Either the object is closed at once, or there is a member.
      split at skip
      · cases skip
      · rename_i close
        cases skip
        exact brace ▸ .emptyObject close
      · exact brace ▸ .object skip
    · cases skip

end MergeNotes.Json
