import MergeNotes.Proofs.Json.Agreement

/-! Keys that are numbers: a number that was read as a natural stands there as it is written, so
that as a string it is its own text. -/

namespace MergeNotes.Json

variable {c after behind : Cursor} {number : Number}

/-- Digits appended to a number that is not zero are appended to its text. -/
theorem toDigits_foldl {total : Nat} (positive : 0 < total) {digits : List Nat}
    (bounded : ∀ digit ∈ digits, digit < 10) :
    Nat.toDigits 10 (digits.foldl (fun total digit => total * 10 + digit) total) =
      Nat.toDigits 10 total ++ digits.map Nat.digitChar := by
  induction digits generalizing total with
  | nil => rw [List.foldl_nil, List.map_nil, List.append_nil]
  | cons digit digits ih =>
    obtain ⟨small, bounded⟩ := List.forall_mem_cons.1 bounded
    have step : Nat.toDigits 10 (total * 10 + digit) =
        Nat.toDigits 10 total ++ [Nat.digitChar digit] := by
      rw [Nat.mul_comm, ← Nat.toDigits_append_toDigits (by omega) positive small,
        Nat.toDigits_of_lt_base small]
    rw [List.foldl_cons, ih (by omega) bounded, step, List.append_assoc, List.map_cons,
      List.singleton_append]

/-- Without leading zeros, digits are the text of the number that they make up. -/
theorem decimalDigits_ofDigits {digits : List Nat} (bounded : ∀ digit ∈ digits, digit < 10)
    (some : digits ≠ []) (leading : ∀ next others, digits ≠ 0 :: next :: others) :
    decimalDigits (ofDigits digits) = digits.map Nat.digitChar := by
  rw [Url.decimalDigits_eq]
  cases digits with
  | nil => exact absurd rfl some
  | cons first others =>
    obtain ⟨small, bounded⟩ := List.forall_mem_cons.1 bounded
    rw [ofDigits, List.foldl_cons, Nat.zero_mul, Nat.zero_add]
    rcases Nat.eq_zero_or_pos first with rfl | positive
    · -- A leading zero is the only digit.
      cases others with
      | nil => rfl
      | cons next others => exact absurd rfl (leading next others)
    · rw [toDigits_foldl positive bounded, Nat.toDigits_of_lt_base small]
      rfl

theorem encode_digitChar {digits : List Nat} (bounded : ∀ digit ∈ digits, digit < 10) :
    Utf8.encode (digits.map Nat.digitChar) = digits.map digitByte := by
  have single : ∀ digit < 10, Utf8.encodeChar (Nat.digitChar digit) = [digitByte digit] := by decide
  induction digits with
  | nil => rfl
  | cons digit digits ih =>
    obtain ⟨small, bounded⟩ := List.forall_mem_cons.1 bounded
    rw [List.map_cons, Utf8.encode_cons, single digit small, ih bounded]
    rfl

theorem digitByte_of_digit? {byte : UInt8} {digit : Nat} (known : Ascii.digit? byte = some digit) :
    digit < 10 ∧ digitByte digit = byte := by
  rw [Ascii.digit?, Option.ite_none_right_eq_some, Option.some.injEq] at known
  obtain ⟨⟨above, below⟩, rfl⟩ := known
  simp only [UInt8.le_iff_toNat_le, UInt8.reduceToNat] at above below
  refine ⟨by omega, ?_⟩
  rw [digitByte, Nat.add_sub_cancel' above, Nat.toUInt8_eq, UInt8.ofNat_toNat]

/-- The digits that are taken stand there as bytes. -/
theorem takeDigits_spec {digits : List Nat} (taken : takeDigits c = (digits, after)) :
    (∀ digit ∈ digits, digit < 10) ∧ c.rest = digits.map digitByte ++ after.rest ∧
      after.position = c.position.past (digits.map digitByte) := by
  obtain ⟨bytes, position⟩ := c
  rw [takeDigits] at taken
  induction bytes generalizing position digits with
  | nil =>
    cases taken
    exact ⟨List.forall_mem_nil _, rfl, rfl⟩
  | cons byte bytes ih =>
    rw [takeDigits.go] at taken
    split at taken
    · -- At the first byte that is no digit nothing is taken.
      cases taken
      exact ⟨List.forall_mem_nil _, rfl, rfl⟩
    · rename_i known
      cases taken
      obtain ⟨small, same⟩ := digitByte_of_digit? known
      obtain ⟨bounded, rest, last⟩ := ih (position.after byte) rfl
      refine ⟨List.forall_mem_cons.2 ⟨small, bounded⟩, ?_, ?_⟩
      · rw [List.map_cons, same, List.cons_append]
        exact congrArg _ rest
      · rw [List.map_cons, same, Position.past_cons]
        exact last

/-- Digits inside a string stand for themselves. -/
theorem leads_digits {digits : List Nat} (bounded : ∀ digit ∈ digits, digit < 10) :
    Leads .plain (digits.map digitByte) .plain (digits.map digitByte) := by
  have step : ∀ digit < 10,
      stringStep .plain (digitByte digit) = .next .plain [digitByte digit] := by decide
  induction digits with
  | nil => exact leads_nil .plain
  | cons digit digits ih =>
    obtain ⟨small, bounded⟩ := List.forall_mem_cons.1 bounded
    exact (leads_byte (step digit small)).append (ih bounded)

/-- A number that is read with a fraction or an exponent is a float. -/
def Number.IsFloat : Number → Prop
  | .float _ => True
  | _ => False

theorem isFloat_of_readScaled {negative : Bool} {significand : Nat} {exponent : Int}
    (read : readScaled negative significand exponent c = .ok (number, after)) : number.IsFloat := by
  rw [readScaled] at read
  split at read
  · cases read
    trivial
  · cases read

theorem isFloat_of_readExponent {negative : Bool} {significand : Nat} {exponent : Int}
    (read : readExponent negative significand exponent c = .ok (number, after)) :
    number.IsFloat := by
  rw [readExponent_eq] at read
  split at read
  · cases read
  split at read
  · cases read
  split at read
  · exact isFloat_of_readScaled read
  · split at read
    · cases read
    · cases read
      trivial

theorem isFloat_of_readFraction {negative : Bool} {significand : Nat} {exponent : Int}
    (read : readFraction negative significand exponent c = .ok (number, after)) :
    number.IsFloat := by
  rw [readFraction] at read
  dsimp only at read
  split at read
  · split at read <;> cases read
  · split at read
    · exact isFloat_of_readExponent read
    · exact isFloat_of_readExponent read
    · exact isFloat_of_readScaled read

/-- Where no digit was dropped, all of them were appended. -/
theorem eq_foldl_of_appendDigits {limit total significand : Nat} {digits : List Nat}
    (appended : appendDigits limit total digits = (significand, 0)) :
    significand = digits.foldl (fun total digit => total * 10 + digit) total := by
  induction digits generalizing total with
  | nil => exact (congrArg Prod.fst appended).symm
  | cons digit digits ih =>
    rw [appendDigits] at appended
    split at appended
    · exact ih appended
    · cases appended

/-- A natural is read from its digits, without sign and leading zeros. -/
theorem exists_digits_of_readNumber {negative : Bool} {n : Nat}
    (read : readNumber negative c = .ok (.natural n, after)) :
    negative = false ∧ ∃ digits, takeDigits c = (digits, after) ∧ digits ≠ [] ∧
      (∀ next others, digits ≠ 0 :: next :: others) ∧ ofDigits digits = n := by
  rw [readNumber] at read
  split at read
  · split at read <;> cases read
  · cases read
  · rename_i digits last some leading taken
    -- A fraction or an exponent makes a float, and so do dropped digits.
    dsimp only at read
    split at read
    · exact (isFloat_of_readFraction read).elim
    · exact (isFloat_of_readExponent read).elim
    · exact (isFloat_of_readExponent read).elim
    · split at read
      · rename_i none
        have whole : appendDigits UInt64.size 0 digits =
            ((appendDigits UInt64.size 0 digits).1, 0) := Prod.ext rfl none
        obtain ⟨same, rfl⟩ := Prod.mk.inj (Except.ok.inj read)
        rw [eq_foldl_of_appendDigits whole, wholeNumber] at same
        split at same
        · rename_i unsigned
          cases same
          exact ⟨by simpa using unsigned, digits, taken, some, leading, rfl⟩
        · split at same <;> cases same
      · exact (isFloat_of_readScaled read).elim

/-- A natural between quotes is read as a string that is its text. -/
theorem readString_of_natural {n : Nat} {last : Cursor}
    (read : readNumber false c = .ok (.natural n, last))
    (quote : last.next? = some (Ascii.quote, after)) : readString c = .ok (decimal n, after) := by
  obtain ⟨_, digits, taken, some, leading, rfl⟩ := exists_digits_of_readNumber read
  obtain ⟨bounded, rest, position⟩ := takeDigits_spec taken
  -- Inside the string the digits stand for themselves, and the quote ends it behind them.
  have whole : readStringFrom .plain [] c.rest c.position = .ok (digits.map digitByte, after) := by
    have done : stringStep .plain Ascii.quote = .done := rfl
    have behind : after = ⟨after.rest, last.position.after Ascii.quote⟩ := by
      rw [Cursor.next?, Cursor.rest_of_next? quote] at quote
      exact (congrArg Prod.snd (Option.some.inj quote)).symm
    rw [rest, leads_digits bounded, Cursor.rest_of_next? quote, ← position, readStringFrom, done,
      behind]
    simp
  rw [← encode_digitChar bounded] at whole
  rw [readString_eq_ok whole, decimal, decimalDigits_ofDigits bounded some leading]

/-- Only a natural below the limit fits. -/
theorem eq_natural_of_fitNumber {name : String} {limit n : Nat}
    (fits : Format.fitNumber name limit number = .ok n) : number = .natural n ∧ n < limit := by
  rw [Format.fitNumber.eq_def] at fits
  split at fits
  · -- A natural fits only below the limit, and no other number fits.
    split at fits
    · rename_i small
      cases fits
      exact ⟨rfl, small⟩
    · cases fits
  · cases fits
  · cases fits

/-- Where no space stands before it, a word is read from its digits. -/
theorem readNumber_of_u32 {n : UInt32} (read : Format.u32.read c = .ok (n, after))
    (glyph : c.skipSpace = c) : readNumber false c = .ok (.natural n.toNat, after) := by
  obtain ⟨⟨m, last⟩, read, same⟩ := exists_ok_of_map read
  cases same
  obtain ⟨number, byte, behind, _, found, fits⟩ := Format.exists_of_natural_read read
  obtain ⟨rfl, small⟩ := eq_natural_of_fitNumber fits
  rw [UInt32.toNat_ofNat_of_lt' small]
  obtain ⟨_, negative⟩ | ⟨_, found⟩ := found
  · -- Behind a minus there is no natural.
    cases (exists_digits_of_readNumber negative).1
  · rwa [glyph] at found

/-- No number begins with a space. -/
theorem skipSpace_of_beginsNumber {byte : UInt8} (next : c.next? = some (byte, behind))
    (begins : KeyFormat.beginsNumber byte = true) : c.skipSpace = c := by
  have glyph : Cursor.isSpace byte = false := by
    rw [KeyFormat.beginsNumber, Bool.or_eq_true, beq_iff_eq] at begins
    -- Either a minus or a digit stands there, and neither is a space.
    obtain rfl | digit := begins
    · rfl
    · obtain ⟨value, known⟩ := Option.isSome_iff_exists.1 digit
      obtain ⟨small, rfl⟩ := digitByte_of_digit? known
      exact (digitByte_spec small).1
  obtain ⟨rest, position⟩ := c
  have whole : rest = byte :: behind.rest := Cursor.rest_of_next? next
  rw [whole, Cursor.skipSpace_cons glyph]

/-- A key that is a number is the text of that number. -/
theorem KeyFormat.agrees_u32 : u32.Agrees := by
  intro c k after read
  refine ⟨?_, (keeps_u32 k).decodes⟩
  simp only [u32] at read
  split at read
  · rename_i byte behind next
    split at read
    · cases read
    · rename_i begins
      cases number : Format.u32.read c.advance with
      | error refusal =>
        rw [number] at read
        cases read
      | ok found =>
        obtain ⟨n, last⟩ := found
        rw [number] at read
        simp only [bind, Except.bind] at read
        split at read
        · -- The quote behind the number is the one that ends the string.
          rename_i quote
          cases read
          have glyph := skipSpace_of_beginsNumber next (by simpa using begins)
          exact congrArg (within .unknown)
            (readString_of_natural (readNumber_of_u32 number glyph) quote)
        · cases read
  · cases read

end MergeNotes.Json
