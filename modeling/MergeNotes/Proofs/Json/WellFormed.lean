import MergeNotes.Proofs.Json.Scalars

/-! Texts as bytes: what is left of a well-formed text behind a byte of ASCII is well-formed, and so
is what a string of it stands for. -/

namespace MergeNotes.Json

variable {c after : Cursor}

/-- What is left is the end of a text, which is well-formed. -/
def Cursor.InText (c : Cursor) : Prop :=
  ∃ text : List Char, c.rest <:+ Utf8.encode text

theorem Cursor.InText.forward (inText : c.InText) (suffix : after.rest <:+ c.rest) :
    after.InText := by
  obtain ⟨text, whole⟩ := inText
  exact ⟨text, suffix.trans whole⟩

/-! Behind a quote a well-formed text goes on with a whole character, and what a string of it stands
for is well-formed again. -/

/-- Behind a byte of ASCII a text goes on with a whole character. -/
theorem exists_encode_of_suffix {text : List Char} {byte : UInt8} {rest : List UInt8}
    (suffix : byte :: rest <:+ Utf8.encode text) (ascii : byte < 0x80) :
    ∃ more, rest = Utf8.encode more := by
  induction text with
  | nil => exact absurd (List.suffix_nil.1 suffix) (List.cons_ne_nil _ _)
  | cons c text ih =>
    rw [Utf8.encode_cons] at suffix
    obtain ⟨front, whole⟩ := suffix
    rcases List.append_eq_append_iff.1 whole with ⟨others, first, later⟩ | ⟨others, first, later⟩
    · -- The byte stands in the first character, which is thus that byte alone, or begins the rest.
      cases others with
      | nil =>
        obtain ⟨more, _, same⟩ := Utf8.exists_cons_of_encode later.symm ascii
        exact ⟨more, same.symm⟩
      | cons head others =>
        obtain ⟨rfl, rfl⟩ := List.cons.inj later
        have member : byte ∈ Utf8.encodeChar c := first ▸ List.mem_append_right _ List.mem_cons_self
        have single : c.toNat < 0x80 :=
          Decidable.byContradiction fun beyond => not_ascii_of_mem_encodeChar beyond member ascii
        have length := congrArg List.length first
        simp only [Utf8.encodeChar_of_ascii single, List.length_append, List.length_cons,
          List.length_nil] at length
        have nothing : others = [] := List.eq_nil_of_length_eq_zero (by omega)
        exact ⟨text, by rw [nothing]; rfl⟩
    · exact ih ⟨others, later.symm⟩

/-- Four digits have no value, if one of them is no digit. -/
theorem hexValueOf?_of_mem {digits : List UInt8} {stray : UInt8} (member : stray ∈ digits)
    (strange : Ascii.hexDigit? stray = none) : hexValueOf? digits = none := by
  obtain ⟨front, behind, rfl⟩ := List.append_of_mem member
  simp [hexValueOf?, List.foldlM_append, strange]

/-- An escape with a digit that is none is not read to its end. -/
theorem readStringFrom_stray {high : Option Nat} {digits found bytes data : List UInt8}
    {position : Position} {stray : UInt8} (member : stray ∈ digits)
    (strange : Ascii.hexDigit? stray = none) :
    readStringFrom (.hex high digits) found bytes position ≠ .ok (data, after) := by
  induction bytes generalizing digits found position with
  | nil =>
    intro read
    cases read
  | cons byte bytes ih =>
    have member : stray ∈ digits ++ [byte] := List.mem_append_left _ member
    rw [readStringFrom, stringStep]
    by_cases short : digits.length < 3
    · rw [if_pos short]
      exact ih member
    · -- All four digits are there, and have no value.
      rw [if_neg short, hexValueOf?_of_mem member strange]
      intro read
      cases read

/-- Inside an escape no byte beyond ASCII is read. -/
theorem readStringFrom_beyond {state : StringState} {found bytes data : List UInt8}
    {position : Position} {byte : UInt8} (escaped : state ≠ .plain) (beyond : ¬ byte < 0x80) :
    readStringFrom state found (byte :: bytes) position ≠ .ok (data, after) := by
  have letter : byte ≠ Ascii.lowerU := fun same => beyond (same ▸ by decide)
  have backslash : byte ≠ Ascii.backslash := fun same => beyond (same ▸ by decide)
  rw [readStringFrom]
  cases state with
  | plain => exact absurd rfl escaped
  | escape =>
    have none : escapedByte? byte = none := by
      rw [escapedByte?.eq_def]
      split
      all_goals first | exact absurd (by decide) beyond | rfl
    rw [stringStep, if_neg letter, none]
    intro read
    cases read
  | hex high digits =>
    have strange : Ascii.hexDigit? byte = none := by
      simp only [UInt8.lt_iff_toNat_lt, UInt8.reduceToNat] at beyond
      simp only [Ascii.hexDigit?, UInt8.le_iff_toNat_le, UInt8.reduceToNat]
      rw [if_neg (by omega), if_neg (by omega), if_neg (by omega)]
    have member : byte ∈ digits ++ [byte] := List.mem_append_right _ List.mem_cons_self
    rw [stringStep]
    by_cases short : digits.length < 3
    · rw [if_pos short]
      exact readStringFrom_stray member strange
    · rw [if_neg short, hexValueOf?_of_mem member strange]
      intro read
      cases read
  | high high =>
    rw [stringStep, if_neg backslash]
    intro read
    cases read
  | highEscape high =>
    rw [stringStep, if_neg letter]
    intro read
    cases read

/-- A string is what its bytes stand for. -/
theorem readString_eq_ok {text : List Char}
    (read : readStringFrom .plain [] c.rest c.position = .ok (Utf8.encode text, after)) :
    readString c = .ok (String.ofList text, after) := by
  simp only [readString, read, bind, Except.bind, Utf8.decode?_encode]

theorem encode_of_ascii {byte : UInt8} (ascii : byte < 0x80) :
    Utf8.encode [Char.ofNat byte.toNat] = [byte] := by
  have each : ∀ code < 0x80, Utf8.encode [Char.ofNat code] = [code.toUInt8] := by decide
  rw [each _ (UInt8.lt_iff_toNat_lt.1 ascii), Nat.toUInt8_eq, UInt8.ofNat_toNat]

theorem escapedByte?_ascii {byte meant : UInt8} (escaped : escapedByte? byte = some meant) :
    meant < 0x80 := by
  rw [escapedByte?.eq_def] at escaped
  split at escaped <;> cases escaped <;> decide

/-- A byte of ASCII inside a string stands for whole characters. -/
theorem exists_encode_of_stringStep {state next : StringState} {byte : UInt8}
    {output : List UInt8} (step : stringStep state byte = .next next output) (ascii : byte < 0x80) :
    ∃ chars, output = Utf8.encode chars := by
  have nothing : ∃ chars, [] = Utf8.encode chars := ⟨[], rfl⟩
  have unit : ∀ {high : Option Nat} {code : Nat}, unitStep high code = .next next output →
      ∃ chars, output = Utf8.encode chars := by
    intro high code step
    rw [unitStep.eq_def] at step
    split at step <;> split at step
    · cases step
    · split at step
      · cases step
        exact nothing
      · cases step
        exact ⟨[_], by rw [Utf8.encode_cons, Utf8.encode_nil, List.append_nil]⟩
    · cases step
      exact ⟨[_], by rw [Utf8.encode_cons, Utf8.encode_nil, List.append_nil]⟩
    · cases step
  rw [stringStep.eq_def] at step
  split at step
  · split at step
    · cases step
    split at step
    · cases step
      exact nothing
    split at step
    · cases step
    · cases step
      exact ⟨_, (encode_of_ascii ascii).symm⟩
  · split at step
    · cases step
      exact nothing
    split at step
    · rename_i escaped
      cases step
      exact ⟨_, (encode_of_ascii (escapedByte?_ascii escaped)).symm⟩
    · cases step
  · split at step
    · cases step
      exact nothing
    split at step
    · exact unit step
    · cases step
  · split at step
    · cases step
      exact nothing
    · cases step
  · split at step
    · cases step
      exact nothing
    · cases step

/-- What a string of a well-formed text stands for is well-formed. -/
theorem exists_encode_of_readStringFrom {text chars : List Char} {state : StringState}
    {found data : List UInt8} {position : Position} (whole : found.reverse = Utf8.encode chars)
    (read : readStringFrom state found (Utf8.encode text) position = .ok (data, after)) :
    ∃ chars, data = Utf8.encode chars := by
  induction text generalizing state found chars position with
  | nil => cases read
  | cons c text ih =>
    rw [Utf8.encode_cons] at read
    by_cases ascii : c.toNat < 0x80
    · -- The character is one byte, which takes one step.
      rw [Utf8.encodeChar_of_ascii ascii, List.singleton_append, readStringFrom] at read
      split at read
      · cases read
      · cases read
        exact ⟨chars, whole⟩
      · rename_i next output step
        have small : c.toNat.toUInt8 < 0x80 :=
          (Utf8.toUInt8_lt_iff (by omega) 0x80).2 ascii
        obtain ⟨others, same⟩ := exists_encode_of_stringStep step small
        have longer : (output.reverse ++ found).reverse = Utf8.encode (chars ++ others) := by
          rw [List.reverse_append, List.reverse_reverse, whole, same, Utf8.encode_append]
        exact ih longer read
    · have beyond := fun byte => @not_ascii_of_mem_encodeChar c ascii byte
      by_cases plain : state = .plain
      · -- All bytes of the character are taken as they are.
        rw [plain, leads_of_not_ascii beyond] at read
        have longer : ((Utf8.encodeChar c).reverse ++ found).reverse =
            Utf8.encode (chars ++ [c]) := by
          rw [List.reverse_append, List.reverse_reverse, whole, Utf8.encode_append,
            Utf8.encode_cons, Utf8.encode_nil, List.append_nil]
        exact ih longer read
      · -- In an escape its first byte is refused.
        cases bytes : Utf8.encodeChar c with
        | nil => exact absurd bytes (Utf8.encodeChar_ne_nil c)
        | cons lead others =>
          rw [bytes, List.cons_append] at read
          have lead := beyond lead (bytes ▸ List.mem_cons_self)
          exact absurd read (readStringFrom_beyond plain lead)

end MergeNotes.Json
