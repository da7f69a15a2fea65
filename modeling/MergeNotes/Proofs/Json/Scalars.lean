import MergeNotes.Json.Format
import MergeNotes.Json.Print
import MergeNotes.Proofs.Text.Plain
import MergeNotes.Proofs.Url.Numeral

/-! Strings and numbers read back as they were written. -/

namespace MergeNotes.Json

/-- The position behind a run of bytes. -/
def Position.past (position : Position) (text : List UInt8) : Position :=
  text.foldl Position.after position

@[simp] theorem Position.past_nil (position : Position) : position.past [] = position :=
  rfl

@[simp] theorem Position.past_cons (position : Position) (byte : UInt8) (text : List UInt8) :
    position.past (byte :: text) = (position.after byte).past text :=
  rfl

@[simp] theorem Position.past_append (position : Position) (text more : List UInt8) :
    position.past (text ++ more) = (position.past text).past more :=
  List.foldl_append

@[simp] theorem Cursor.next?_cons (byte : UInt8) (rest : List UInt8) (position : Position) :
    Cursor.next? ⟨byte :: rest, position⟩ = some (byte, ⟨rest, position.after byte⟩) :=
  rfl

@[simp] theorem Cursor.peek?_cons (byte : UInt8) (rest : List UInt8) (position : Position) :
    Cursor.peek? ⟨byte :: rest, position⟩ = some byte :=
  rfl

@[simp] theorem Cursor.advance_cons (byte : UInt8) (rest : List UInt8) (position : Position) :
    Cursor.advance ⟨byte :: rest, position⟩ = ⟨rest, position.after byte⟩ :=
  rfl

/-- What may stand behind a value: the end, or a byte that no number goes on with. -/
def Delimited (rest : List UInt8) : Prop :=
  ∀ byte ∈ rest.head?, byte ∈ [Ascii.comma, Ascii.colon, Ascii.quote, Ascii.closeBracket,
    Ascii.closeBrace]

theorem delimited_nil : Delimited [] :=
  fun _ member => nomatch member

theorem delimited_cons {byte : UInt8} (rest : List UInt8)
    (known : byte ∈ [Ascii.comma, Ascii.colon, Ascii.quote, Ascii.closeBracket,
      Ascii.closeBrace]) : Delimited (byte :: rest) := by
  intro head member
  rw [List.head?_cons, Option.mem_some_iff] at member
  exact member ▸ known

/-- A reader takes this text, wherever it stands and whatever follows it, and finds this in it. -/
def Reads {α : Type} (read : Cursor → Except Error (α × Cursor)) (text : List UInt8) (found : α) :
    Prop :=
  ∀ rest position, Delimited rest →
    read ⟨text ++ rest, position⟩ = .ok (found, ⟨rest, position.past text⟩)

/-- A reader that hands over to another one reads what that reads. -/
theorem Reads.handed {α β : Type} {read : Cursor → Except Error (β × Cursor)}
    {inner : Cursor → Except Error (α × Cursor)} {text : List UInt8} {found : α}
    (reads : Reads inner text found) (make : α → β)
    (hands : ∀ rest position, read ⟨text ++ rest, position⟩ =
      inner ⟨text ++ rest, position⟩ >>= fun found => .ok (make found.1, found.2)) :
    Reads read text (make found) := by
  intro rest position delimited
  rw [hands, reads rest position delimited]
  rfl

/-- A reader that hands over to another one behind a byte reads that byte before. -/
theorem Reads.behind {α β : Type} {read : Cursor → Except Error (β × Cursor)}
    {inner : Cursor → Except Error (α × Cursor)} {text : List UInt8} {found : α}
    (reads : Reads inner text found) {byte : UInt8} (make : α → β)
    (hands : ∀ rest position, read ⟨byte :: rest, position⟩ =
      inner ⟨rest, position.after byte⟩ >>= fun found => .ok (make found.1, found.2)) :
    Reads read (byte :: text) (make found) := by
  intro rest position delimited
  rw [List.cons_append, hands, reads rest _ delimited]
  rfl

/-! A string goes through the states of its reader one character after the other. -/

/-- Inside a string, a run of bytes leads from one state to another and stands for some bytes. -/
def Leads (state : StringState) (text : List UInt8) (last : StringState) (output : List UInt8) :
    Prop :=
  ∀ found rest position, readStringFrom state found (text ++ rest) position =
    readStringFrom last (output.reverse ++ found) rest (position.past text)

section Leads

variable {state middle last : StringState} {text more output outputs : List UInt8}

theorem leads_nil (state : StringState) : Leads state [] state [] :=
  fun _ _ _ => rfl

theorem leads_byte {byte : UInt8} (step : stringStep state byte = .next last output) :
    Leads state [byte] last output := by
  intro found rest position
  rw [List.singleton_append, readStringFrom, step]
  rfl

theorem Leads.append (leads : Leads state text middle output)
    (further : Leads middle more last outputs) :
    Leads state (text ++ more) last (output ++ outputs) := by
  intro found rest position
  rw [List.append_assoc, leads, further, Position.past_append, List.reverse_append,
    List.append_assoc]

/-- The state behind a run of bytes inside a string, and what the bytes stand for. -/
def runString : StringState → List UInt8 → Option (StringState × List UInt8)
  | state, [] => some (state, [])
  | state, byte :: text =>
    match stringStep state byte with
    | .next next output =>
      (runString next text).map fun (last, outputs) => (last, output ++ outputs)
    | .done | .bad _ => none

/-- Where a run of bytes leads can be computed. -/
theorem leads_of_runString (run : runString state text = some (last, output)) :
    Leads state text last output := by
  induction text generalizing state output with
  | nil =>
    simp only [runString, Option.some.injEq, Prod.mk.injEq] at run
    obtain ⟨rfl, rfl⟩ := run
    exact leads_nil state
  | cons byte text ih =>
    rw [runString] at run
    split at run
    · rename_i next first step
      obtain ⟨⟨final, outputs⟩, later, same⟩ := Option.map_eq_some_iff.1 run
      obtain ⟨rfl, rfl⟩ := Prod.mk.inj same
      exact (leads_byte step).append (ih later)
    -- A run does not go on behind the end of the string, or behind a fault.
    all_goals cases run

/-- No byte beyond ASCII has a meaning of its own in a string. -/
theorem leads_of_not_ascii (beyond : ∀ byte ∈ text, ¬ byte < 0x80) :
    Leads .plain text .plain text := by
  induction text with
  | nil => exact leads_nil .plain
  | cons byte text ih =>
    obtain ⟨first, others⟩ := List.forall_mem_cons.1 beyond
    -- The byte is neither a quote, nor a backslash, nor a control.
    have quote : byte ≠ Ascii.quote := fun same => first (same ▸ by decide)
    have backslash : byte ≠ Ascii.backslash := fun same => first (same ▸ by decide)
    have control : ¬ byte < 0x20 := by
      simp only [UInt8.lt_iff_toNat_lt, UInt8.reduceToNat] at first ⊢
      omega
    have step : stringStep .plain byte = .next .plain [byte] := by
      rw [stringStep, if_neg quote, if_neg backslash, if_neg control]
    exact (leads_byte step).append (ih others)

end Leads

theorem not_ascii_of_mem_encodeChar {c : Char} (beyond : ¬ c.toNat < 0x80) {byte : UInt8}
    (member : byte ∈ Utf8.encodeChar c) : ¬ byte < 0x80 := by
  intro ascii
  have whole : Utf8.decode? (Utf8.encodeChar c) = some [c] := by
    simpa [Utf8.encode_cons] using Utf8.decode?_encode [c]
  -- A byte of ASCII would be a character of the text, of which there is only this one.
  have same := List.mem_singleton.1 (Utf8.mem_of_decode? ascii whole member)
  have each : ∀ code < 0x80, (Char.ofNat code).toNat < 0x80 := by decide
  exact beyond (same ▸ each byte.toNat (UInt8.lt_iff_toNat_lt.1 ascii))

/-- Each character is read back, escaped or not. -/
theorem leads_printChar (c : Char) :
    Leads .plain (Utf8.encode (printChar c)) .plain (Utf8.encodeChar c) := by
  by_cases ascii : c.toNat < 128
  · -- All that has an escape is ASCII, of which each character is tried.
    apply leads_of_runString
    refine @forall_ascii (fun c => runString .plain (Utf8.encode (printChar c)) =
      some (.plain, Utf8.encodeChar c)) ?_ c ascii
    decide +kernel
  · have other : ∀ known : Char, known.toNat < 128 → c ≠ known :=
      fun known small same => ascii (same ▸ small)
    have plain : printChar c = [c] := by
      rw [printChar, if_neg (other _ (by decide)), if_neg (other _ (by decide)),
        if_neg (other _ (by decide)), if_neg (other _ (by decide)), if_neg (other _ (by decide)),
        if_neg (other _ (by decide)), if_neg (other _ (by decide)), if_neg (by omega)]
    rw [plain, Utf8.encode_cons, Utf8.encode_nil, List.append_nil]
    exact leads_of_not_ascii fun _ => not_ascii_of_mem_encodeChar ascii

theorem leads_print (text : List Char) :
    Leads .plain (Utf8.encode (text.flatMap printChar)) .plain (Utf8.encode text) := by
  induction text with
  | nil => exact leads_nil .plain
  | cons c text ih =>
    rw [List.flatMap_cons, Utf8.encode_append, Utf8.encode_cons]
    exact (leads_printChar c).append ih

/-- A string is read back behind its opening quote. -/
theorem reads_readString (text : String) :
    Reads readString (Utf8.encode (text.toList.flatMap printChar) ++ [Ascii.quote]) text := by
  intro rest position _
  have run := leads_print text.toList [] (Ascii.quote :: rest) position
  -- The quote behind the last character ends the string.
  have done : stringStep .plain Ascii.quote = .done := rfl
  rw [readStringFrom, done] at run
  simp only [List.append_nil, List.reverse_reverse] at run
  simp only [readString, List.append_assoc, List.singleton_append, run, bind, Except.bind,
    Utf8.decode?_encode, String.ofList_toList, Position.past_append, Position.past_cons,
    Position.past_nil]

/-! A number is written in digits, which are put together again. -/

/-- The byte of a digit. -/
def digitByte (digit : Nat) : UInt8 :=
  (0x30 + digit).toUInt8

theorem digit?_digitByte {digit : Nat} (small : digit < 10) :
    Ascii.digit? (digitByte digit) = some digit := by
  revert digit
  decide

theorem digit?_of_delimited {byte : UInt8} {rest : List UInt8}
    (delimited : Delimited (byte :: rest)) : Ascii.digit? byte = none := by
  have each : ∀ byte ∈ [Ascii.comma, Ascii.colon, Ascii.quote, Ascii.closeBracket,
    Ascii.closeBrace], Ascii.digit? byte = none := by decide +kernel
  exact each byte (delimited byte rfl)

/-- A number is written in digits that make it up, with a leading zero only where it is zero. -/
theorem exists_digits (n : Nat) :
    ∃ digits : List Nat, Utf8.encode (decimalDigits n) = digits.map digitByte ∧
      (∀ digit ∈ digits, digit < 10) ∧ ofDigits digits = n ∧
      ∃ first others, digits = first :: others ∧ (first = 0 → others = []) := by
  have single : ∀ digit < 10, Utf8.encode [Nat.digitChar digit] = [digitByte digit] := by decide
  rw [Url.decimalDigits_eq]
  induction n using Nat.strongRecOn with
  | ind n ih =>
    rcases Nat.lt_or_ge n 10 with small | large
    · -- A single digit may be zero.
      refine ⟨[n], ?_, by simpa using small, by simp [ofDigits], n, [], rfl, fun _ => rfl⟩
      rw [Nat.toDigits_of_lt_base small]
      exact single n small
    · -- The last digit is the remainder, and the others are those of the quotient.
      obtain ⟨digits, bytes, bounded, whole, first, others, split, leading⟩ :=
        ih (n / 10) (by omega)
      refine ⟨digits ++ [n % 10], ?_, ?_, ?_, first, others ++ [n % 10], by simp [split], ?_⟩
      · rw [Nat.toDigits_of_base_le (by omega) large, Utf8.encode_append, bytes,
          single _ (Nat.mod_lt _ (by omega)), List.map_append, List.map_singleton]
      · intro digit member
        rcases List.mem_append.1 member with earlier | last
        · exact bounded digit earlier
        · rw [List.mem_singleton.1 last]
          exact Nat.mod_lt _ (by omega)
      · rw [ofDigits, List.foldl_append, ← ofDigits, whole]
        exact Nat.div_add_mod' n 10
      · -- The quotient is not zero, so that its first digit is none.
        intro zero
        rw [split, leading zero, zero] at whole
        simp only [ofDigits, List.foldl_cons, List.foldl_nil] at whole
        omega

/-- All digits that were written are taken, and nothing behind them. -/
theorem takeDigits_digits {digits : List Nat} (bounded : ∀ digit ∈ digits, digit < 10)
    {rest : List UInt8} (delimited : Delimited rest) (position : Position) :
    takeDigits ⟨digits.map digitByte ++ rest, position⟩ =
      (digits, ⟨rest, position.past (digits.map digitByte)⟩) := by
  rw [takeDigits]
  induction digits generalizing position with
  | nil =>
    -- What stands behind the digits is no digit.
    cases rest with
    | nil => rfl
    | cons byte rest => simp [takeDigits.go, digit?_of_delimited delimited]
  | cons digit digits ih =>
    obtain ⟨first, others⟩ := List.forall_mem_cons.1 bounded
    simp only [List.map_cons, List.cons_append, takeDigits.go, digit?_digitByte first,
      ih others, Position.past_cons]

/-- A number only grows by the digits that are appended. -/
theorem le_foldl_digits (total : Nat) (digits : List Nat) :
    total ≤ digits.foldl (fun total digit => total * 10 + digit) total := by
  induction digits generalizing total with
  | nil => exact Nat.le_refl _
  | cons digit digits ih => exact Nat.le_trans (by omega) (ih (total * 10 + digit))

/-- No digit is dropped of a number below the limit. -/
theorem appendDigits_of_lt {limit total : Nat} {digits : List Nat}
    (below : digits.foldl (fun total digit => total * 10 + digit) total < limit) :
    appendDigits limit total digits =
      (digits.foldl (fun total digit => total * 10 + digit) total, 0) := by
  induction digits generalizing total with
  | nil => rfl
  | cons digit digits ih =>
    -- What is below the limit in the end is below it from the start.
    have larger := le_foldl_digits (total * 10 + digit) digits
    rw [List.foldl_cons] at below ⊢
    rw [appendDigits, if_pos (by omega)]
    exact ih below

/-- A number that 64 bits hold is read back behind its sign. -/
theorem reads_readNumber (negative : Bool) {n : Nat} (small : n < UInt64.size) :
    Reads (readNumber negative) (Utf8.encode (decimalDigits n)) (wholeNumber negative n) := by
  intro rest position delimited
  obtain ⟨digits, bytes, bounded, whole, first, others, split, leading⟩ := exists_digits n
  have total : appendDigits UInt64.size 0 digits = (n, 0) := by
    rw [← whole] at small ⊢
    exact appendDigits_of_lt small
  rw [bytes, readNumber, takeDigits_digits bounded delimited, split]
  rw [split] at total
  -- A second digit stands only behind a first that is not zero.
  have single : ∀ digits, first :: others = 0 :: digits → digits = [] := by
    intro digits same
    obtain ⟨zero, rfl⟩ := List.cons.inj same
    exact leading zero
  split
  · -- There is a digit.
    rename_i none
    cases none
  · -- No digit stands behind a leading zero.
    rename_i zero
    have second := single _ (congrArg Prod.fst zero)
    cases second
  · -- Neither a point nor an exponent follows.
    rename_i same
    obtain ⟨rfl, rfl⟩ := Prod.mk.inj same
    simp only [total]
    cases rest with
    | nil => rfl
    | cons byte rest =>
      have known := delimited byte rfl
      simp only [List.mem_cons, List.not_mem_nil, or_false] at known
      rcases known with rfl | rfl | rfl | rfl | rfl <;> rfl

end MergeNotes.Json
