import MergeNotes.Form
import MergeNotes.Percent

/-! Percent encoding: what it writes, and that it is undone by decoding. -/

namespace MergeNotes

namespace Utf8

variable {text more : List Char} {c : Char}

@[simp] theorem encode_nil : encode [] = [] :=
  rfl

theorem encode_cons : encode (c :: text) = encodeChar c ++ encode text :=
  List.flatMap_cons

theorem encode_append : encode (text ++ more) = encode text ++ encode more :=
  List.flatMap_append

theorem encodeChar_ne_nil (c : Char) : encodeChar c ≠ [] := by
  unfold encodeChar
  dsimp only
  split
  · simp
  · split
    · simp
    · split <;> simp

theorem encode_eq_nil_iff : encode text = [] ↔ text = [] := by
  cases text with
  | nil => simp
  | cons c text => simp [encode_cons, encodeChar_ne_nil]

/-- What is small enough for a byte is kept in one. -/
theorem toNat_toUInt8 {value : Nat} (small : value < 256) : value.toUInt8.toNat = value := by
  rw [Nat.toUInt8, UInt8.toNat_ofNat', Nat.mod_eq_of_lt small]

/-- A character of ASCII is one byte. -/
theorem encodeChar_of_ascii (ascii : c.toNat < 0x80) : encodeChar c = [c.toNat.toUInt8] := by
  unfold encodeChar
  exact if_pos ascii

end Utf8

namespace Percent

variable {keep : Char → Bool} {text : List Char} {c : Char}

/-- The characters with which bytes are written out. -/
def isEscape (c : Char) : Bool :=
  "%0123456789ABCDEF".toList.contains c

/-- What can be checked of each of the 17 characters holds of every escape. -/
theorem forall_escape {test : Char → Bool} (each : "%0123456789ABCDEF".toList.all test = true)
    (escape : isEscape c = true) : test c = true := by
  rw [isEscape, List.contains_iff_mem] at escape
  exact List.all_eq_true.1 each c escape

theorem isEscape_hexDigit {value : Nat} (small : value < 16) :
    isEscape (hexDigit value) = true := by
  revert value
  decide

/-- A byte is written out with a percent sign and two digits. -/
theorem isEscape_of_mem_encodeByte {byte : UInt8} (member : c ∈ encodeByte byte) :
    isEscape c = true := by
  have bound := byte.toNat_lt
  -- A percent sign, the digit of the upper half and that of the lower half.
  simp only [encodeByte, List.mem_cons, List.not_mem_nil, or_false] at member
  rcases member with rfl | rfl | rfl
  · decide
  · exact isEscape_hexDigit (by omega)
  · exact isEscape_hexDigit (by omega)

@[simp] theorem encode_nil : encode keep [] = [] :=
  rfl

theorem encode_cons : encode keep (c :: text) = encodeChar keep c ++ encode keep text :=
  List.flatMap_cons

theorem encode_append {more : List Char} :
    encode keep (text ++ more) = encode keep text ++ encode keep more :=
  List.flatMap_append

/-- What is written for a character is that character, where it may stand for itself, or writes out
a byte. -/
theorem mem_encodeChar {source : Char} (member : c ∈ encodeChar keep source) :
    (c = source ∧ keep c = true) ∨ isEscape c = true := by
  unfold encodeChar at member
  split at member
  · rename_i kept
    rw [List.mem_singleton] at member
    exact .inl ⟨member, member ▸ kept⟩
  · obtain ⟨byte, _, member⟩ := List.mem_flatMap.1 member
    exact .inr (isEscape_of_mem_encodeByte member)

/-- A character in an encoded text is one that may stand for itself, or writes out a byte. -/
theorem mem_encode (member : c ∈ encode keep text) :
    (c ∈ text ∧ keep c = true) ∨ isEscape c = true := by
  -- A character stands in what one character of the text became.
  obtain ⟨source, present, member⟩ := List.mem_flatMap.1 member
  exact (mem_encodeChar member).imp_left fun ⟨same, kept⟩ => ⟨same ▸ present, kept⟩

/-- A character that neither stands for itself nor writes out bytes is in no encoded text. -/
theorem not_mem_encode (dropped : keep c = false) (other : isEscape c = false) :
    c ∉ encode keep text := by
  intro member
  rcases mem_encode member with ⟨_, kept⟩ | escape
  · rw [dropped] at kept
    simp at kept
  · rw [other] at escape
    simp at escape

/-- Where the characters of escapes may stand for themselves, an encoded text holds only characters
that may. -/
theorem keep_of_mem_encode (escapes : ∀ c, isEscape c = true → keep c = true)
    (member : c ∈ encode keep text) : keep c = true :=
  (mem_encode member).elim And.right (escapes c)

/-- A text of characters that may stand for themselves is left as it is. -/
theorem encode_of_kept (kept : ∀ c ∈ text, keep c = true) : encode keep text = text := by
  induction text with
  | nil => rfl
  | cons c text ih =>
    obtain ⟨first, rest⟩ := List.forall_mem_cons.1 kept
    rw [encode_cons, ih rest, encodeChar, if_pos first, List.singleton_append]

/-- Every character leaves something. -/
theorem encodeChar_ne_nil : encodeChar keep c ≠ [] := by
  unfold encodeChar
  split
  · simp
  · cases bytes : Utf8.encodeChar c with
    | nil => exact absurd bytes (Utf8.encodeChar_ne_nil c)
    | cons byte bytes => simp [encodeByte]

theorem encode_eq_nil_iff : encode keep text = [] ↔ text = [] := by
  cases text with
  | nil => simp
  | cons c text => simp [encode_cons, encodeChar_ne_nil]

/-! What decoding makes of bytes that no percent sign stands before. -/

@[simp] theorem decode_nil : decode [] = [] := by
  rw [decode.eq_def]

theorem decode_cons {byte : UInt8} {rest : List UInt8} (plain : byte ≠ 0x25) :
    decode (byte :: rest) = byte :: decode rest := by
  rw [decode.eq_def]
  exact if_pos plain

theorem decode_of_plain {bytes : List UInt8} (plain : ∀ byte ∈ bytes, byte ≠ 0x25) :
    decode bytes = bytes := by
  induction bytes with
  | nil => rfl
  | cons byte bytes ih =>
    obtain ⟨first, rest⟩ := List.forall_mem_cons.1 plain
    rw [decode_cons first, ih rest]

/-- No escape that began before a percent sign reaches it. -/
theorem decode_append (bytes rest : List UInt8) :
    decode (bytes ++ 0x25 :: rest) = decode bytes ++ decode (0x25 :: rest) := by
  have apart : Ascii.hexDigit? 0x25 = none := by decide
  fun_induction decode bytes with
  | case1 => rfl
  | case2 byte bytes plain ih =>
    rw [List.cons_append, decode_cons plain, ih, List.cons_append]
  | case6 byte percent =>
    -- The percent sign before stands for itself, since no digit follows it.
    rw [List.cons_append, List.nil_append, decode.eq_def]
    cases rest with
    | nil => simp [percent]
    | cons low rest => simp [percent, apart]
  | _ => grind [decode]

theorem hexDigit?_hexDigit {value : Nat} (small : value < 16) :
    Ascii.hexDigit? (hexDigit value).toNat.toUInt8 = some value := by
  revert value
  decide

theorem hexDigit_ascii {value : Nat} (small : value < 16) : (hexDigit value).toNat < 0x80 := by
  revert value
  decide

/-- A byte that was written out is read. -/
theorem decode_encodeByte (byte : UInt8) (rest : List UInt8) :
    decode (Utf8.encode (encodeByte byte) ++ rest) = byte :: decode rest := by
  have bound := byte.toNat_lt
  have high : byte.toNat / 16 < 16 := by omega
  have low : byte.toNat % 16 < 16 := by omega
  have percent : Utf8.encodeChar '%' = [0x25] := by decide
  simp only [encodeByte, Utf8.encode_cons, Utf8.encode_nil, percent,
    Utf8.encodeChar_of_ascii (hexDigit_ascii high), Utf8.encodeChar_of_ascii (hexDigit_ascii low),
    List.cons_append, List.nil_append]
  rw [decode.eq_def]
  simp only [ne_eq, not_true_eq_false, if_false, hexDigit?_hexDigit high, hexDigit?_hexDigit low]
  -- The two digits are read as the two halves of the byte.
  have whole : byte.toNat / 16 * 16 + byte.toNat % 16 = byte.toNat := by omega
  rw [whole]
  simp

/-- Bytes that were written out are read. -/
theorem decode_encodeBytes (bytes rest : List UInt8) :
    decode (Utf8.encode (bytes.flatMap encodeByte) ++ rest) = bytes ++ decode rest := by
  induction bytes with
  | nil => rfl
  | cons byte bytes ih =>
    -- The escape of the first byte is read as that byte, and what follows is not touched.
    rw [List.flatMap_cons, Utf8.encode_append, List.append_assoc, decode_encodeByte, ih,
      List.cons_append]

/-- An encoded text is read back, where no percent sign stands for itself and all that does is
ASCII. -/
theorem decode_encode (plain : ∀ c, keep c = true → c.toNat < 0x80 ∧ c ≠ '%') (text : List Char)
    (rest : List UInt8) :
    decode (Utf8.encode (encode keep text) ++ rest) = Utf8.encode text ++ decode rest := by
  induction text with
  | nil => rfl
  | cons c text ih =>
    rw [encode_cons, Utf8.encode_append, Utf8.encode_cons, List.append_assoc, List.append_assoc]
    unfold encodeChar
    split
    · -- What stands for itself is read as itself, since it is no percent sign.
      rename_i kept
      obtain ⟨ascii, other⟩ := plain c kept
      rw [Utf8.encode_cons, Utf8.encode_nil, Utf8.encodeChar_of_ascii ascii, List.append_nil,
        List.singleton_append, decode_cons (toUInt8_ne_percent ascii other), ih,
        List.singleton_append]
    · -- What is written out is read byte by byte.
      rw [decode_encodeBytes, ih]
where
  /-- No other character of ASCII is the byte of the percent sign. -/
  toUInt8_ne_percent {c : Char} (ascii : c.toNat < 0x80) (other : c ≠ '%') :
      c.toNat.toUInt8 ≠ 0x25 := by
    intro same
    apply other
    have same := congrArg UInt8.toNat same
    rw [Utf8.toNat_toUInt8 (by omega)] at same
    exact Char.toNat_inj.1 same

end Percent

end MergeNotes
