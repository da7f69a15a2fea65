import MergeNotes.Proofs.Text.Utf8

/-! Message bodies with a byte order mark: what was written in the encoding that the mark shows is
read as it was written. -/

namespace MergeNotes

namespace Utf16

variable {order : ByteOrder}

/-- The two bytes of a unit. -/
def unitBytes (order : ByteOrder) (unit : Nat) : List UInt8 :=
  match order with
  | .big => [(unit / 0x100).toUInt8, (unit % 0x100).toUInt8]
  | .little => [(unit % 0x100).toUInt8, (unit / 0x100).toUInt8]

/-- The bytes of a character, which has one unit, or two where its code is too large. -/
def encodeChar (order : ByteOrder) (c : Char) : List UInt8 :=
  if c.toNat < 0x10000 then unitBytes order c.toNat
  else
    let above := c.toNat - 0x10000
    unitBytes order (0xD800 + above / 0x400) ++ unitBytes order (0xDC00 + above % 0x400)

/-- The bytes of a text. -/
def encode (order : ByteOrder) (text : List Char) : List UInt8 :=
  text.flatMap (encodeChar order)

/-- A unit that was written is read. -/
theorem exists_unitBytes (order : ByteOrder) {value : Nat} (small : value < 0x10000) :
    ∃ first second, unitBytes order value = [first, second] ∧
      unit order first second = value := by
  have high : (value / 0x100).toUInt8.toNat = value / 0x100 := Utf8.toNat_toUInt8 (by omega)
  have low : (value % 0x100).toUInt8.toNat = value % 0x100 := Utf8.toNat_toUInt8 (by omega)
  cases order with
  | big =>
    refine ⟨_, _, rfl, ?_⟩
    rw [unit, high, low]
    omega
  | little =>
    refine ⟨_, _, rfl, ?_⟩
    rw [unit, high, low]
    omega

/-- A character that was written is read, whatever follows it. -/
theorem scanOnto_encodeChar (c : Char) (found : List (Option Char)) (rest : List UInt8) :
    scanOnto order found (encodeChar order c ++ rest) = scanOnto order (some c :: found) rest := by
  obtain ⟨valid, surrogate⟩ := Utf8.toNat_bounds c
  unfold encodeChar
  by_cases one : c.toNat < 0x10000
  · -- The code of a character is never half a pair.
    obtain ⟨first, second, bytes, read⟩ := exists_unitBytes order one
    have single : isHigh c.toNat = false ∧ isLow c.toNat = false := by
      simp only [isHigh, isLow, Bool.and_eq_false_iff, decide_eq_false_iff_not]
      omega
    rw [if_pos one, bytes, List.cons_append, List.cons_append, List.nil_append, scanOnto.eq_def]
    simp only [read, single, Bool.false_eq_true, if_false, Char.ofNat_toNat]
  · obtain ⟨first, second, bytes, read⟩ :=
      @exists_unitBytes order (0xD800 + (c.toNat - 0x10000) / 0x400) (by omega)
    obtain ⟨third, fourth, bytes', read'⟩ :=
      @exists_unitBytes order (0xDC00 + (c.toNat - 0x10000) % 0x400) (by omega)
    have high : isHigh (0xD800 + (c.toNat - 0x10000) / 0x400) = true := by
      simp only [isHigh, Bool.and_eq_true, decide_eq_true_eq]
      omega
    have low : isLow (0xDC00 + (c.toNat - 0x10000) % 0x400) = true := by
      simp only [isLow, Bool.and_eq_true, decide_eq_true_eq]
      omega
    -- The two halves make up the code of the character again.
    have code : (0xD800 + (c.toNat - 0x10000) / 0x400 - 0xD800) * 0x400 +
        (0xDC00 + (c.toNat - 0x10000) % 0x400 - 0xDC00) + 0x10000 = c.toNat := by omega
    rw [if_neg one]
    dsimp only
    rw [bytes, bytes', List.append_assoc, List.cons_append, List.cons_append, List.nil_append,
      List.cons_append, List.cons_append, List.nil_append, scanOnto.eq_def]
    simp only [read, read', high, low, if_true, code, Char.ofNat_toNat]

/-- In written text there is no defect to be marked. -/
theorem decodeLossy_encode (order : ByteOrder) (text : List Char) :
    decodeLossy order (encode order text) = text := by
  -- The characters come on top of those found before them, the last one uppermost.
  have onto : ∀ found, scanOnto order found (encode order text) =
      (text.map some).reverse ++ found := by
    induction text with
    | nil => exact fun found => rfl
    | cons c text ih =>
      intro found
      rw [encode, List.flatMap_cons, scanOnto_encodeChar, ← encode, ih, List.map_cons,
        List.reverse_cons, List.append_assoc, List.singleton_append]
  rw [decodeLossy, onto, List.append_nil, List.reverse_reverse, List.map_map]
  exact List.map_id text

end Utf16

/-- A byte order mark is read for the encoding that it shows, and taken off the text. -/
theorem Utf8.bodyText_marked (text : List Char) :
    bodyText (encode ('\uFEFF' :: text)) = String.ofList text ∧
      ∀ order, bodyText (Utf16.encode order ('\uFEFF' :: text)) = String.ofList text := by
  constructor
  · show String.ofList (decodeLossy (encode text)) = String.ofList text
    rw [decodeLossy_encode]
  · intro order
    have read : bodyText (Utf16.encode order ('\uFEFF' :: text)) =
        String.ofList (Utf16.decodeLossy order (Utf16.encode order text)) := by
      cases order <;> rfl
    rw [read, Utf16.decodeLossy_encode]

end MergeNotes
