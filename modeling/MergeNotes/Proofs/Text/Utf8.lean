import MergeNotes.Proofs.Text.Escape

/-! UTF-8 read back: what was written of a text is that text, character by character. -/

namespace MergeNotes.Utf8

/-- Six bits of a character go into a byte between the bounds, and come out of it again. -/
theorem continuation?_eq_some {low high : UInt8} {bits : Nat} (small : bits < 0x40)
    (above : low.toNat ≤ 0x80 + bits) (below : 0x80 + bits ≤ high.toNat) :
    continuation? low high (0x80 + bits).toUInt8 = some bits := by
  have same : (0x80 + bits).toUInt8.toNat = 0x80 + bits := toNat_toUInt8 (by omega)
  have between : low ≤ (0x80 + bits).toUInt8 ∧ (0x80 + bits).toUInt8 ≤ high := by
    rw [UInt8.le_iff_toNat_le, UInt8.le_iff_toNat_le, same]
    exact ⟨above, below⟩
  unfold continuation?
  rw [if_pos between, same]
  congr 1
  omega

/-- The bytes behind the second one have no bounds of their own. -/
theorem continuation?_tail {bits : Nat} (small : bits < 0x40) :
    continuation? 0x80 0xBF (0x80 + bits).toUInt8 = some bits := by
  have low : (0x80 : UInt8).toNat = 0x80 := rfl
  have high : (0xBF : UInt8).toNat = 0xBF := rfl
  exact continuation?_eq_some small (by omega) (by omega)

/-- Only four lead bytes set bounds of their own, two of them below and two above. -/
theorem toNat_secondBounds {lead : Nat} (byte : lead < 0x100) :
    (secondBounds lead.toUInt8).1.toNat =
        (if lead = 0xE0 then 0xA0 else if lead = 0xF0 then 0x90 else 0x80) ∧
      (secondBounds lead.toUInt8).2.toNat =
        (if lead = 0xED then 0x9F else if lead = 0xF4 then 0x8F else 0xBF) := by
  revert lead
  decide +kernel

/-- The second byte is between the bounds of the lead, where the character is neither overlong,
nor a surrogate, nor beyond U+10FFFF. -/
theorem continuation?_second {lead bits : Nat} (byte : lead < 0x100) (small : bits < 0x40)
    (long : lead = 0xE0 → 0x20 ≤ bits) (surrogate : lead = 0xED → bits < 0x20)
    (longer : lead = 0xF0 → 0x10 ≤ bits) (last : lead = 0xF4 → bits < 0x10) :
    continuation? (secondBounds lead.toUInt8).1 (secondBounds lead.toUInt8).2
      (0x80 + bits).toUInt8 = some bits := by
  obtain ⟨low, high⟩ := toNat_secondBounds byte
  apply continuation?_eq_some small
  · rw [low]
    split
    · omega
    · split <;> omega
  · rw [high]
    split
    · omega
    · split <;> omega

/-- A character is no surrogate, and none is beyond U+10FFFF. -/
theorem toNat_bounds (c : Char) : c.toNat < 0x110000 ∧ ¬ (0xD800 ≤ c.toNat ∧ c.toNat < 0xE000) := by
  have valid := c.valid
  simp only [UInt32.isValidChar, Nat.isValidChar] at valid
  change c.val.toNat < 0x110000 ∧ ¬ (0xD800 ≤ c.val.toNat ∧ c.val.toNat < 0xE000)
  omega

/-- A number that fits into a byte compares with bytes as that byte does. -/
theorem toUInt8_lt_iff {value : Nat} (byte : value < 0x100) (bound : UInt8) :
    value.toUInt8 < bound ↔ value < bound.toNat := by
  rw [UInt8.lt_iff_toNat_lt, toNat_toUInt8 byte]

theorem lt_toUInt8_iff {value : Nat} (byte : value < 0x100) (bound : UInt8) :
    bound < value.toUInt8 ↔ bound.toNat < value := by
  rw [UInt8.lt_iff_toNat_lt, toNat_toUInt8 byte]

/-- Two bytes: five bits in the lead and six behind it. -/
theorem scanOnto_two {high low : Nat} (above : 2 ≤ high) (below : high < 0x20) (small : low < 0x40)
    (found : List (Option Char)) (rest : List UInt8) :
    scanOnto found ((0xC0 + high).toUInt8 :: (0x80 + low).toUInt8 :: rest) =
      scanOnto (some (Char.ofNat (high * 0x40 + low)) :: found) rest := by
  have second := @continuation?_second (0xC0 + high) low (by omega) small (by omega) (by omega)
    (by omega) (by omega)
  have lead : (0xC0 + high).toUInt8.toNat % 0x20 = high := by
    rw [toNat_toUInt8 (by omega)]
    omega
  -- The lead byte is compared with one bound after the other, and the first above it decides.
  have marks : ¬ (0xC0 + high).toUInt8 < 0x80 ∧
      ¬ ((0xC0 + high).toUInt8 < 0xC2 ∨ 0xF4 < (0xC0 + high).toUInt8) ∧
      (0xC0 + high).toUInt8 < 0xE0 := by
    simp only [toUInt8_lt_iff (show 0xC0 + high < 0x100 by omega),
      lt_toUInt8_iff (show 0xC0 + high < 0x100 by omega)]
    simp only [UInt8.reduceToNat]
    omega
  rw [scanOnto.eq_def]
  simp only [if_neg marks.1, if_neg marks.2.1, second, if_pos marks.2.2, lead]

/-- Three bytes: four bits in the lead, and six in each of the others. -/
theorem scanOnto_three {high middle low : Nat} (below : high < 0x10) (small : middle < 0x40)
    (smaller : low < 0x40) (long : high = 0 → 0x20 ≤ middle) (surrogate : high = 0xD → middle < 0x20)
    (found : List (Option Char)) (rest : List UInt8) :
    scanOnto found ((0xE0 + high).toUInt8 :: (0x80 + middle).toUInt8 :: (0x80 + low).toUInt8 ::
        rest) =
      scanOnto (some (Char.ofNat ((high * 0x40 + middle) * 0x40 + low)) :: found) rest := by
  have second := @continuation?_second (0xE0 + high) middle (by omega) small (by omega) (by omega)
    (by omega) (by omega)
  have third := continuation?_tail smaller
  have lead : (0xE0 + high).toUInt8.toNat % 0x10 = high := by
    rw [toNat_toUInt8 (by omega)]
    omega
  have marks : ¬ (0xE0 + high).toUInt8 < 0x80 ∧
      ¬ ((0xE0 + high).toUInt8 < 0xC2 ∨ 0xF4 < (0xE0 + high).toUInt8) ∧
      ¬ (0xE0 + high).toUInt8 < 0xE0 ∧ (0xE0 + high).toUInt8 < 0xF0 := by
    simp only [toUInt8_lt_iff (show 0xE0 + high < 0x100 by omega),
      lt_toUInt8_iff (show 0xE0 + high < 0x100 by omega), UInt8.reduceToNat]
    omega
  rw [scanOnto.eq_def]
  simp only [if_neg marks.1, if_neg marks.2.1, second, if_neg marks.2.2.1, third,
    if_pos marks.2.2.2, lead]

/-- Four bytes: three bits in the lead, and six in each of the others. -/
theorem scanOnto_four {high middle low last : Nat} (below : high < 5) (small : middle < 0x40)
    (smaller : low < 0x40) (smallest : last < 0x40) (long : high = 0 → 0x10 ≤ middle)
    (beyond : high = 4 → middle < 0x10) (found : List (Option Char)) (rest : List UInt8) :
    scanOnto found ((0xF0 + high).toUInt8 :: (0x80 + middle).toUInt8 :: (0x80 + low).toUInt8 ::
        (0x80 + last).toUInt8 :: rest) =
      scanOnto (some (Char.ofNat (((high * 0x40 + middle) * 0x40 + low) * 0x40 + last)) :: found)
        rest := by
  have second := @continuation?_second (0xF0 + high) middle (by omega) small (by omega) (by omega)
    (by omega) (by omega)
  have third := continuation?_tail smaller
  have fourth := continuation?_tail smallest
  have lead : (0xF0 + high).toUInt8.toNat % 0x08 = high := by
    rw [toNat_toUInt8 (by omega)]
    omega
  have marks : ¬ (0xF0 + high).toUInt8 < 0x80 ∧
      ¬ ((0xF0 + high).toUInt8 < 0xC2 ∨ 0xF4 < (0xF0 + high).toUInt8) ∧
      ¬ (0xF0 + high).toUInt8 < 0xE0 ∧ ¬ (0xF0 + high).toUInt8 < 0xF0 := by
    simp only [toUInt8_lt_iff (show 0xF0 + high < 0x100 by omega),
      lt_toUInt8_iff (show 0xF0 + high < 0x100 by omega), UInt8.reduceToNat]
    omega
  rw [scanOnto.eq_def]
  simp only [if_neg marks.1, if_neg marks.2.1, second, if_neg marks.2.2.1, third,
    if_neg marks.2.2.2, fourth, lead]

/-- A character that was written is read, whatever follows it. -/
theorem scanOnto_encodeChar (c : Char) (found : List (Option Char)) (rest : List UInt8) :
    scanOnto found (encodeChar c ++ rest) = scanOnto (some c :: found) rest := by
  obtain ⟨valid, surrogate⟩ := toNat_bounds c
  -- The bits that the bytes hold make up the code of the character again.
  have whole : ∀ code, code = c.toNat → Char.ofNat code = c :=
    fun code same => by rw [same, Char.ofNat_toNat]
  unfold encodeChar
  dsimp only
  -- One case for each number of bytes, on which the code of the character decides.
  by_cases one : c.toNat < 0x80
  · have small : c.toNat.toUInt8 < 0x80 := (toUInt8_lt_iff (by omega) 0x80).2 one
    rw [if_pos one, List.singleton_append, scanOnto, if_pos small,
      whole _ (toNat_toUInt8 (by omega))]
  rw [if_neg one]
  by_cases two : c.toNat < 0x800
  · rw [if_pos two, List.cons_append, List.cons_append, List.nil_append,
      scanOnto_two (by omega) (by omega) (by omega), whole _ (by omega)]
  rw [if_neg two]
  by_cases three : c.toNat < 0x10000
  · rw [if_pos three, List.cons_append, List.cons_append, List.cons_append, List.nil_append,
      scanOnto_three (by omega) (by omega) (by omega) (by omega) (by omega), whole _ (by omega)]
  · rw [if_neg three, List.cons_append, List.cons_append, List.cons_append, List.cons_append,
      List.nil_append, scanOnto_four (by omega) (by omega) (by omega) (by omega) (by omega)
        (by omega), whole _ (by omega)]

/-- Every character of a text is read as it was written. -/
theorem scan_encode (text : List Char) : scan (encode text) = text.map some := by
  -- The characters come on top of those found before them, the last one uppermost.
  have onto : ∀ found, scanOnto found (encode text) = (text.map some).reverse ++ found := by
    induction text with
    | nil => exact fun found => rfl
    | cons c text ih =>
      intro found
      rw [encode_cons, scanOnto_encodeChar, ih, List.map_cons, List.reverse_cons, List.append_assoc,
        List.singleton_append]
  rw [scan, onto, List.append_nil, List.reverse_reverse]

/-- Written text is well-formed. -/
theorem decode?_encode (text : List Char) : decode? (encode text) = some text := by
  rw [decode?, scan_encode]
  induction text with
  | nil => rfl
  | cons c text ih => rw [List.map_cons, List.mapM_cons, ih]; rfl

/-- In written text there is no defect to be marked. -/
theorem decodeLossy_encode (text : List Char) : decodeLossy (encode text) = text := by
  rw [decodeLossy, scan_encode, List.map_map]
  exact List.map_id text

end MergeNotes.Utf8
