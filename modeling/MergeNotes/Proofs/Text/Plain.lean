import MergeNotes.Proofs.Text.Utf8

/-! Plain ASCII: text whose bytes are its characters. -/

namespace MergeNotes

/-- What can be checked of each of its 128 characters holds of all ASCII. -/
theorem forall_ascii {property : Char → Prop} (each : ∀ code < 128, property (Char.ofNat code))
    {c : Char} (ascii : c.toNat < 128) : property c :=
  Char.ofNat_toNat c ▸ each c.toNat ascii

/-- Whether a character is ASCII with a glyph of its own, which the space does not have. -/
def isGraphic (c : Char) : Bool :=
  0x21 ≤ c.toNat && c.toNat < 0x7F

theorem isGraphic_iff {c : Char} : isGraphic c = true ↔ 0x21 ≤ c.toNat ∧ c.toNat < 0x7F := by
  simp [isGraphic]

/-- Only upper-case letters have a lower case of their own. -/
theorem toLower_of_not_upper {c : Char} (other : ¬ (c.val ≥ 'A'.val ∧ c.val ≤ 'Z'.val)) :
    c.toLower = c := by
  unfold Char.toLower
  exact dif_neg other

/-- What is in lower case stays as it is. -/
theorem toLower_toLower (c : Char) : c.toLower.toLower = c.toLower := by
  by_cases upper : c.val ≥ 'A'.val ∧ c.val ≤ 'Z'.val
  · have shifted : c.toLower.val = c.val + 32 := by
      unfold Char.toLower
      rw [dif_pos upper]
      rfl
    -- An upper-case letter moves up by 32, which is beyond them all.
    refine toLower_of_not_upper fun again => ?_
    rw [shifted] at again
    simp only [ge_iff_le, UInt32.le_iff_toNat_le, UInt32.toNat_add] at upper again
    have first : 'A'.val.toNat = 65 := rfl
    have last : 'Z'.val.toNat = 90 := rfl
    have shift : (32 : UInt32).toNat = 32 := rfl
    omega
  · rw [toLower_of_not_upper upper, toLower_of_not_upper upper]

namespace Utf8

variable {text : List Char}

/-! A byte of ASCII is never lost, whatever stands around it. -/

theorem subset_scanOnto (found : List (Option Char)) (data : List UInt8) :
    ∀ result ∈ found, result ∈ scanOnto found data := by
  fun_induction scanOnto found data <;> intro result member <;> simp_all

theorem not_ascii_of_continuation? {low high byte : UInt8} {bits : Nat} (above : 0x80 ≤ low)
    (found : continuation? low high byte = some bits) : ¬ byte < 0x80 := by
  unfold continuation? at found
  split at found
  · rename_i bounds
    simp only [UInt8.lt_iff_toNat_lt, UInt8.le_iff_toNat_le] at above bounds ⊢
    omega
  · simp at found

theorem secondBounds_low {lead low high : UInt8} (bounds : secondBounds lead = (low, high)) :
    0x80 ≤ low := by
  unfold secondBounds at bounds
  have first := congrArg Prod.fst bounds
  dsimp only at first
  -- The bound is raised for two leads, and is never below the first continuation.
  rw [← first]
  split
  · decide
  · split
    · decide
    · split
      · decide
      · split <;> decide

/-- Every byte of ASCII in a text is one of its characters. -/
theorem mem_scanOnto {byte : UInt8} (ascii : byte < 0x80) (found : List (Option Char))
    (data : List UInt8) (member : byte ∈ data) :
    some (Char.ofNat byte.toNat) ∈ scanOnto found data := by
  fun_induction scanOnto found data with
  | case1 => simp at member
  | case2 found lead rest small ih =>
    rcases List.mem_cons.1 member with rfl | later
    · exact subset_scanOnto _ _ _ List.mem_cons_self
    · exact ih later
  | _ =>
    -- Whatever else is taken together begins with no byte of ASCII and continues with none.
    have low := @secondBounds_low
    have above := @not_ascii_of_continuation?
    grind

theorem mem_of_decode? {byte : UInt8} (ascii : byte < 0x80) {data : List UInt8} {text : List Char}
    (read : decode? data = some text) (member : byte ∈ data) : Char.ofNat byte.toNat ∈ text := by
  have scanned : some (Char.ofNat byte.toNat) ∈ scan data :=
    List.mem_reverse.2 (mem_scanOnto ascii [] data member)
  rw [decode?] at read
  -- The text has one character for each result, in their order.
  generalize scan data = results at read scanned
  induction results generalizing text with
  | nil => simp at scanned
  | cons result results ih =>
    simp only [List.mapM_cons, id_eq, Option.pure_def, Option.bind_eq_bind,
      Option.bind_eq_some_iff, Option.some.injEq] at read
    obtain ⟨c, same, rest, others, rfl⟩ := read
    rcases List.mem_cons.1 scanned with first | later
    · rw [same, Option.some.injEq] at first
      exact first ▸ List.mem_cons_self
    · exact List.mem_cons_of_mem _ (ih others later)

theorem mem_encode_of_ascii (ascii : ∀ c ∈ text, c.toNat < 0x80) {byte : UInt8}
    (member : byte ∈ encode text) : ∃ c ∈ text, byte = c.toNat.toUInt8 := by
  obtain ⟨c, present, member⟩ := List.mem_flatMap.1 member
  rw [encodeChar_of_ascii (ascii c present), List.mem_singleton] at member
  exact ⟨c, present, member⟩

/-- Only a character of ASCII begins with a byte of ASCII. -/
theorem ascii_of_encodeChar {c : Char} {byte : UInt8} {rest : List UInt8}
    (bytes : encodeChar c = byte :: rest) (small : byte < 0x80) : c.toNat < 0x80 := by
  have bound := (toNat_bounds c).1
  simp only [UInt8.lt_iff_toNat_lt] at small
  unfold encodeChar at bytes
  -- Beyond ASCII there are three lengths, and in each the first byte is at least 0xC0.
  by_cases ascii : c.toNat < 0x80
  · exact ascii
  · have lead : byte.toNat ≥ 0x80 := by
      simp only [if_neg ascii] at bytes
      split at bytes
      · obtain ⟨rfl, _⟩ := List.cons.inj bytes
        rw [toNat_toUInt8] <;> omega
      · split at bytes
        · obtain ⟨rfl, _⟩ := List.cons.inj bytes
          rw [toNat_toUInt8] <;> omega
        · obtain ⟨rfl, _⟩ := List.cons.inj bytes
          rw [toNat_toUInt8] <;> omega
    have limit : (0x80 : UInt8).toNat = 0x80 := rfl
    omega

/-- A text whose bytes begin with one of ASCII begins with that character. -/
theorem exists_cons_of_encode {text : List Char} {byte : UInt8} {more : List UInt8}
    (bytes : encode text = byte :: more) (small : byte < 0x80) :
    ∃ rest, text = Char.ofNat byte.toNat :: rest ∧ encode rest = more := by
  cases text with
  | nil => simp at bytes
  | cons c text =>
    rw [encode_cons] at bytes
    -- The first byte of the text is the first byte of its first character.
    have ascii : c.toNat < 0x80 := by
      cases first : encodeChar c with
      | nil => exact absurd first (encodeChar_ne_nil c)
      | cons head tail =>
        rw [first, List.cons_append] at bytes
        exact ascii_of_encodeChar first ((List.cons.inj bytes).1 ▸ small)
    rw [encodeChar_of_ascii ascii, List.singleton_append] at bytes
    obtain ⟨rfl, rest⟩ := List.cons.inj bytes
    rw [toNat_toUInt8 (by omega), Char.ofNat_toNat]
    exact ⟨text, rfl, rest⟩

end Utf8

namespace Percent

/-- Letters and digits are ASCII. -/
theorem ascii_of_isAlphanumeric {c : Char} (known : isAlphanumeric c = true) : c.toNat < 128 := by
  -- Both kinds of letters and the digits are ranges that end below 128.
  change ((decide (c.val ≥ 'A'.val ∧ c.val ≤ 'Z'.val) || (c.val ≥ 'a'.val && c.val ≤ 'z'.val)) ||
    (c.val ≥ '0'.val && c.val ≤ '9'.val)) = true at known
  simp only [Bool.or_eq_true, Bool.and_eq_true, decide_eq_true_eq, ge_iff_le,
    UInt32.le_iff_toNat_le] at known
  have upper : 'Z'.val.toNat = 90 := rfl
  have lower : 'z'.val.toNat = 122 := rfl
  have digit : '9'.val.toNat = 57 := rfl
  change c.val.toNat < 128
  omega

theorem ascii_of_isUnreserved {c : Char} (known : isUnreserved c = true) : c.toNat < 128 := by
  simp only [isUnreserved, Bool.or_eq_true, beq_iff_eq] at known
  rcases known with (((letter | rfl) | rfl) | rfl) | rfl
  · exact ascii_of_isAlphanumeric letter
  all_goals decide

/-- What is left of a text in a component stands for no byte of an escape. -/
theorem isUnreserved_spec {c : Char} (known : isUnreserved c = true) :
    c.toNat < 0x80 ∧ c ≠ '%' := by
  refine ⟨ascii_of_isUnreserved known, ?_⟩
  rintro rfl
  revert known
  decide

/-- A component is read back as the text that it was made from. -/
theorem decode_component (text : String) :
    decode (Utf8.encode (component text).toList) = Utf8.bytes text := by
  have whole := decode_encode (fun _ known => isUnreserved_spec known) text.toList []
  rw [List.append_nil, decode_nil, List.append_nil] at whole
  rw [component, String.toList_ofList, whole, Utf8.bytes]

/-- No character that is reserved stands in a component, but for those of escapes. -/
theorem not_mem_component {c : Char} (reserved : isUnreserved c = false)
    (other : isEscape c = false) (text : String) : c ∉ (component text).toList := by
  rw [component, String.toList_ofList]
  exact not_mem_encode reserved other

end Percent

/-- ASCII without percent signs is not changed by decoding. -/
theorem Percent.decode_encode_plain {text : List Char}
    (plain : ∀ c ∈ text, c.toNat < 0x80 ∧ c ≠ '%') :
    Percent.decode (Utf8.encode text) = Utf8.encode text := by
  -- A byte of an ASCII text is one of its characters, none of which is a percent sign.
  refine Percent.decode_of_plain fun byte member same => ?_
  obtain ⟨c, present, rfl⟩ := Utf8.mem_encode_of_ascii (fun c present => (plain c present).1) member
  have code := congrArg UInt8.toNat same
  have small := (plain c present).1
  rw [Utf8.toNat_toUInt8 (by omega)] at code
  exact (plain c present).2 (Char.toNat_inj.1 code)

/-- A byte that belongs to no escape is still there after decoding. -/
theorem Percent.mem_decode {byte : UInt8} (plain : byte ≠ 0x25)
    (apart : Ascii.hexDigit? byte = none) {data : List UInt8} (member : byte ∈ data) :
    byte ∈ Percent.decode data := by
  fun_induction Percent.decode data <;> grind

/-- ASCII takes one byte for each character. -/
theorem utf8ByteSize_of_ascii {text : List Char} (ascii : ∀ c ∈ text, c.toNat < 128) :
    (String.ofList text).utf8ByteSize = text.length := by
  induction text with
  | nil => rfl
  | cons c text ih =>
    obtain ⟨first, rest⟩ := List.forall_mem_cons.1 ascii
    -- Each character takes one byte, so the bytes are counted along the text.
    have single : c.utf8Size = 1 := by
      rw [Char.utf8Size_eq_one_iff, UInt32.le_iff_toNat_le]
      exact Nat.le_of_lt_succ first
    have whole : String.ofList (c :: text) = String.singleton c ++ String.ofList text := by
      apply String.toList_inj.1
      simp
    rw [whole, String.utf8ByteSize_append, String.utf8ByteSize_singleton, single, ih rest,
      List.length_cons, Nat.add_comm]

end MergeNotes
