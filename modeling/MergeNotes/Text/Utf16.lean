/-! UTF-16: bytes read as characters in units of two, with every defect marked. -/

namespace MergeNotes.Utf16

/-- Which byte of a unit comes first. -/
inductive ByteOrder where
  | big
  | little
  deriving DecidableEq, Repr

/-- The unit that two bytes make up. -/
def unit (order : ByteOrder) (first second : UInt8) : Nat :=
  match order with
  | .big => first.toNat * 0x100 + second.toNat
  | .little => second.toNat * 0x100 + first.toNat

/-- Whether a unit is the first half of a pair. -/
def isHigh (unit : Nat) : Bool :=
  0xD800 ≤ unit && unit ≤ 0xDBFF

/-- Whether a unit is the second half of a pair. -/
def isLow (unit : Nat) : Bool :=
  0xDC00 ≤ unit && unit ≤ 0xDFFF

/-- Puts the characters of a text, latest first, before those already found, with `none` for each
half of a pair without the other, and for what is left of a character at the end. -/
def scanOnto (order : ByteOrder) (found : List (Option Char)) : List UInt8 → List (Option Char)
  | [] => found
  | [_] => none :: found
  | first :: second :: rest =>
    let high := unit order first second
    if isHigh high then
      match rest with
      | third :: fourth :: rest₂ =>
        let low := unit order third fourth
        if isLow low then
          let code := (high - 0xD800) * 0x400 + (low - 0xDC00) + 0x10000
          scanOnto order (some (Char.ofNat code) :: found) rest₂
        else scanOnto order (none :: found) (third :: fourth :: rest₂)
      -- A half pair and half a unit behind it are one defect.
      | _ => none :: found
    else if isLow high then scanOnto order (none :: found) rest
    else scanOnto order (some (Char.ofNat high) :: found) rest

/-- The text of any bytes, with U+FFFD in place of each defect. -/
def decodeLossy (order : ByteOrder) (data : List UInt8) : List Char :=
  (scanOnto order [] data).reverse.map (·.getD '\uFFFD')

end MergeNotes.Utf16
