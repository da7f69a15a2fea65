import MergeNotes.Text.Ascii
import MergeNotes.Text.Utf8

/-! Percent encoding: bytes written as a percent sign and two hexadecimal digits. -/

namespace MergeNotes.Percent

/-- The upper-case hexadecimal digit for a value below sixteen. -/
def hexDigit (value : Nat) : Char :=
  if value < 10 then Char.ofNat (0x30 + value) else Char.ofNat (0x37 + value)

/-- A byte written out. -/
def encodeByte (byte : UInt8) : List Char :=
  ['%', hexDigit (byte.toNat / 16), hexDigit (byte.toNat % 16)]

/-- A character with its bytes written out unless it may stand for itself. -/
def encodeChar (keep : Char → Bool) (c : Char) : List Char :=
  if keep c then [c] else (Utf8.encodeChar c).flatMap encodeByte

/-- A text with all but some characters written out. -/
def encode (keep : Char → Bool) (text : List Char) : List Char :=
  text.flatMap (encodeChar keep)

/-- The letters and digits of ASCII. -/
def isAlphanumeric (c : Char) : Bool :=
  c.isAlpha || c.isDigit

/-- The characters that never have a meaning of their own in a URL. -/
def isUnreserved (c : Char) : Bool :=
  isAlphanumeric c || c == '-' || c == '.' || c == '_' || c == '~'

/-- A text as one component of a URL. -/
def component (text : String) : String :=
  String.ofList (encode isUnreserved text.toList)

/-- Bytes with every written-out byte read; a percent sign without two digits stands for itself. -/
def decode : List UInt8 → List UInt8
  | [] => []
  | byte :: rest =>
    if byte ≠ 0x25 then byte :: decode rest
    else
      match rest with
      | high :: low :: rest₂ =>
        match Ascii.hexDigit? high, Ascii.hexDigit? low with
        | some h, some l => (h * 16 + l).toUInt8 :: decode rest₂
        -- The two bytes behind it may be the beginning of an escape themselves.
        | _, _ => byte :: decode (high :: low :: rest₂)
      | [last] => byte :: decode [last]
      | [] => [byte]

end MergeNotes.Percent
