import MergeNotes.Text.Utf16

/-! UTF-8: characters written as bytes, and bytes read as characters with every defect marked. -/

namespace MergeNotes.Utf8

/-- The one to four bytes of a character. -/
def encodeChar (c : Char) : List UInt8 :=
  let code := c.toNat
  if code < 0x80 then [code.toUInt8]
  else if code < 0x800 then [(0xC0 + code / 0x40).toUInt8, (0x80 + code % 0x40).toUInt8]
  else if code < 0x10000 then
    [(0xE0 + code / 0x1000).toUInt8, (0x80 + code / 0x40 % 0x40).toUInt8,
      (0x80 + code % 0x40).toUInt8]
  else
    [(0xF0 + code / 0x40000).toUInt8, (0x80 + code / 0x1000 % 0x40).toUInt8,
      (0x80 + code / 0x40 % 0x40).toUInt8, (0x80 + code % 0x40).toUInt8]

/-- The bytes of a text. -/
def encode (text : List Char) : List UInt8 :=
  text.flatMap encodeChar

/-- The bytes of a string. -/
def bytes (text : String) : List UInt8 :=
  encode text.toList

/-- The six low bits of a byte that continues a character. -/
def continuation? (low high byte : UInt8) : Option Nat :=
  if low ≤ byte ∧ byte ≤ high then some (byte.toNat % 0x40) else none

/-- The bounds that a lead byte sets for the byte after it. -/
def secondBounds (lead : UInt8) : UInt8 × UInt8 :=
  -- Outside these bounds lie the overlong forms, the surrogates and all beyond U+10FFFF.
  if lead = 0xE0 then (0xA0, 0xBF)
  else if lead = 0xED then (0x80, 0x9F)
  else if lead = 0xF0 then (0x90, 0xBF)
  else if lead = 0xF4 then (0x80, 0x8F)
  else (0x80, 0xBF)

/-- Puts the characters of a text, latest first, before those already found, with `none` for each
longest run of bytes that begins a character and breaks off. -/
def scanOnto (found : List (Option Char)) : List UInt8 → List (Option Char)
  | [] => found
  | lead :: rest =>
    if lead < 0x80 then scanOnto (some (Char.ofNat lead.toNat) :: found) rest
    else if lead < 0xC2 ∨ 0xF4 < lead then scanOnto (none :: found) rest
    else
      let (low, high) := secondBounds lead
      match rest with
      | [] => none :: found
      | second :: rest₂ =>
        match continuation? low high second with
        | none => scanOnto (none :: found) (second :: rest₂)
        | some b =>
          if lead < 0xE0 then
            scanOnto (some (Char.ofNat (lead.toNat % 0x20 * 0x40 + b)) :: found) rest₂
          else
            match rest₂ with
            | [] => none :: found
            | third :: rest₃ =>
              match continuation? 0x80 0xBF third with
              | none => scanOnto (none :: found) (third :: rest₃)
              | some c =>
                if lead < 0xF0 then
                  let code := (lead.toNat % 0x10 * 0x40 + b) * 0x40 + c
                  scanOnto (some (Char.ofNat code) :: found) rest₃
                else
                  match rest₃ with
                  | [] => none :: found
                  | fourth :: rest₄ =>
                    match continuation? 0x80 0xBF fourth with
                    | none => scanOnto (none :: found) (fourth :: rest₄)
                    | some d =>
                      let code := ((lead.toNat % 0x08 * 0x40 + b) * 0x40 + c) * 0x40 + d
                      scanOnto (some (Char.ofNat code) :: found) rest₄

/-- The characters of a text in order, with `none` for each defect. -/
def scan (data : List UInt8) : List (Option Char) :=
  (scanOnto [] data).reverse

/-- The text of well-formed bytes. -/
def decode? (data : List UInt8) : Option (List Char) :=
  (scan data).mapM id

/-- The text of any bytes, with U+FFFD in place of each defect. -/
def decodeLossy (data : List UInt8) : List Char :=
  (scan data).map (·.getD '\uFFFD')

/-- The text of a message body that names no encoding. A byte order mark in front is not part of the
text, and says how it is encoded; without one it is UTF-8. -/
def bodyText (data : List UInt8) : String :=
  match data with
  | 0xEF :: 0xBB :: 0xBF :: rest => String.ofList (decodeLossy rest)
  | 0xFE :: 0xFF :: rest => String.ofList (Utf16.decodeLossy .big rest)
  | 0xFF :: 0xFE :: rest => String.ofList (Utf16.decodeLossy .little rest)
  | data => String.ofList (decodeLossy data)

end MergeNotes.Utf8
