import MergeNotes.Json.Cursor
import MergeNotes.Text.Ascii

/-! The strings of a JSON text, read one byte at a time. -/

namespace MergeNotes.Json

/-- Where a byte stands inside a string. -/
inductive StringState where
  /-- Between escapes. -/
  | plain
  /-- Behind a backslash. -/
  | escape
  /-- Inside the four digits of an escape, which may have to complete a surrogate pair. -/
  | hex (high : Option Nat) (digits : List UInt8)
  /-- Behind the first half of a surrogate pair. -/
  | high (high : Nat)
  /-- Behind the backslash after the first half of a surrogate pair. -/
  | highEscape (high : Nat)
  deriving DecidableEq, Repr

/-- What a byte inside a string leads to. -/
inductive StringStep where
  | next (state : StringState) (output : List UInt8)
  | done
  | bad (defect : Defect)
  deriving DecidableEq, Repr

/-- The byte that a one-letter escape stands for. -/
def escapedByte? : UInt8 → Option UInt8
  | Ascii.quote => some Ascii.quote
  | Ascii.backslash => some Ascii.backslash
  | Ascii.slash => some Ascii.slash
  | Ascii.lowerB => some 0x08
  | Ascii.lowerF => some 0x0C
  | Ascii.lowerN => some 0x0A
  | Ascii.lowerR => some 0x0D
  | Ascii.lowerT => some 0x09
  | _ => none

/-- The value of a run of hexadecimal digits. -/
def hexValueOf? (digits : List UInt8) : Option Nat :=
  digits.foldlM (fun total byte => (Ascii.hexDigit? byte).map (total * 16 + ·)) 0

/-- What four hexadecimal digits lead to, behind the first half of a pair or not. -/
def unitStep (high : Option Nat) (code : Nat) : StringStep :=
  match high with
  | none =>
    if 0xDC00 ≤ code ∧ code ≤ 0xDFFF then .bad .loneSurrogate
    else if 0xD800 ≤ code ∧ code ≤ 0xDBFF then .next (.high code) []
    else .next .plain (Utf8.encodeChar (Char.ofNat code))
  | some high =>
    if 0xDC00 ≤ code ∧ code ≤ 0xDFFF then
      .next .plain
        (Utf8.encodeChar (Char.ofNat ((high - 0xD800) * 0x400 + (code - 0xDC00) + 0x10000)))
    else .bad .loneSurrogate

/-- Reads one byte of a string. -/
def stringStep : StringState → UInt8 → StringStep
  | .plain, byte =>
    if byte = Ascii.quote then .done
    else if byte = Ascii.backslash then .next .escape []
    else if byte < 0x20 then .bad .controlCharacter
    else .next .plain [byte]
  | .escape, byte =>
    if byte = Ascii.lowerU then .next (.hex none []) []
    else
      match escapedByte? byte with
      | some meant => .next .plain [meant]
      | none => .bad .invalidEscape
  | .hex high digits, byte =>
    -- The digits are looked at when all four are there.
    if digits.length < 3 then .next (.hex high (digits ++ [byte])) []
    else
      match hexValueOf? (digits ++ [byte]) with
      | some code => unitStep high code
      | none => .bad .invalidEscape
  | .high high, byte =>
    if byte = Ascii.backslash then .next (.highEscape high) [] else .bad .endOfEscape
  | .highEscape high, byte =>
    if byte = Ascii.lowerU then .next (.hex (some high) []) [] else .bad .endOfEscape

/-- Reads on inside a string, with the bytes read so far in reverse. -/
def readStringFrom (state : StringState) (found : List UInt8) :
    List UInt8 → Position → Except Error (List UInt8 × Cursor)
  | [], position => Cursor.fail ⟨[], position⟩ .endInString
  | byte :: rest, position =>
    let after : Cursor := ⟨rest, position.after byte⟩
    match stringStep state byte with
    | .bad defect => after.fail defect
    | .done => .ok (found.reverse, after)
    | .next state output => readStringFrom state (output.reverse ++ found) rest after.position

/-- Reads a string behind its opening quote. -/
def readString (c : Cursor) : Except Error (String × Cursor) := do
  let (data, after) ← readStringFrom .plain [] c.rest c.position
  match Utf8.decode? data with
  | some text => .ok (String.ofList text, after)
  | none => after.fail .invalidCodePoint

/-- Where a byte stands inside a string that is passed over. -/
inductive SkipState where
  | plain
  | escape
  | hex (digits : List UInt8)
  deriving DecidableEq, Repr

/-- Passes over the rest of a string; surrogates need no partner and bytes no meaning. -/
def skipStringFrom (state : SkipState) : List UInt8 → Position → Except Error Cursor
  | [], position => Cursor.fail ⟨[], position⟩ .endInString
  | byte :: rest, position =>
    let after : Cursor := ⟨rest, position.after byte⟩
    match state with
    | .plain =>
      if byte = Ascii.quote then .ok after
      else if byte = Ascii.backslash then skipStringFrom .escape rest after.position
      else if byte < 0x20 then Cursor.fail ⟨byte :: rest, position⟩ .controlCharacter
      else skipStringFrom .plain rest after.position
    | .escape =>
      if byte = Ascii.lowerU then skipStringFrom (.hex []) rest after.position
      else if (escapedByte? byte).isSome then skipStringFrom .plain rest after.position
      else after.fail .invalidEscape
    | .hex digits =>
      if digits.length < 3 then skipStringFrom (.hex (digits ++ [byte])) rest after.position
      else if (hexValueOf? (digits ++ [byte])).isSome then
        skipStringFrom .plain rest after.position
      else after.fail .invalidEscape

/-- Passes over a string behind its opening quote. -/
def skipString (c : Cursor) : Except Error Cursor :=
  skipStringFrom .plain c.rest c.position

end MergeNotes.Json
