import MergeNotes.Json.Cursor
import MergeNotes.Text.Ascii

/-! The numbers of a JSON text. -/

namespace MergeNotes.Json

/-- The decimal digits that come next, and the place after them. -/
def takeDigits (c : Cursor) : List Nat × Cursor :=
  go c.rest c.position
where
  /-- Collects the digits at the head of the bytes. -/
  go : List UInt8 → Position → List Nat × Cursor
    | [], position => ([], ⟨[], position⟩)
    | byte :: rest, position =>
      match Ascii.digit? byte with
      | none => ([], ⟨byte :: rest, position⟩)
      | some digit =>
        let (digits, after) := go rest (position.after byte)
        (digit :: digits, after)

/-- Digits appended to a number while it stays below the limit, and how many were not. -/
def appendDigits (limit : Nat) : Nat → List Nat → Nat × Nat
  | total, [] => (total, 0)
  | total, digit :: digits =>
    if total * 10 + digit < limit then appendDigits limit (total * 10 + digit) digits
    else (total, digits.length + 1)

/-- Ten to a power up to 308, rounded. -/
def tenTo (exponent : Nat) : Binary64 :=
  Binary64.ofNat (Nat.pow 10 exponent)

/-- Divides by ten to a power in steps of at most 308 places, until nothing is left. -/
def scaleDown : Nat → Binary64 → Nat → Binary64
  | 0, x, _ => x
  | fuel + 1, x, places =>
    if places ≤ 308 then (x.div? (tenTo places)).getD x
    else if x.significand = 0 then x
    else scaleDown fuel ((x.div? (tenTo 308)).getD x) (places - 308)

/-- A significand times a power of ten, by one rounded product or by rounded quotients; nothing
when it is too large. -/
def scaled? (significand : Nat) (exponent : Int) : Option Binary64 :=
  let x := Binary64.ofNat significand
  if significand = 0 then some x
  else if 308 < exponent then none
  else if 0 ≤ exponent then x.mul? (tenTo exponent.toNat)
  else some (scaleDown (exponent.natAbs / 308 + 1) x exponent.natAbs)

/-- A float from its parts, as read up to this place. -/
def readScaled (negative : Bool) (significand : Nat) (exponent : Int) (c : Cursor) :
    Except Error (Number × Cursor) :=
  match scaled? significand exponent with
  | some x => .ok (.float { x with negative }, c)
  | none => c.fail .numberOutOfRange

/-- An exponent as it is being read: within 32 bits, or beyond them from some digit on. -/
def readExponentDigits (total : Nat) : List UInt8 → Position → (Nat ⊕ Unit) × Cursor
  | [], position => (.inl total, ⟨[], position⟩)
  | byte :: rest, position =>
    match Ascii.digit? byte with
    | none => (.inl total, ⟨byte :: rest, position⟩)
    | some digit =>
      if total * 10 + digit < 1 <<< 31 then
        readExponentDigits (total * 10 + digit) rest (position.after byte)
      else (.inr (), ⟨rest, position.after byte⟩)

/-- Reads the exponent behind its letter. -/
def readExponent (negative : Bool) (significand : Nat) (exponent : Int) (c : Cursor) :
    Except Error (Number × Cursor) :=
  let (down, c) : Bool × Cursor :=
    match c.next? with
    | some (Ascii.plus, after) => (false, after)
    | some (Ascii.minus, after) => (true, after)
    | _ => (false, c)
  match c.next? with
  | none => c.fail .endInValue
  | some (byte, after) =>
    match Ascii.digit? byte with
    | none => after.fail .invalidNumber
    | some first =>
      match readExponentDigits first after.rest after.position with
      | (.inl total, after) =>
        readScaled negative significand (if down then exponent - total else exponent + total) after
      | (.inr (), after) =>
        -- Such an exponent leaves nothing or is out of every range.
        if significand ≠ 0 ∧ !down then after.fail .numberOutOfRange
        else .ok (.float ⟨negative, 0, 0⟩, (takeDigits after).2)

/-- Reads the digits behind the decimal point. -/
def readFraction (negative : Bool) (significand : Nat) (exponent : Int) (c : Cursor) :
    Except Error (Number × Cursor) :=
  let (digits, after) := takeDigits c
  if digits.isEmpty then
    match c.peek? with
    | none => c.fail .endInValue
    | some _ => c.failNext .invalidNumber
  else
    let (significand, dropped) := appendDigits UInt64.size significand digits
    let exponent := exponent - (digits.length - dropped : Nat)
    match after.next? with
    | some (Ascii.lowerE, after) | some (Ascii.upperE, after) =>
      readExponent negative significand exponent after
    | _ => readScaled negative significand exponent after

/-- A number without fraction and exponent: an integer if 64 bits hold it. -/
def wholeNumber (negative : Bool) (n : Nat) : Number :=
  if !negative then .natural n
  else if n = 0 ∨ 1 <<< 63 < n then .float { Binary64.ofNat n with negative := true }
  else .negative n

/-- Reads a number behind its sign. -/
def readNumber (negative : Bool) (c : Cursor) : Except Error (Number × Cursor) :=
  match takeDigits c with
  | ([], _) =>
    match c.next? with
    | none => c.fail .endInValue
    | some (_, after) => after.fail .invalidNumber
  | (0 :: _ :: _, _) => c.advance.failNext .invalidNumber
  | (digits, after) =>
    let (significand, dropped) := appendDigits UInt64.size 0 digits
    match after.next? with
    | some (Ascii.point, after) => readFraction negative significand dropped after
    | some (Ascii.lowerE, after) | some (Ascii.upperE, after) =>
      readExponent negative significand dropped after
    | _ =>
      if dropped = 0 then .ok (wholeNumber negative significand, after)
      else readScaled negative significand dropped after

/-- Passes over an exponent behind its letter. -/
def skipExponent (c : Cursor) : Except Error Cursor :=
  let c :=
    match c.next? with
    | some (Ascii.plus, after) | some (Ascii.minus, after) => after
    | _ => c
  match takeDigits c with
  | ([], _) => c.failNext .invalidNumber
  | (_, after) => .ok after

/-- Passes over a number behind its sign, whatever its size. -/
def skipNumber (c : Cursor) : Except Error Cursor :=
  match takeDigits c with
  | ([], _) => c.failNext .invalidNumber
  | (0 :: _ :: _, _) => c.advance.failNext .invalidNumber
  | (_, after) =>
    match after.next? with
    | some (Ascii.point, fraction) =>
      match takeDigits fraction with
      | ([], _) => fraction.failNext .invalidNumber
      | (_, after) =>
        match after.next? with
        | some (Ascii.lowerE, exponent) | some (Ascii.upperE, exponent) => skipExponent exponent
        | _ => .ok after
    | some (Ascii.lowerE, exponent) | some (Ascii.upperE, exponent) => skipExponent exponent
    | _ => .ok after

end MergeNotes.Json
