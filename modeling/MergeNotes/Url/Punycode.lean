import MergeNotes.Text.Search

/-! Labels of domains in ASCII form, which write characters beyond ASCII as digits of base 36. -/

namespace MergeNotes.Url.Punycode

/-- The value of a digit. -/
def digit? (c : Char) : Option Nat :=
  if 'a' ≤ c ∧ c ≤ 'z' then some (c.toNat - 0x61)
  else if '0' ≤ c ∧ c ≤ '9' then some (c.toNat - 0x30 + 26)
  else none

/-- Where the reading of the digits has come to. -/
structure State where
  /-- The character that was last put in; each is at least as great as the one before. -/
  code : Nat
  /-- How many characters there are. -/
  length : Nat
  bias : Nat
  /-- Where the last character was put in, or rather the place behind that. -/
  start : Nat
  /-- The place and character to come, as far as the digits have told. -/
  total : Nat
  /-- What the next digit counts, and its number times 36. -/
  weight : Nat
  reach : Nat
  deriving DecidableEq, Repr

/-- The bias that a distance leads to. -/
def settle (distance : Nat) : Nat :=
  if 455 < distance then 36 + settle (distance / 35) else 36 * distance / (distance + 38)
termination_by distance

/-- The bias for the next number. -/
def adapt (distance length : Nat) (first : Bool) : Nat :=
  let distance := if first then distance / 700 else distance / 2
  settle (distance + distance / length)

/-- The state behind a whole number, which says what to put in and where. -/
def insert? (state : State) (total : Nat) : Option State :=
  let length := state.length + 1
  let code := state.code + total / length
  let next := total % length + 1
  -- No controls, no surrogates, nothing beyond the last character.
  if code < 0xA0 ∨ (0xD800 ≤ code ∧ code ≤ 0xDFFF) ∨ 0x10FFFF < code then none
  else
    some ⟨code, length, adapt (total - state.start) length (state.start = 0), next, next, 1, 36⟩

/-- The state behind one more digit; numbers have at most 32 bits. -/
def step? (state : State) (digit : Nat) : Option State :=
  let total := state.total + digit * state.weight
  let least := min 26 (max 1 (state.reach - state.bias))
  let weight := state.weight * (36 - least)
  if UInt32.size ≤ total then none
  else if digit < least then insert? state total
  else if UInt32.size ≤ weight then none
  else some { state with total, weight, reach := state.reach + 36 }

/-- The most digits and plain characters that a label is read from. -/
def longestText : Nat := 2000

/-- The most characters that a label may have. -/
def longestLabel : Nat := 1000

/-- Whether a text, which is a label without its mark, writes at least one character beyond
ASCII and nothing that is wrong. -/
def isWellFormed (text : List Char) : Bool :=
  let (basic, digits) :=
    match text.reverse.span (· != '-') with
    | (digits, _ :: basic@(_ :: _)) => (basic, digits.reverse)
    | _ => ([], text)
  let start : State := ⟨128, basic.length, 72, 0, 0, 1, 36⟩
  let read (state : State) (c : Char) : Option State := (digit? c).bind (step? state)
  match if text.length ≤ longestText then digits.foldlM read start else none with
  | some state =>
    basic.length < state.length && state.length ≤ longestLabel && state.weight == 1
  | none => false

/-- Whether a label is no label in ASCII form, or is one rightly. -/
def isLabel (label : List Char) : Bool :=
  (after? "xn--".toList label).all isWellFormed

end MergeNotes.Url.Punycode
