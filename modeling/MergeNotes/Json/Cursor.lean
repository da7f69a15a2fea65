import MergeNotes.Json.Error
import MergeNotes.Text.Utf8

/-! A place in a JSON text: the bytes still to read and the position they start at. -/

namespace MergeNotes.Json

/-- The position after one more byte. -/
def Position.after (position : Position) (byte : UInt8) : Position :=
  if byte = 0x0A then ⟨position.line + 1, 0⟩ else ⟨position.line, position.column + 1⟩

/-- A place in a text. -/
structure Cursor where
  rest : List UInt8
  position : Position
  deriving Repr

namespace Cursor

/-- The start of a text. -/
def start (text : List UInt8) : Cursor :=
  ⟨text, ⟨1, 0⟩⟩

/-- The next byte and the place after it. -/
def next? (c : Cursor) : Option (UInt8 × Cursor) :=
  match c.rest with
  | [] => none
  | byte :: rest => some (byte, ⟨rest, c.position.after byte⟩)

/-- The next byte. -/
def peek? (c : Cursor) : Option UInt8 :=
  c.rest.head?

/-- The place after the next byte, if there is one. -/
def advance (c : Cursor) : Cursor :=
  match c.next? with
  | none => c
  | some (_, after) => after

/-- A breach of the grammar that shows at this place. -/
def fail {α : Type} (c : Cursor) (defect : Defect) : Except Error α :=
  .error ⟨.grammar defect, some c.position, []⟩

/-- A breach of the grammar by the byte to come, which counts as seen. -/
def failNext {α : Type} (c : Cursor) (defect : Defect) : Except Error α :=
  c.advance.fail defect

/-- A mismatch, placed where the reading stands. -/
def refuse {α : Type} (c : Cursor) (mismatch : Mismatch) : Except Error α :=
  .error ⟨.content mismatch, some c.position, []⟩

/-- The four bytes that JSON allows between tokens. -/
def isSpace (byte : UInt8) : Bool :=
  byte == 0x20 || byte == 0x0A || byte == 0x09 || byte == 0x0D

/-- The place of the next token. -/
def skipSpace (c : Cursor) : Cursor :=
  go c.rest c.position
where
  /-- Passes over the spaces at the head of the bytes. -/
  go : List UInt8 → Position → Cursor
    | [], position => ⟨[], position⟩
    | byte :: rest, position =>
      if isSpace byte then go rest (position.after byte) else ⟨byte :: rest, position⟩

end Cursor

/-- A refusal inside a part is one of the whole. -/
def within {α : Type} (segment : Segment) (reading : Except Error α) : Except Error α :=
  reading.mapError (Error.within segment)

end MergeNotes.Json
