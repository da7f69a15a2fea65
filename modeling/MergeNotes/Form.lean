import MergeNotes.Percent
import MergeNotes.Text.Search

/-! URL-encoded forms: name and value pairs as one text, and that text read back. -/

namespace MergeNotes.Form

/-- The characters that stand for themselves in a form. -/
def isKept (c : Char) : Bool :=
  Percent.isAlphanumeric c || c == '*' || c == '-' || c == '.' || c == '_'

/-- A character in a form; a space is written as a plus sign. -/
def encodeChar (c : Char) : List Char :=
  if c = ' ' then ['+'] else Percent.encodeChar isKept c

/-- A name or value in a form. -/
def encodeText (text : List Char) : List Char :=
  text.flatMap encodeChar

/-- One pair. -/
def encodePair (name value : String) : List Char :=
  encodeText name.toList ++ '=' :: encodeText value.toList

/-- Pairs joined by ampersands. -/
def encode (pairs : List (String × String)) : List Char :=
  ['&'].intercalate (pairs.map fun (name, value) => encodePair name value)

/-- A name or value read back. -/
def decodeText (text : List Char) : String :=
  let spaced := text.map fun c => if c = '+' then ' ' else c
  String.ofList (Utf8.decodeLossy (Percent.decode (Utf8.encode spaced)))

/-- The pairs of a form; empty pieces are none, and a piece without an equals sign is a name. -/
def decode (text : List Char) : List (String × String) :=
  ((splitAtEach (· == '&') text).filter (!·.isEmpty)).map fun piece =>
    match splitOnce? ['='] piece with
    | some (name, value) => (decodeText name, decodeText value)
    | none => (decodeText piece, "")

end MergeNotes.Form
