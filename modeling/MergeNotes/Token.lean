import MergeNotes.Text.Utf8

/-! Access tokens, and the headers that carry them. -/

namespace MergeNotes

/-- The bytes that a header value may hold: all but the controls, of which it may hold the tab. -/
def isHeaderByte (byte : UInt8) : Bool :=
  byte == 0x09 || (0x20 ≤ byte && byte != 0x7F)

/-- An access token that a header can carry. -/
structure Token where
  text : String
  sendable : (Utf8.bytes text).all isHeaderByte = true

namespace Token

/-- The name of the header that carries the token. -/
def headerName : String := "PRIVATE-TOKEN"

/-- A token, if a header can carry its text. -/
def ofString? (text : String) : Option Token :=
  if sendable : (Utf8.bytes text).all isHeaderByte = true then some ⟨text, sendable⟩ else none

/-- The headers of every request, in the order of their names. -/
def headers (token : Token) : List (String × String) :=
  [("accept", "application/json"), ("private-token", token.text),
    ("user-agent", "mr-decorator/0.1")]

end Token

end MergeNotes
