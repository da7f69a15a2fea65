import MergeNotes.Binary64

/-! JSON values, and what can be said about one in a word. -/

namespace MergeNotes.Json

/-- A JSON number: a natural below `2 ^ 64`, the negative of one up to `2 ^ 63`, or else rounded. -/
inductive Number where
  | natural (n : Nat)
  | negative (n : Nat)
  | float (x : Binary64)
  deriving DecidableEq, Repr

/-- A JSON value; of an object that was read the members are in the order of their keys. -/
inductive Value where
  | null
  | boolean (b : Bool)
  | number (n : Number)
  | string (s : String)
  | array (items : List Value)
  | object (members : List (String × Value))
  deriving Repr, Inhabited

/-- What a message says about a value that was found. -/
inductive Found where
  | null
  | boolean (b : Bool)
  | number (n : Number)
  | string (s : String)
  | array
  | object
  deriving DecidableEq, Repr

/-- What there is to say about a value: of an array or object only that it is one. -/
def Value.found : Value → Found
  | .null => .null
  | .boolean b => .boolean b
  | .number n => .number n
  | .string s => .string s
  | .array _ => .array
  | .object _ => .object

end MergeNotes.Json
