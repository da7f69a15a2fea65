import MergeNotes.Json.Value
import MergeNotes.Text.Quoted

/-! Why a JSON text or value was refused, where, and the words for it. -/

namespace MergeNotes.Json

/-- A line, counted from one, and the bytes of it that come before. -/
structure Position where
  line : Nat
  column : Nat
  deriving DecidableEq, Repr

/-- One step from a value to a part of it; the key of a member may be unreadable. -/
inductive Segment where
  | item (index : Nat)
  | member (key : String)
  | unknown
  deriving DecidableEq, Repr

/-- A breach of the grammar of JSON texts. -/
inductive Defect where
  | endInArray
  | endInObject
  | endInString
  | endInValue
  | expectedColon
  | expectedItemEnd
  | expectedMemberEnd
  | expectedWord
  | expectedValue
  | expectedQuote
  | invalidEscape
  | invalidNumber
  | numberOutOfRange
  | invalidCodePoint
  | controlCharacter
  | keyNotString
  | keyNotNumeric
  | loneSurrogate
  | trailingComma
  | trailingCharacters
  | endOfEscape
  | nestedTooDeep
  deriving DecidableEq, Repr

/-- A value that is not of the wanted type. -/
inductive Mismatch where
  | wrongType (found : Found) (expected : String)
  | wrongValue (found : Found) (expected : String)
  | wrongLength (length : Nat) (expected : String)
  | unknownVariant (name : String) (allowed : List String)
  | missingField (name : String)
  | duplicateField (name : String)
  deriving DecidableEq, Repr

/-- A refusal is about the text itself or about what it says. -/
inductive Fault where
  | grammar (defect : Defect)
  | content (mismatch : Mismatch)
  deriving DecidableEq, Repr

/-- A refusal with the place in the text, where there is a text, and the path to the part. -/
structure Error where
  fault : Fault
  position : Option Position
  path : List Segment
  deriving DecidableEq, Repr

/-- The words for a breach of the grammar. -/
def Defect.message : Defect → String
  | .endInArray => "EOF while parsing a list"
  | .endInObject => "EOF while parsing an object"
  | .endInString => "EOF while parsing a string"
  | .endInValue => "EOF while parsing a value"
  | .expectedColon => "expected `:`"
  | .expectedItemEnd => "expected `,` or `]`"
  | .expectedMemberEnd => "expected `,` or `\x7d`"
  | .expectedWord => "expected ident"
  | .expectedValue => "expected value"
  | .expectedQuote => "expected `\"`"
  | .invalidEscape => "invalid escape"
  | .invalidNumber => "invalid number"
  | .numberOutOfRange => "number out of range"
  | .invalidCodePoint => "invalid unicode code point"
  | .controlCharacter => "control character (\\u0000-\\u001F) found while parsing a string"
  | .keyNotString => "key must be a string"
  | .keyNotNumeric => "invalid value: expected key to be a number in quotes"
  | .loneSurrogate => "lone leading surrogate in hex escape"
  | .trailingComma => "trailing comma"
  | .trailingCharacters => "trailing characters"
  | .endOfEscape => "unexpected end of hex escape"
  | .nestedTooDeep => "recursion limit exceeded"

/-- The words for a value that was found. -/
def Found.message : Found → String
  | .null => "null"
  | .boolean b => "boolean `" ++ (if b then "true" else "false") ++ "`"
  | .number (.natural n) => "integer `" ++ decimal n ++ "`"
  | .number (.negative n) => "integer `-" ++ decimal n ++ "`"
  | .number (.float x) => "floating point `" ++ x.text ++ "`"
  | .string s => "string " ++ quoted s
  | .array => "sequence"
  | .object => "map"

/-- A name between backticks. -/
def ticked (name : String) : String :=
  "`" ++ name ++ "`"

/-- The names that were allowed, as an enumeration. -/
def oneOf : List String → String
  | [] => "there are no variants"
  | [name] => ticked name
  | [first, second] => ticked first ++ " or " ++ ticked second
  | names => "one of " ++ ", ".intercalate (names.map ticked)

/-- The words for a value of the wrong type. -/
def Mismatch.message : Mismatch → String
  | .wrongType found expected => "invalid type: " ++ found.message ++ ", expected " ++ expected
  | .wrongValue found expected => "invalid value: " ++ found.message ++ ", expected " ++ expected
  | .wrongLength length expected => "invalid length " ++ decimal length ++ ", expected " ++ expected
  | .unknownVariant name allowed =>
    "unknown variant " ++ ticked name ++ ", expected " ++ oneOf allowed
  | .missingField name => "missing field " ++ ticked name
  | .duplicateField name => "duplicate field " ++ ticked name

/-- The words for a refusal, without the place. -/
def Fault.message : Fault → String
  | .grammar defect => defect.message
  | .content mismatch => mismatch.message

/-- The words for a refusal, with the place in the text. -/
def Error.message (error : Error) : String :=
  match error.position with
  | none => error.fault.message
  | some position =>
    error.fault.message ++ " at line " ++ decimal position.line ++ " column " ++
      decimal position.column

/-- The same refusal, seen from the value that the part belongs to. -/
def Error.within (segment : Segment) (error : Error) : Error :=
  { error with path := segment :: error.path }

/-- A path in words: member keys with dots between, item numbers in brackets. -/
def pathText (path : List Segment) : String :=
  let text (segment : Segment) : String :=
    match segment with
    | .item index => "[" ++ decimal index ++ "]"
    | .member key => key
    | .unknown => "?"
  match path with
  | [] => "."
  | first :: rest =>
    rest.foldl (fun written segment =>
      match segment with
      | .item _ => written ++ text segment
      | _ => written ++ "." ++ text segment) (text first)

/-- The message behind the path to the part, when a step of that path is known. -/
def Error.messageWithPath (error : Error) : String :=
  if error.path.all (· == .unknown) then error.message
  else pathText error.path ++ ": " ++ error.message

end MergeNotes.Json
