import MergeNotes.Json.Value

/-! The text of a JSON value, without blanks. -/

namespace MergeNotes.Json

/-- The lower-case hexadecimal digit for a value below sixteen. -/
def hexDigit (value : Nat) : Char :=
  if value < 10 then Char.ofNat (0x30 + value) else Char.ofNat (0x57 + value)

/-- A character in a string; quotes, backslashes and controls are escaped. -/
def printChar (c : Char) : List Char :=
  if c = '"' then ['\\', '"']
  else if c = '\\' then ['\\', '\\']
  else if c = '\x08' then ['\\', 'b']
  else if c = '\x0C' then ['\\', 'f']
  else if c = '\n' then ['\\', 'n']
  else if c = '\r' then ['\\', 'r']
  else if c = '\t' then ['\\', 't']
  else if c.toNat < 0x20 then
    ['\\', 'u', '0', '0', hexDigit (c.toNat / 16), hexDigit (c.toNat % 16)]
  else [c]

/-- A string between quotes. -/
def printString (text : String) : List Char :=
  '"' :: text.toList.flatMap printChar ++ ['"']

/-- A number. -/
def Number.print : Number → List Char
  | .natural n => decimalDigits n
  | .negative n => '-' :: decimalDigits n
  | .float x => x.text.toList

mutual

/-- A value. -/
def Value.print : Value → List Char
  | .null => "null".toList
  | .boolean true => "true".toList
  | .boolean false => "false".toList
  | .number n => n.print
  | .string s => printString s
  | .array items => '[' :: printItems items ++ [']']
  | .object members => '{' :: printMembers members ++ ['}']

/-- The items of an array with commas between. -/
def printItems : List Value → List Char
  | [] => []
  | [item] => item.print
  | item :: items => item.print ++ ',' :: printItems items

/-- The members of an object with commas between. -/
def printMembers : List (String × Value) → List Char
  | [] => []
  | [(key, content)] => printString key ++ ':' :: content.print
  | (key, content) :: members =>
    printString key ++ ':' :: content.print ++ ',' :: printMembers members

end

/-- The text of a value. -/
def Value.text (value : Value) : String :=
  String.ofList value.print

end MergeNotes.Json
