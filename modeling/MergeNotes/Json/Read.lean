import MergeNotes.Dict
import MergeNotes.Json.Numeral
import MergeNotes.Json.Text

/-! JSON texts read as values, and the steps by which arrays and objects are read. -/

namespace MergeNotes.Json

/-- Reads the bytes of a literal word behind its first letter. -/
def readWord : List UInt8 → Cursor → Except Error Cursor
  | [], c => .ok c
  | expected :: word, c =>
    match c.next? with
    | none => c.fail .endInValue
    | some (byte, after) =>
      if byte = expected then readWord word after else after.fail .expectedWord

/-- Reads the word `null` behind its first letter. -/
def readNull (c : Cursor) : Except Error Cursor :=
  readWord (Utf8.bytes "ull") c

/-- Reads the word `true` behind its first letter. -/
def readTrue (c : Cursor) : Except Error Cursor :=
  readWord (Utf8.bytes "rue") c

/-- Reads the word `false` behind its first letter. -/
def readFalse (c : Cursor) : Except Error Cursor :=
  readWord (Utf8.bytes "alse") c

/-- Whether an array goes on, and the place of the next item or of the closing bracket. -/
def nextItem (isFirst : Bool) (c : Cursor) : Except Error (Bool × Cursor) :=
  let c := c.skipSpace
  match c.next? with
  | none => c.fail .endInArray
  | some (byte, after) =>
    if byte = Ascii.closeBracket then .ok (false, c)
    else if isFirst then .ok (true, c)
    else if byte = Ascii.comma then
      let c := after.skipSpace
      match c.peek? with
      | none => c.fail .endInValue
      | some Ascii.closeBracket => c.failNext .trailingComma
      | some _ => .ok (true, c)
    else c.failNext .expectedItemEnd

/-- Whether an object goes on, and the place of the next key or of the closing brace. -/
def nextMember (isFirst : Bool) (c : Cursor) : Except Error (Bool × Cursor) :=
  let c := c.skipSpace
  match c.next? with
  | none => c.fail .endInObject
  | some (byte, after) =>
    if byte = Ascii.closeBrace then .ok (false, c)
    else if isFirst then
      if byte = Ascii.quote then .ok (true, c) else c.failNext .keyNotString
    else if byte = Ascii.comma then
      let c := after.skipSpace
      match c.peek? with
      | none => c.fail .endInValue
      | some Ascii.quote => .ok (true, c)
      | some Ascii.closeBrace => c.failNext .trailingComma
      | some _ => c.failNext .keyNotString
    else c.failNext .expectedMemberEnd

/-- Passes over the colon between a key and its value. -/
def readColon (c : Cursor) : Except Error Cursor :=
  let c := c.skipSpace
  match c.next? with
  | none => c.fail .endInObject
  | some (byte, after) => if byte = Ascii.colon then .ok after else c.failNext .expectedColon

/-- Passes over the closing bracket of an array that should end here. -/
def closeArray (c : Cursor) : Except Error Cursor :=
  let c := c.skipSpace
  match c.next? with
  | none => c.fail .endInArray
  | some (byte, after) =>
    if byte = Ascii.closeBracket then .ok after
    else if byte = Ascii.comma then
      let c := after.skipSpace
      if c.peek? = some Ascii.closeBracket then c.failNext .trailingComma
      else c.failNext .trailingCharacters
    else c.failNext .trailingCharacters

/-- Passes over the closing brace of an object that should end here. -/
def closeObject (c : Cursor) : Except Error Cursor :=
  let c := c.skipSpace
  match c.next? with
  | none => c.fail .endInObject
  | some (byte, after) =>
    if byte = Ascii.closeBrace then .ok after
    else if byte = Ascii.comma then c.failNext .trailingComma
    else c.failNext .trailingCharacters

/-- Where a reading stands once it has tried to leave an array. -/
def leaveArray (c : Cursor) : Cursor :=
  let c := c.skipSpace
  match c.next? with
  | some (Ascii.closeBracket, after) => after
  | some (Ascii.comma, after) => after.skipSpace
  | _ => c

/-- Where a reading stands once it has tried to leave an object. -/
def leaveObject (c : Cursor) : Cursor :=
  let c := c.skipSpace
  match c.next? with
  | some (Ascii.closeBrace, after) => after
  | _ => c

/-- Reads the items of an array up to its closing bracket; every item takes at least one byte, so
the fuel is the number of bytes left. -/
def readItems {α : Type} (item : Cursor → Except Error (α × Cursor)) :
    Nat → Nat → Cursor → Except Error (List α × Cursor)
  | 0, _, c => c.fail .endInArray
  | fuel + 1, index, c => do
    match ← nextItem (index == 0) c with
    | (false, c) => .ok ([], c)
    | (true, c) =>
      let (value, c) ← within (.item index) (item c)
      let (values, c) ← readItems item fuel (index + 1) c
      .ok (value :: values, c)

/-- Reads an array behind its opening bracket. -/
def readArray {α : Type} (item : Cursor → Except Error (α × Cursor)) (c : Cursor) :
    Except Error (List α × Cursor) := do
  let (values, c) ← readItems item (c.rest.length + 1) 0 c
  .ok (values, ← closeArray c)

/-- Reads the members of an object up to its closing brace, keys from their opening quote. -/
def readMembers {κ ν : Type} (key : Cursor → Except Error (κ × Cursor)) (keyText : κ → String)
    (value : Cursor → Except Error (ν × Cursor)) :
    Nat → Bool → Cursor → Except Error (List (κ × ν) × Cursor)
  | 0, _, c => c.fail .endInObject
  | fuel + 1, isFirst, c => do
    match ← within .unknown (nextMember isFirst c) with
    | (false, c) => .ok ([], c)
    | (true, c) =>
      let (name, c) ← key c
      let c ← readColon c
      let (held, c) ← within (.member (keyText name)) (value c)
      let (members, c) ← readMembers key keyText value fuel false c
      .ok ((name, held) :: members, c)

/-- Reads an object behind its opening brace. -/
def readObject {κ ν : Type} (key : Cursor → Except Error (κ × Cursor)) (keyText : κ → String)
    (value : Cursor → Except Error (ν × Cursor)) (c : Cursor) :
    Except Error (List (κ × ν) × Cursor) := do
  let (members, c) ← readMembers key keyText value (c.rest.length + 1) true c
  .ok (members, ← closeObject c)

/-- Reads a key that is any string, from its opening quote. -/
def readKey (c : Cursor) : Except Error (String × Cursor) :=
  within .unknown (readString c.advance)

/-- Members in the order of their keys, of several with one key the last. -/
def sortMembers {ν : Type} (members : List (String × ν)) : List (String × ν) :=
  members.foldl (fun sorted member => insertEntry member.1 member.2 sorted) []

/-- Reads a value in which arrays and objects are nested at most so deep. -/
def readValue : Nat → Cursor → Except Error (Value × Cursor)
  | depth, c => do
    let c := c.skipSpace
    match c.next? with
    | none => c.fail .endInValue
    | some (byte, after) =>
      if byte = Ascii.lowerN then .ok (.null, ← readNull after)
      else if byte = Ascii.lowerT then .ok (.boolean true, ← readTrue after)
      else if byte = Ascii.lowerF then .ok (.boolean false, ← readFalse after)
      else if byte = Ascii.minus then
        let (number, c) ← readNumber true after
        .ok (.number number, c)
      else if (Ascii.digit? byte).isSome then
        let (number, c) ← readNumber false c
        .ok (.number number, c)
      else if byte = Ascii.quote then
        let (text, c) ← readString after
        .ok (.string text, c)
      else if byte = Ascii.openBracket then
        match depth with
        | 0 => c.failNext .nestedTooDeep
        | depth + 1 =>
          let (items, c) ← readArray (readValue depth) after
          .ok (.array items, c)
      else if byte = Ascii.openBrace then
        match depth with
        | 0 => c.failNext .nestedTooDeep
        | depth + 1 =>
          let (members, c) ← readObject readKey id (readValue depth) after
          .ok (.object (sortMembers members), c)
      else c.failNext .expectedValue

/-- Refuses a text that goes on behind its value. -/
def expectEnd (c : Cursor) : Except Error Unit :=
  let c := c.skipSpace
  match c.peek? with
  | none => .ok ()
  | some _ => c.failNext .trailingCharacters

/-- Reads bytes that hold one value and nothing else. -/
def readWhole {α : Type} (read : Cursor → Except Error (α × Cursor)) (text : List UInt8) :
    Except Error α := do
  let (value, c) ← read (Cursor.start text)
  expectEnd c
  .ok value

/-- How deep arrays and objects may be nested. -/
def nestingLimit : Nat := 127

/-- The value of a JSON text. -/
def parse (text : String) : Except Error Value :=
  readWhole (readValue nestingLimit) (Utf8.bytes text)

/-- Passes over the items of an array behind its opening bracket. -/
def skipItems (item : Cursor → Except Error Cursor) : Nat → Cursor → Except Error Cursor
  | 0, c => c.fail .endInArray
  | fuel + 1, c => do
    let c := (← item c).skipSpace
    match c.next? with
    | none => c.fail .endInArray
    | some (byte, after) =>
      if byte = Ascii.comma then skipItems item fuel after
      else if byte = Ascii.closeBracket then .ok after
      else c.failNext .expectedItemEnd

/-- Passes over the members of an object from its first key on. -/
def skipMembers (value : Cursor → Except Error Cursor) : Nat → Cursor → Except Error Cursor
  | 0, c => c.fail .endInObject
  | fuel + 1, c => do
    let c := c.skipSpace
    match c.next? with
    | none => c.fail .endInObject
    | some (byte, after) =>
      if byte ≠ Ascii.quote then c.failNext .keyNotString
      else
        let c := (← value (← readColon (← skipString after))).skipSpace
        match c.next? with
        | none => c.fail .endInObject
        | some (byte, after) =>
          if byte = Ascii.comma then skipMembers value fuel after
          else if byte = Ascii.closeBrace then .ok after
          else c.failNext .expectedMemberEnd

/-- Passes over a value of any depth; the fuel exceeds the bytes left. -/
def skipValueWithin : Nat → Cursor → Except Error Cursor
  | 0, c => c.fail .endInValue
  | fuel + 1, c =>
    let c := c.skipSpace
    match c.next? with
    | none => c.fail .endInValue
    | some (byte, after) =>
      if byte = Ascii.lowerN then readNull after
      else if byte = Ascii.lowerT then readTrue after
      else if byte = Ascii.lowerF then readFalse after
      else if byte = Ascii.minus then skipNumber after
      else if (Ascii.digit? byte).isSome then skipNumber c
      else if byte = Ascii.quote then skipString after
      else if byte = Ascii.openBracket then
        let inner := after.skipSpace
        match inner.next? with
        | none => inner.fail .endInArray
        | some (Ascii.closeBracket, after) => .ok after
        | some _ => skipItems (skipValueWithin fuel) (inner.rest.length + 1) inner
      else if byte = Ascii.openBrace then
        let inner := after.skipSpace
        match inner.next? with
        | none => inner.fail .endInObject
        | some (Ascii.closeBrace, after) => .ok after
        | some _ => skipMembers (skipValueWithin fuel) (inner.rest.length + 1) inner
      else c.failNext .expectedValue

/-- Passes over a value that nobody asked for, checking its grammar only. -/
def skipValue (c : Cursor) : Except Error Cursor :=
  skipValueWithin (c.rest.length + 1) c

end MergeNotes.Json
