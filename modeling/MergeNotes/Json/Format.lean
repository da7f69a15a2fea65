import MergeNotes.Json.Read

/-! Formats: how a type is read from JSON text, decoded from a JSON value, and encoded as one. -/

namespace MergeNotes.Json

/-- The JSON form of a type. -/
structure Format (α : Type) where
  /-- Reads text in one pass and stops at the first fault. -/
  read : Cursor → Except Error (α × Cursor)
  /-- Decodes a value that was read before. -/
  decode : Value → Except Error α
  encode : α → Value

/-- A mismatch in a value, which has no place in any text. -/
def mismatch {α : Type} (mismatch : Mismatch) : Except Error α :=
  .error ⟨.content mismatch, none, []⟩

/-- A value of the wrong type. -/
def wrongType {α : Type} (value : Value) (expected : String) : Except Error α :=
  mismatch (.wrongType value.found expected)

/-- A token of the wrong type: it is read as far as a message needs it. -/
def refuseToken {α : Type} (expected : String) (c : Cursor) : Except Error α := do
  match c.next? with
  | none => c.fail .expectedValue
  | some (byte, after) =>
    let refuse (found : Found) (c : Cursor) : Except Error α :=
      c.refuse (.wrongType found expected)
    if byte = Ascii.lowerN then refuse .null (← readNull after)
    else if byte = Ascii.lowerT then refuse (.boolean true) (← readTrue after)
    else if byte = Ascii.lowerF then refuse (.boolean false) (← readFalse after)
    else if byte = Ascii.minus then
      let (number, c) ← readNumber true after
      refuse (.number number) c
    else if (Ascii.digit? byte).isSome then
      let (number, c) ← readNumber false c
      refuse (.number number) c
    else if byte = Ascii.quote then
      let (text, c) ← readString after
      refuse (.string text) c
    else if byte = Ascii.openBracket then refuse .array c
    else if byte = Ascii.openBrace then refuse .object c
    else c.failNext .expectedValue

/-- The next token, its first byte and the place behind that. -/
def nextToken (c : Cursor) : Except Error (Cursor × UInt8 × Cursor) :=
  let c := c.skipSpace
  match c.next? with
  | none => c.fail .endInValue
  | some (byte, after) => .ok (c, byte, after)

namespace Format

variable {α β : Type}

/-- Reads a text that holds one value and nothing else. -/
def readText (format : Format α) (text : String) : Except Error α :=
  readWhole format.read (Utf8.bytes text)

/-- Decodes a text by way of its value. A lone value is accepted where a list is expected, and an
empty array as an absent value; a refusal is always that of the value as it stands. -/
def decodeLenient (format : Format α) (text : String) : Except Error α := do
  let value ← parse text
  let again : Option Value :=
    match value with
    | .array [] => some .null
    | .array _ => none
    | value => some (.array [value])
  match format.decode value with
  | .ok decoded => .ok decoded
  | .error refusal =>
    match again.map format.decode with
    | some (.ok decoded) => .ok decoded
    | _ => .error refusal

/-- A type in one-to-one correspondence with another has the form of that. -/
def transport (format : Format α) (make : α → β) (parts : β → α) : Format β where
  read c := (format.read c).map fun (value, after) => (make value, after)
  decode value := (format.decode value).map make
  encode value := format.encode (parts value)

/-- Strings as JSON strings. -/
def string : Format String where
  read c := do
    let (c, byte, after) ← nextToken c
    if byte = Ascii.quote then readString after else refuseToken "a string" c
  decode
    | .string text => .ok text
    | value => wrongType value "a string"
  encode text := .string text

/-- A number as a natural below the limit of a type with this name. -/
def fitNumber (name : String) (limit : Nat) (number : Number) : Except Mismatch Nat :=
  match number with
  | .natural n => if n < limit then .ok n else .error (.wrongValue (.number number) name)
  | .negative _ => .error (.wrongValue (.number number) name)
  | .float _ => .error (.wrongType (.number number) name)

/-- Naturals below the limit of a type with this name as JSON integers. -/
def natural (name : String) (limit : Nat) : Format Nat where
  read c := do
    let (c, byte, after) ← nextToken c
    let (number, c) ←
      if byte = Ascii.minus then readNumber true after
      else if (Ascii.digit? byte).isSome then readNumber false c
      else refuseToken name c
    match fitNumber name limit number with
    | .ok n => .ok (n, c)
    | .error mismatch => c.refuse mismatch
  decode
    | .number number =>
      match fitNumber name limit number with
      | .ok n => .ok n
      | .error reason => mismatch reason
    | value => wrongType value name
  encode n := .number (.natural n)

/-- Words of 32 bits as JSON integers. -/
def u32 : Format UInt32 :=
  (natural "u32" UInt32.size).transport UInt32.ofNat UInt32.toNat

/-- Words of 64 bits as JSON integers. -/
def u64 : Format UInt64 :=
  (natural "u64" UInt64.size).transport UInt64.ofNat UInt64.toNat

/-- What may be absent is `null` or has the form of what is present. -/
def option (format : Format α) : Format (Option α) where
  read c := do
    let c := c.skipSpace
    match c.next? with
    | some (Ascii.lowerN, after) => .ok (none, ← readNull after)
    | _ =>
      let (value, c) ← format.read c
      .ok (some value, c)
  decode
    | .null => .ok none
    | value => (format.decode value).map some
  encode
    | none => .null
    | some value => format.encode value

/-- Lists as JSON arrays. -/
def list (format : Format α) : Format (List α) where
  read c := do
    let (c, byte, after) ← nextToken c
    if byte = Ascii.openBracket then readArray format.read after else refuseToken "a sequence" c
  decode
    | .array items => items.mapM format.decode
    | value => wrongType value "a sequence"
  encode values := .array (values.map format.encode)

/-- One of a few constants, each with a name. -/
def choose (options : List (String × α)) (name : String) : Except Mismatch α :=
  match options.lookup name with
  | some value => .ok value
  | none => .error (.unknownVariant name (options.map (·.1)))

/-- Named constants as strings, or as objects whose only member has that name and is `null`. -/
def choice (options : List (String × α)) (nameOf : α → String) : Format α where
  read c := do
    let readName (c : Cursor) : Except Error (String × α × Cursor) := do
      let (name, c) ← string.read c
      match choose options name with
      | .ok value => .ok (name, value, c)
      | .error mismatch => c.refuse mismatch
    let (c, byte, after) ← nextToken c
    if byte = Ascii.openBrace then
      let (name, value, c) ←
        match ← nextMember true after with
        | (true, c) => readName c
        | (false, c) => c.failNext .expectedValue
      let c ← readColon c
      let c ← within (.member name) do
        let (c, byte, after) ← nextToken c
        if byte = Ascii.lowerN then readNull after else refuseToken "unit" c
      let c := c.skipSpace
      match c.next? with
      | none => c.fail .endInObject
      | some (byte, after) =>
        if byte = Ascii.closeBrace then .ok (value, after) else c.fail .expectedValue
    else if byte = Ascii.quote then
      let (_, value, c) ← readName c
      .ok (value, c)
    else c.failNext .expectedValue
  decode
    | .string name =>
      match choose options name with
      | .ok value => .ok value
      | .error reason => mismatch reason
    | .object [(name, content)] =>
      match choose options name with
      | .ok value =>
        match content with
        | .null => .ok value
        | content => wrongType content "unit"
      | .error reason => mismatch reason
    | .object _ => mismatch (.wrongValue .object "map with a single key")
    | value => wrongType value "string or map"
  encode value := .string (nameOf value)

end Format

/-- How the keys of an object stand for a type. -/
structure KeyFormat (κ : Type) where
  /-- Reads a key from its opening quote. -/
  read : Cursor → Except Error (κ × Cursor)
  decode : String → Except Error κ
  text : κ → String

namespace KeyFormat

/-- Strings stand for themselves. -/
def string : KeyFormat String where
  read := readKey
  decode := .ok
  text := id

/-- Whether a number begins with this byte. -/
def beginsNumber (byte : UInt8) : Bool :=
  byte == Ascii.minus || (Ascii.digit? byte).isSome

/-- The path step of a numeric key that was read and did not fit. -/
def segmentOf : Fault → Segment
  | .content (.wrongValue (.number (.natural n)) _) => .member (decimal n)
  | .content (.wrongValue (.number (.negative n)) _) => .member ("-" ++ decimal n)
  | _ => .unknown

/-- Words of 32 bits stand as integers between quotes. -/
def u32 : KeyFormat UInt32 where
  read c := do
    let c := c.advance
    match c.next? with
    | some (byte, _) =>
      if !beginsNumber byte then within .unknown (c.fail .keyNotNumeric)
      else
        let (n, c) ←
          match Format.u32.read c with
          | .ok found => .ok found
          | .error refusal => .error (refusal.within (segmentOf refusal.fault))
        match c.next? with
        | some (Ascii.quote, after) => .ok (n, after)
        | _ => within (.member (decimal n.toNat)) (c.failNext .expectedQuote)
    | none => within .unknown (c.fail .keyNotNumeric)
  decode text := do
    let notNumeric : Except Error UInt32 := .error ⟨.grammar .keyNotNumeric, none, []⟩
    let c := Cursor.start (Utf8.bytes text)
    match c.peek? with
    | none => notNumeric
    | some byte =>
      if !beginsNumber byte then notNumeric
      else
        let (n, c) ← Format.u32.read c
        match c.peek? with
        | none => .ok n
        | some _ => notNumeric
  text n := decimal n.toNat

end KeyFormat

namespace Format

/-- Finite maps as JSON objects, in the order of their keys. -/
def dict {κ ν : Type} [Ord κ] [Std.TransOrd κ] [Std.LawfulEqOrd κ] (key : KeyFormat κ)
    (value : Format ν) : Format (Dict κ ν) where
  read c := do
    let (c, byte, after) ← nextToken c
    if byte = Ascii.openBrace then
      let (members, c) ← readObject key.read key.text value.read after
      .ok (Dict.ofList members, c)
    else refuseToken "a map" c
  decode
    | .object members => do
      let entries ← members.mapM fun (name, content) => do
        let k ← key.decode name
        let v ← value.decode content
        .ok (k, v)
      .ok (Dict.ofList entries)
    | value => wrongType value "a map"
  encode d := .object (d.entries.map fun (k, v) => (key.text k, value.encode v))

end Format

end MergeNotes.Json
