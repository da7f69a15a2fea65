import MergeNotes.Json.Format

/-! Records: JSON objects with named fields, or arrays of the same fields in order. -/

namespace MergeNotes.Json

/-- The fields of a record in order; one with a value for its absence may be left out. The first
index is the type of the fields as far as they were found, the second that of all of them. -/
inductive Fields : Type → Type → Type 1 where
  | none : Fields Unit Unit
  | field {α σ γ : Type} (name : String) (format : Format α) (absent : Option α)
      (rest : Fields σ γ) : Fields (Option α × σ) (α × γ)

/-- Why the reading of a record stops: a part was refused, or the record itself is, at a place. -/
inductive Stop where
  | refused (error : Error)
  | raised (reason : Mismatch) (place : Cursor)

namespace Fields

/-- No field was found. -/
def start {σ γ : Type} : Fields σ γ → σ
  | none => ()
  | field _ _ _ rest => (Option.none, rest.start)

/-- How many fields there are. -/
def count {σ γ : Type} : Fields σ γ → Nat
  | none => 0
  | field _ _ _ rest => rest.count + 1

/-- The record of what was found; the first missing field that must be there is named. -/
def finish {σ γ : Type} : Fields σ γ → σ → Except Mismatch γ
  | none, () => .ok ()
  | field name _ absent rest, (slot, slots) =>
    match slot.or absent with
    | Option.none => .error (.missingField name)
    | some value => (rest.finish slots).map fun values => (value, values)

/-- Reads the member with this key, behind the key: a field, or something to pass over. -/
def readMember {σ γ : Type} (key : String) :
    Fields σ γ → σ → Cursor → Except Stop (σ × Cursor)
  | none, (), c =>
    match readColon c with
    | .error error => .error (.refused error)
    | .ok c =>
      match within (.member key) (skipValue c) with
      | .error error => .error (.refused error)
      | .ok c => .ok ((), c)
  | field name format _ rest, (slot, slots), c =>
    if key = name then
      match slot with
      | some _ => .error (.raised (.duplicateField name) c)
      | Option.none =>
        match readColon c with
        | .error error => .error (.refused error)
        | .ok c =>
          match within (.member key) (format.read c) with
          | .error error => .error (.refused error)
          | .ok (value, c) => .ok ((some value, slots), c)
    else (rest.readMember key slots c).map fun (slots, c) => ((slot, slots), c)

/-- Reads the members of an object up to its closing brace; every member takes at least one byte,
so the fuel is the number of bytes left. -/
def readMembers {σ γ : Type} (fields : Fields σ γ) :
    Nat → Bool → σ → Cursor → Except Stop (σ × Cursor)
  | 0, _, _, c => .error (.refused ⟨.grammar .endInObject, some c.position, []⟩)
  | fuel + 1, isFirst, slots, c =>
    match within .unknown (nextMember isFirst c) with
    | .error error => .error (.refused error)
    | .ok (false, c) => .ok (slots, c)
    | .ok (true, c) =>
      match readKey c with
      | .error error => .error (.refused error)
      | .ok (key, c) =>
        match fields.readMember key slots c with
        | .error stop => .error stop
        | .ok (slots, c) => fields.readMembers fuel false slots c

/-- Reads the items of an array as the fields in order; those at the end may be left out if their
absence has a value. -/
def readItems {σ γ : Type} (expected : String) :
    Fields σ γ → Nat → Cursor → Except Stop (γ × Cursor)
  | none, _, c => .ok ((), c)
  | field _ format absent rest, index, c =>
    match nextItem (index == 0) c with
    | .error error => .error (.refused error)
    | .ok (false, c) =>
      match absent with
      | Option.none => .error (.raised (.wrongLength index expected) c)
      | some value =>
        (rest.readItems expected (index + 1) c).map fun (values, c) => ((value, values), c)
    | .ok (true, c) =>
      match within (.item index) (format.read c) with
      | .error error => .error (.refused error)
      | .ok (value, c) =>
        (rest.readItems expected (index + 1) c).map fun (values, c) => ((value, values), c)

/-- Decodes the member with this key: a field, or something to pass over. -/
def decodeMember {σ γ : Type} (key : String) (content : Value) :
    Fields σ γ → σ → Except Error σ
  | none, () => .ok ()
  | field name format _ rest, (slot, slots) =>
    if key = name then
      match slot with
      | some _ => mismatch (.duplicateField name)
      | Option.none => (format.decode content).map fun value => (some value, slots)
    else (rest.decodeMember key content slots).map fun slots => (slot, slots)

/-- Decodes the members of an object in order. -/
def decodeMembers {σ γ : Type} (fields : Fields σ γ) :
    σ → List (String × Value) → Except Error σ
  | slots, [] => .ok slots
  | slots, (key, content) :: members =>
    match fields.decodeMember key content slots with
    | .error error => .error error
    | .ok slots => fields.decodeMembers slots members

/-- Decodes the items of an array as the fields in order, and returns the items left over. -/
def decodeItems {σ γ : Type} (expected : String) :
    Fields σ γ → Nat → List Value → Except Error (γ × List Value)
  | none, _, items => .ok ((), items)
  | field _ _ absent rest, index, [] =>
    match absent with
    | Option.none => mismatch (.wrongLength index expected)
    | some value =>
      (rest.decodeItems expected (index + 1) []).map fun (values, left) => ((value, values), left)
  | field _ format _ rest, index, item :: items =>
    match format.decode item with
    | .error error => .error error
    | .ok value =>
      (rest.decodeItems expected (index + 1) items).map fun (values, left) =>
        ((value, values), left)

/-- Every field as a member. -/
def encode {σ γ : Type} : Fields σ γ → γ → List (String × Value)
  | none, () => []
  | field name format _ rest, (value, values) =>
    (name, format.encode value) :: rest.encode values

end Fields

/-- Where a stop in an array or object puts the blame, given how such a container is left. -/
def Stop.error (leave : Cursor → Cursor) : Stop → Error
  | refused error => error
  | raised reason place => ⟨.content reason, some (leave place).position, []⟩

namespace Format

/-- A type whose values are records with these fields, all of which are written. -/
def record {α σ γ : Type} (name : String) (fields : Fields σ γ) (make : γ → α) (parts : α → γ) :
    Format α :=
  let expected := "struct " ++ name
  let length :=
    expected ++ " with " ++ decimal fields.count ++
      (if fields.count = 1 then " element" else " elements")
  { read := fun c => do
      let (c, byte, after) ← nextToken c
      if byte = Ascii.openBracket then
        match fields.readItems length 0 after with
        | .error stop => .error (stop.error leaveArray)
        | .ok (values, c) => .ok (make values, ← closeArray c)
      else if byte = Ascii.openBrace then
        match fields.readMembers (after.rest.length + 1) true fields.start after with
        | .error stop => .error (stop.error leaveObject)
        | .ok (slots, c) =>
          match fields.finish slots with
          | .error reason => .error ((Stop.raised reason c).error leaveObject)
          | .ok values => .ok (make values, ← closeObject c)
      else refuseToken expected c
    decode := fun
      | .array items =>
        match fields.decodeItems length 0 items with
        | .error error => .error error
        | .ok (values, []) => .ok (make values)
        | .ok (_, _ :: _) => mismatch (.wrongLength items.length "fewer elements in array")
      | .object members =>
        match fields.decodeMembers fields.start members with
        | .error error => .error error
        | .ok slots =>
          match fields.finish slots with
          | .error reason => mismatch reason
          | .ok values => .ok (make values)
      | value => wrongType value expected
    encode := fun value => .object (fields.encode (parts value)) }

end Format

end MergeNotes.Json
