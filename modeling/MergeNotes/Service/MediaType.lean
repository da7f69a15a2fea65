import MergeNotes.Percent

/-! Media types: what kind of content a body has. -/

namespace MergeNotes.MediaType

/-- The characters of names and of values without quotes. -/
def isTokenChar (c : Char) : Bool :=
  Percent.isAlphanumeric c || "!#$%&'+-.^_`|~".toList.contains c

/-- The characters inside quotes. -/
def isQuotable (c : Char) : Bool :=
  0x20 ≤ c.toNat && c.toNat != 0x7F

/-- The text behind a quoted value of at least one character, which may be a quote itself. -/
def afterQuoted? : List Char → Option (List Char)
  | [] => none
  | first :: text =>
    if !isQuotable first then none
    else
      match text.span fun c => isQuotable c && c != '"' with
      | (_, '"' :: rest) => some rest
      | _ => none

/-- Whether a text is a row of parameters; the fuel exceeds the number of characters. -/
def areParameters : Nat → List Char → Bool
  | 0, _ => false
  | _ + 1, [] => true
  | fuel + 1, c :: text =>
    if c = ' ' then areParameters fuel text
    else
      match (c :: text).span isTokenChar with
      | (_ :: _, '=' :: '"' :: quoted) =>
        match (afterQuoted? quoted).map (·.dropWhile (· == ' ')) with
        | some [] => true
        | some (';' :: rest) => areParameters fuel rest
        | _ => false
      | (_ :: _, '=' :: value) =>
        match value.span isTokenChar with
        | (_, []) => true
        | (_ :: _, ';' :: rest) => areParameters fuel rest
        | _ => false
      | _ => false

/-- The parts of a subtype before and after its last plus sign, unless that comes first. -/
def splitSuffix (subtype : List Char) : List Char × Option (List Char) :=
  match subtype.reverse.span (· != '+') with
  | (suffix, _ :: before@(_ :: _)) => (before.reverse, some suffix.reverse)
  | _ => (subtype, none)

/-- Whether a type with this subtype, both in lower case, is JSON or built on it. -/
def isJsonType (type subtype : List Char) : Bool :=
  let (name, suffix) := splitSuffix subtype
  type == "application".toList && (name == "json".toList || suffix == some "json".toList)

/-- Whether a text is the media type of JSON, or of a format built on it. -/
def isJson (text : String) : Bool :=
  match text.toList.span isTokenChar with
  | (type@(_ :: _), '/' :: rest) =>
    let (subtype, rest) := rest.span isTokenChar
    let parameters :=
      match rest with
      | [] => true
      | ';' :: rest => areParameters (rest.length + 1) rest
      | _ => false
    parameters && isJsonType (type.map Char.toLower) (subtype.map Char.toLower)
  | _ => false

end MergeNotes.MediaType
