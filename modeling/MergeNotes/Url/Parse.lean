import MergeNotes.Text.Blank
import MergeNotes.Url.Basic

/-! URLs read from text, by the rules that browsers follow, without a base to complete them. -/

namespace MergeNotes.Url

/-- Printable ASCII but for some characters stands for itself. -/
def keepsBut (reserved : String) (c : Char) : Bool :=
  0x20 ≤ c.toNat && c.toNat < 0x7F && !reserved.toList.contains c

/-- A fragment as it is written. -/
def encodeFragment (text : List Char) : List Char :=
  Percent.encode (keepsBut " \"<>`") text

/-- A query as it is written. -/
def encodeQuery (kind : Kind) (text : List Char) : List Char :=
  Percent.encode (keepsBut (if kind.isSpecial then " \"#<>'" else " \"#<>")) text

/-- A path segment as it is written. -/
def encodeSegment (text : List Char) : List Char :=
  Percent.encode (keepsBut " \"<>`#?\x7b\x7d") text

/-- A user name or password as it is written. -/
def encodeUser (text : List Char) : List Char :=
  Percent.encode (keepsBut " \"<>`#?\x7b\x7d/:;=@[\\]^|") text

/-- A dot, which may be written out. -/
def dropDot? : List Char → Option (List Char)
  | '.' :: rest => some rest
  | '%' :: '2' :: 'e' :: rest => some rest
  | '%' :: '2' :: 'E' :: rest => some rest
  | _ => none

/-- Whether a segment means the place where it stands. -/
def isSingleDot (segment : List Char) : Bool :=
  dropDot? segment == some []

/-- Whether a segment means the place one up. -/
def isDoubleDot (segment : List Char) : Bool :=
  (dropDot? segment).bind dropDot? == some []

/-- Whether a segment is a letter with a colon or a bar. -/
def isDriveLetter : List Char → Bool
  | [letter, mark] => letter.isAlpha && (mark == ':' || mark == '|')
  | _ => false

/-- Whether a segment is a drive letter, or one with more text behind a backslash. -/
def isAtDrive (segment : List Char) : Bool :=
  isDriveLetter (segment.take 2) && (segment.drop 2).head?.all (· == '\\')

/-- One segment up; a drive is never left. The segments are in reverse. -/
def goUp : List (List Char) → List (List Char)
  | [] => []
  | segment :: segments => if isAtDrive segment then segment :: segments else segments

/-- A tab or a line break; these count for nothing nearly everywhere. -/
def isGap (c : Char) : Bool :=
  c == '\t' || c == '\n' || c == '\r'

/-- A text without its tabs and line breaks. -/
def withoutGaps (text : List Char) : List Char :=
  text.filter (!isGap ·)

/-- The drive letter and the text behind it, in a segment where a gap stands between the two. -/
def splitAtGap? (segment : List Char) : Option (List Char × List Char) :=
  match segment.dropWhile isGap with
  | [] => none
  | letter :: rest =>
    match rest.dropWhile isGap with
    | ':' :: gap :: rest =>
      let rest := withoutGaps rest
      if letter.isAlpha && isGap gap && !rest.isEmpty then some ([letter, ':'], rest) else none
    | _ => none

/-- What a path has come to. -/
structure Trail where
  /-- The segments in reverse. -/
  done : List (List Char)
  /-- Whether its first segment was a drive letter and nothing else. -/
  fromDrive : Bool
  deriving DecidableEq, Repr

/-- What a path comes to behind a trail. -/
def resolve (kind : Kind) (trail : Trail) : List (List Char) → Trail
  | [] => trail
  | raw :: more =>
    let isFirst := trail.done.isEmpty
    match if kind = .file ∧ isFirst then splitAtGap? raw else none with
    | some (drive, rest) =>
      -- The gap counts as a slash, and what is behind it as a name even if it is dots.
      resolve kind { trail with done := [encodeSegment rest, drive] } more
    | none =>
      let segment := encodeSegment (withoutGaps raw)
      -- Dots at the end leave an empty segment, so that the path goes on from there.
      if isDoubleDot segment then
        let done := goUp trail.done
        resolve kind { trail with done := if more.isEmpty then [] :: done else done } more
      else if isSingleDot segment then
        let done := trail.done
        resolve kind { trail with done := if more.isEmpty then [] :: done else done } more
      -- A drive letter is written with a colon, however it came.
      else if kind = .file ∧ isFirst ∧ isDriveLetter segment then
        resolve kind ⟨[segment.take 1 ++ [':']], true⟩ more
      else resolve kind { trail with done := segment :: trail.done } more

/-- Whether a character separates the segments of a path. -/
def isSeparator (kind : Kind) (c : Char) : Bool :=
  c == '/' || (kind.isSpecial && c == '\\')

/-- What the path in a text without its leading separator comes to. -/
def trailOf (kind : Kind) (text : List Char) : Trail :=
  resolve kind ⟨[], false⟩ (splitAtEach (isSeparator kind) text)

/-- The segments that a text without its leading separator comes to. -/
def pathOf (kind : Kind) (text : List Char) : List (List Char) :=
  (trailOf kind text).done.reverse

/-- Segments of a file, without empty ones at the front. -/
def trimSegments (segments : List (List Char)) : List (List Char) :=
  match segments.dropWhile List.isEmpty with
  | [] => [[]]
  | segments => segments

/-- The text up to the last at sign, and what follows it. -/
def splitCredentials (text : List Char) : Option (List Char) × List Char :=
  match text.reverse.span (· != '@') with
  | (_, []) => (none, text)
  | (after, _ :: before) => (some before.reverse, after.reverse)

/-- A user name and password as they are written; without either there are no credentials. -/
def credentialsOf (text : List Char) : Option Credentials :=
  match text.span (· != ':') with
  | (user, []) => if user.isEmpty then none else some ⟨encodeUser user, none⟩
  -- A colon with nothing behind it is no password.
  | (user, [_]) => if user.isEmpty then none else some ⟨encodeUser user, none⟩
  | (user, _ :: password) => some ⟨encodeUser user, some (encodeUser password)⟩

/-- The text of a host, which ends at a colon outside brackets, and what follows it. -/
def splitHost (inBrackets : Bool) : List Char → List Char × List Char
  | [] => ([], [])
  | c :: text =>
    if c = ':' ∧ !inBrackets then ([], c :: text)
    else
      let inside := if c = '[' then true else if c = ']' then false else inBrackets
      let (host, rest) := splitHost inside text
      (c :: host, rest)

/-- The number of a port, if there are digits. -/
def portOf (text : List Char) : Except Error (Option Nat) :=
  match valueIn? 10 text with
  | none => .error .invalidPort
  | some port =>
    -- No digits are no port, and not the port zero.
    if text.isEmpty then .ok none else if 65535 < port then .error .invalidPort else .ok (some port)

/-- Where the text of a port ends. -/
def endsPort (c : Char) : Bool :=
  c == '/' || c == '\\'

/-- Reads an authority behind its two slashes, and returns the path behind it. For a scheme of
one's own the host may be empty. -/
def parseAuthority (kind : Kind) (text : List Char) (atEnd : Bool) :
    Except Error (Authority × List Char) := do
  let (authority, path) := text.span (!isSeparator kind ·)
  let (credentials, rest) := splitCredentials authority
  -- Nothing at all before an at sign and nothing before the path behind it.
  if credentials = some [] ∧ rest.isEmpty ∧ !(path.isEmpty ∧ atEnd) then
    throw .emptyHost
  let credentials := credentials.bind credentialsOf
  let (name, port) := splitHost false rest
  let host ←
    if kind.isSpecial then if name.isEmpty then throw .emptyHost else parseDomain name
    else parseName name
  if host = .empty ∧ (!port.isEmpty ∨ credentials.isSome) then
    throw .emptyHost
  -- For a scheme of one's own a backslash may stand here, where it ends the port.
  let (digits, stray) := (port.drop 1).span (!endsPort ·)
  let port ← portOf digits
  let port := if kind = .network (port.getD 0) then none else port
  .ok (⟨credentials, host, port⟩, stray ++ path)

/-- The path behind the authority of a URL. -/
def pathBehindHost (kind : Kind) (text : List Char) : Path :=
  match text with
  | [] => .rooted (if kind.isSpecial then [[]] else [])
  | c :: rest => .rooted (pathOf kind (if isSeparator kind c then rest else c :: rest))

/-- The text behind a separator, gaps before it aside. -/
def behindSeparator? (kind : Kind) (text : List Char) : Option (List Char) :=
  match text.dropWhile isGap with
  | c :: rest => if isSeparator kind c then some rest else none
  | [] => none

/-- The authority and path of a file; a drive letter at the front of the path takes the place of
any host. -/
def parseFile (text : List Char) : Except Error (Authority × Path) :=
  let none : Authority := ⟨none, .empty, none⟩
  let path (text : List Char) : Path := .rooted (trimSegments (pathOf .file text))
  match behindSeparator? .file text with
  | .none => .ok (none, path text)
  | some behindOne =>
    match behindSeparator? .file behindOne with
    | .none => .ok (none, path behindOne)
    | some rest =>
      let (name, behind) := rest.span (!isSeparator .file ·)
      let name := withoutGaps name
      if name.isEmpty ∨ isDriveLetter name then .ok (none, path rest)
      else do
        let host ← parseDomain name
        let hostless :=
          host = .name "localhost".toList ∨ (trailOf .file (behind.drop 1)).fromDrive
        .ok (if hostless then none else ⟨.none, host, .none⟩,
          path (if host = .name "localhost".toList then behind else behind.drop 1))

/-- The authority and path behind the scheme. -/
def parseHierarchy (kind : Kind) (text : List Char) (atEnd : Bool) :
    Except Error (Option Authority × Path) :=
  match kind with
  | .file => (parseFile text).map fun (authority, path) => (some authority, path)
  | .network _ => do
    -- Any number of slashes will do.
    let rest := (withoutGaps text).dropWhile (isSeparator kind)
    let (authority, path) ← parseAuthority kind rest atEnd
    .ok (some authority, pathBehindHost kind path)
  | .other =>
    match withoutGaps text with
    | '/' :: '/' :: rest => do
      let (authority, path) ← parseAuthority kind rest atEnd
      .ok (some authority, pathBehindHost kind path)
    | '/' :: rest => .ok (none, .rooted (pathOf kind rest))
    | text => .ok (none, .plain (escapeControls text))

/-- The scheme in lower case and what follows its colon. -/
def splitScheme? (text : List Char) : Option (List Char × List Char) :=
  let isName (c : Char) : Bool := Percent.isAlphanumeric c || c == '+' || c == '-' || c == '.'
  match text.span fun c => isName c || isGap c with
  | (first :: rest, ':' :: behind) =>
    -- The first character must be a letter even where gaps stand before the others.
    if first.isAlpha then some ((withoutGaps (first :: rest)).map Char.toLower, behind) else none
  | _ => none

/-- The text without the controls and spaces at either end. -/
def significant (text : String) : List Char :=
  let isEdge (c : Char) : Bool := c.toNat ≤ 0x20
  dropWhileEnd isEdge (text.toList.dropWhile isEdge)

/-- The text before a mark and, if the mark is there, that behind it. -/
def splitMark (mark : Char) (text : List Char) : List Char × Option (List Char) :=
  match text.span (· != mark) with
  | (before, []) => (before, none)
  | (before, _ :: after) => (before, some after)

/-- The URL that a text stands for. -/
def parse (text : String) : Except Error Url :=
  match splitScheme? (significant text) with
  | none => .error .noScheme
  | some (scheme, rest) => do
    -- A question mark in the fragment begins no query.
    let (rest, fragment) := splitMark '#' rest
    let (rest, query) := splitMark '?' rest
    let kind := kindOf scheme
    let (authority, path) ← parseHierarchy kind rest (query.isNone && fragment.isNone)
    .ok { scheme, authority, path
          query := query.map fun text => encodeQuery kind (withoutGaps text)
          fragment := fragment.map fun text => encodeFragment (withoutGaps text) }

end MergeNotes.Url
