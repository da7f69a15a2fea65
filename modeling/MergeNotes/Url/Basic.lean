import MergeNotes.Url.Host

/-! URLs: their parts and their text. -/

namespace MergeNotes

namespace Url

/-- How the text of a URL is read depends on its scheme. -/
inductive Kind where
  /-- A well-known scheme, with its default port. -/
  | network (port : Nat)
  | file
  | other
  deriving DecidableEq, Repr

/-- The kind of a scheme. -/
def kindOf (scheme : List Char) : Kind :=
  match String.ofList scheme with
  | "http" => .network 80
  | "https" => .network 443
  | "ws" => .network 80
  | "wss" => .network 443
  | "ftp" => .network 21
  | "file" => .file
  | _ => .other

/-- Whether backslashes separate too and single quotes are written out in the query. -/
def Kind.isSpecial (kind : Kind) : Bool :=
  kind != .other

/-- A user name, which may be empty, and perhaps a password. -/
structure Credentials where
  user : List Char
  password : Option (List Char)
  deriving DecidableEq, Repr

/-- Whose resource a URL names. -/
structure Authority where
  credentials : Option Credentials
  host : Host
  /-- A port other than the default of the scheme. -/
  port : Option Nat
  deriving DecidableEq, Repr

/-- Where a resource is. -/
inductive Path where
  /-- A text without structure. -/
  | plain (text : List Char)
  /-- Segments with a slash before each. -/
  | rooted (segments : List (List Char))
  deriving DecidableEq, Repr

end Url

/-- A URL; its parts are written as they stand in its text. -/
structure Url where
  scheme : List Char
  authority : Option Url.Authority
  path : Url.Path
  query : Option (List Char)
  fragment : Option (List Char)
  deriving DecidableEq, Repr

namespace Url

/-- The text of credentials. -/
def Credentials.text (credentials : Credentials) : List Char :=
  credentials.user ++ (credentials.password.elim [] (':' :: ·)) ++ ['@']

/-- The text of an authority. -/
def Authority.text (authority : Authority) : List Char :=
  authority.credentials.elim [] Credentials.text ++ authority.host.text ++
    authority.port.elim [] (':' :: decimalDigits ·)

/-- The text of a path. -/
def Path.text : Path → List Char
  | .plain text => text
  | .rooted segments => segments.flatMap ('/' :: ·)

/-- The text before the query. -/
def resource (url : Url) : List Char :=
  let path := url.path.text
  let between :=
    match url.authority, path with
    | some authority, _ => ['/', '/'] ++ authority.text
    -- Without an authority a path must not look as if it began with one.
    | none, '/' :: '/' :: _ => ['/', '.']
    | none, _ => []
  url.scheme ++ ':' :: between ++ path

/-- The text before the fragment. -/
def withoutFragment (url : Url) : List Char :=
  url.resource ++ url.query.elim [] ('?' :: ·)

/-- The text of a URL. -/
def text (url : Url) : String :=
  String.ofList (url.withoutFragment ++ url.fragment.elim [] ('#' :: ·))

/-- The host, unless it is empty or there is none. -/
def host? (url : Url) : Option Host :=
  match url.authority with
  | some ⟨_, .empty, _⟩ => none
  | some authority => some authority.host
  | none => none

/-- Whether the URL names a host to which web requests are made. -/
def isWeb (url : Url) : Bool :=
  (url.scheme == "http".toList || url.scheme == "https".toList) && url.host?.isSome

/-- Whether the text of a user name or password stands for well-formed UTF-8. -/
def isReadable (text : List Char) : Bool :=
  (Utf8.decode? (Percent.decode (Utf8.encode text))).isSome

/-- Whether the credentials can be read out of the URL; without a user name that takes a
password. -/
def Credentials.areReadable (credentials : Credentials) : Bool :=
  isReadable credentials.user &&
    (!credentials.user.isEmpty || credentials.password.any isReadable)

/-- The URL without its credentials. -/
def withoutCredentials (url : Url) : Url :=
  { url with authority := url.authority.map ({ · with credentials := none }) }

/-- The URL without its credentials, where these can be read out of it. -/
def withoutReadableCredentials (url : Url) : Url :=
  if (url.authority.bind (·.credentials)).any Credentials.areReadable then url.withoutCredentials
  else url

/-- The URL with more text in its query, behind an ampersand where the query is not empty. -/
def addQuery (url : Url) (more : List Char) : Url :=
  let query :=
    match url.query with
    -- A query that is empty needs no ampersand.
    | none | some [] => more
    | some query => query ++ '&' :: more
  { url with query := some query }

end Url

end MergeNotes
