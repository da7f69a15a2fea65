import MergeNotes.Event
import MergeNotes.Failure
import MergeNotes.Url.Basic

/-! The line to the server: the replies that it will give, and what has passed so far. -/

namespace MergeNotes

/-- What comes of trying to connect to a server. -/
inductive Connection where
  | made
  | failed
  /-- It takes longer than a client waits. -/
  | overdue
  deriving DecidableEq, Repr

/-- What comes of connecting to servers, by the scheme, the host and the port of a URL. -/
structure Reach where
  connection : (scheme : List Char) → (host : Option Url.Host) → (port : Option Nat) → Connection

namespace Reach

/-- What comes of connecting for a URL. -/
def connect (reach : Reach) (url : Url) : Connection :=
  reach.connection url.scheme url.host? (url.authority.bind (·.port))

/-- Whether a connection for a URL comes about. -/
def connects (reach : Reach) (url : Url) : Bool :=
  reach.connect url == .made

/-- Every server can be reached. -/
def everywhere : Reach :=
  ⟨fun _ _ _ => .made⟩

/-- Every server can be reached, but over no encrypted connection. -/
def plain : Reach :=
  ⟨fun scheme _ _ => if scheme == "http".toList then .made else .failed⟩

/-- No server can be reached. -/
def nowhere : Reach :=
  ⟨fun _ _ _ => .failed⟩

end Reach

/-- What a server does about one request. It neither sends the client on to another URL, which the
client would follow by itself, nor names the encoding of a body. -/
inductive Reply where
  /-- The connection closes without an answer. -/
  | silence
  /-- The answer is not there in time. -/
  | overdue
  /-- An answer with the values of its link headers; the body may break off. -/
  | answer (status : Nat) (links : List (List UInt8)) (body : List UInt8) (complete : Bool)
  deriving DecidableEq, Repr

/-- The methods of requests to the server. -/
inductive Method where
  | get
  | post
  deriving DecidableEq, Repr

/-- The name of a method. -/
def Method.name : Method → String
  | .get => "GET"
  | .post => "POST"

/-- A request as the server sees it, with its headers in the order of their names. The headers that
a client adds by itself are left out: those for the host, for the encodings that it takes, for the
length of the body, and for credentials that stand in the URL. -/
structure Request where
  method : Method
  url : String
  headers : List (String × String)
  body : String
  deriving DecidableEq, Repr

/-- A line to the server. -/
structure Line where
  reach : Reach
  /-- The replies to come, one for each request that arrives, whatever it asks for. -/
  replies : List Reply
  /-- The requests that arrived. -/
  requests : List Request
  /-- What was noted down. -/
  events : List Event

/-- A line on which nothing has passed yet. -/
def Line.fresh (reach : Reach) (replies : List Reply) : Line :=
  ⟨reach, replies, [], []⟩

/-- Work over a line; what has passed stays when the work fails. -/
abbrev Run (α : Type) : Type :=
  ExceptT Failure (StateM Line) α

/-- Notes an event down. -/
def note (event : Event) : StateM Line Unit :=
  modify fun line => { line with events := line.events ++ [event] }

namespace Run

variable {α : Type}

/-- Fails on the server's side. -/
def failRemote (failure : RemoteFailure) : Run α :=
  throw (.remote failure)

/-- A result that does not depend on the line. -/
def ofRemote : Except RemoteFailure α → Run α
  | .ok value => pure value
  | .error failure => failRemote failure

/-- A result that depends on the analysis alone. -/
def ofAnalysis : Except AnalysisFailure α → Run α
  | .ok value => pure value
  | .error failure => throw (.analysis failure)

end Run

end MergeNotes
