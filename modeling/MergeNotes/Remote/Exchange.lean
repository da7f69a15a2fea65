import MergeNotes.Form
import MergeNotes.LinkHeader
import MergeNotes.MergeRequest
import MergeNotes.Remote.Line
import MergeNotes.Token
import MergeNotes.Url.Parse

/-! One exchange with the server: a request sent and its answer received. -/

namespace MergeNotes

/-- A complete answer. -/
structure Answer where
  status : Nat
  links : List (List UInt8)
  body : String
  deriving DecidableEq, Repr

/-- The most bytes that the URL of a request may have. -/
def longestRequestUrl : Nat := 65534

/-- Whether a request line can name the host. -/
def isNameable (host : Url.Host) : Bool :=
  host.text.all fun c => !"\"`\x7b\x7d".toList.contains c

/-- Whether a request can be made for a URL. -/
def isRequestable (url : Url) : Bool :=
  url.isWeb && url.host?.all isNameable && url.text.utf8ByteSize ≤ longestRequestUrl

/-- The URL that a request for an address goes to. -/
def requestUrl (address : String) : Except RemoteFailure Url :=
  match Url.parse address with
  | .error _ => .error (.invalidUrl "builder error")
  | .ok url =>
    -- Credentials that can be read are meant for a header, and are taken out of the URL.
    let url := url.withoutReadableCredentials
    if isRequestable url then .ok url
    else .error (.invalidUrl ("builder error for url (" ++ url.text ++ ")"))

/-- Whether a character is lost at the ends of a header value. -/
def isPadding (c : Char) : Bool :=
  c == ' ' || c == '\t'

/-- A header value as it arrives, without the padding at its ends. -/
def arriving (text : String) : String :=
  String.ofList (dropWhileEnd isPadding (text.toList.dropWhile isPadding))

/-- The headers of a request. -/
def requestHeaders (token : Token) (form : Option Comment) : List (String × String) :=
  let headers := token.headers.map fun (name, value) => (name, arriving value)
  match form with
  | none => headers
  | some _ => insertEntry "content-type" "application/x-www-form-urlencoded" headers

/-- The request for a URL; a form is sent as its body. -/
def requestFor (token : Token) (method : Method) (url : Url) (form : Option Comment) : Request where
  method
  url := String.ofList url.withoutCredentials.withoutFragment
  headers := requestHeaders token form
  body := String.ofList (form.elim [] fun form => Form.encode form.fields)

/-- Nothing came back from a URL. -/
def sendingFailed (url : Url) : RemoteFailure :=
  .network ("error sending request for url (" ++ url.text ++ ")")

/-- What becomes of a request to a URL for which there is no connection. -/
def Reach.failure (reach : Reach) (url : Url) : RemoteFailure :=
  match reach.connect url with
  | .overdue => .timeout
  | .made | .failed => sendingFailed url

/-- The statuses whose answers have no body. -/
def isBodiless (status : Nat) : Bool :=
  status == 204 || status == 304

/-- What a reply to a request for a URL comes to. -/
def Reply.receive (url : Url) : Reply → Except RemoteFailure Answer
  | .silence => .error (sendingFailed url)
  | .overdue => .error .timeout
  | .answer status links body complete =>
    -- Where no body is expected, it cannot break off.
    if isBodiless status then .ok ⟨status, links, ""⟩
    else if complete then .ok ⟨status, links, Utf8.bodyText body⟩
    else .error (.network "error decoding response body")

/-- Sends a request and receives the answer; when the replies are used up there is silence. -/
def exchange (token : Token) (method : Method) (address : String) (form : Option Comment) :
    Run Answer := do
  let url ← Run.ofRemote (requestUrl address)
  let line ← get
  -- A request that is not made uses up no reply.
  if !line.reach.connects url then
    Run.failRemote (line.reach.failure url)
  -- Once it is sent it counts, whatever the reply.
  set { line with
    replies := line.replies.tail
    requests := line.requests ++ [requestFor token method url form] }
  Run.ofRemote ((line.replies.headD .silence).receive url)

/-- Requires a status of an answer. -/
def requireStatus (url : String) (expected : Nat) (status : Nat) (body : String) : Run Unit := do
  if status ≠ expected then
    note (.unexpectedStatus url expected status body)
    Run.failRemote (.unexpectedStatus url expected status body)

/-- Printable ASCII, the space and the tab. -/
def isPlainHeader (text : List UInt8) : Bool :=
  text.all fun byte => byte == 0x09 || (0x20 ≤ byte && byte ≤ 0x7E)

/-- The text of a header value on the wire, unless it holds anything but plain ASCII. -/
def headerText? (value : List UInt8) : Option String :=
  let isPadding (byte : UInt8) : Bool := byte == 0x20 || byte == 0x09
  let value := dropWhileEnd isPadding (value.dropWhile isPadding)
  -- A value beyond plain ASCII is as good as none.
  if isPlainHeader value then some (String.ofList (value.map fun byte => Char.ofNat byte.toNat))
  else none

/-- Where the first link header of an answer says that a listing goes on. -/
def Answer.next? (answer : Answer) : Option String :=
  (answer.links.head?.bind headerText?).bind LinkHeader.next?

end MergeNotes
