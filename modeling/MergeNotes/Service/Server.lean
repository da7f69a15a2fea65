import MergeNotes.Service.MediaType
import MergeNotes.Service.Rejection
import MergeNotes.Service.Trigger

/-! The service: one address, to which triggers are posted. -/

namespace MergeNotes

/-- A request to the service. -/
structure Incoming where
  method : String
  /-- The path, which may end in a query. -/
  path : String
  headers : List (String × String)
  body : List UInt8
  deriving Repr

/-- The first value of a header; in its name case does not matter. -/
def Incoming.header? (incoming : Incoming) (name : String) : Option String :=
  (incoming.headers.find? fun header => header.1.toLower == name).map fun header =>
    String.ofList
      (dropWhileEnd isPadding (header.2.toList.dropWhile isPadding))

/-- The path of the service. -/
def triggerPath : String := "/decorate/gitlab/mr"

/-- The most bytes of a body that are read. -/
def longestBody : Nat := 2 * 1024 * 1024

/-- The trigger in a body, or the refusal of that body. -/
def Incoming.trigger (incoming : Incoming) : Except Response Trigger :=
  if !((incoming.header? "content-type").filter isPlainValue).any MediaType.isJson then
    .error (.plain 415 "Expected request with `Content-Type: application/json`")
  else if longestBody < incoming.body.length then
    .error (.plain 413 "Failed to buffer the request body: length limit exceeded")
  else
    -- Only what is JSON and short enough is read.
    match Json.readWhole Trigger.format.read incoming.body with
    | .ok trigger => .ok trigger
    | .error error =>
      match error.fault with
      -- What is no JSON at all is told apart from JSON that is no trigger.
      | .grammar _ =>
        .error (.plain 400 ("Failed to parse the request body as JSON: " ++ error.messageWithPath))
      | .content _ => .error (.plain 422 (mismatchIntroduction ++ error.messageWithPath))

/-- Finds who is responsible for a request and has it served. -/
def Incoming.dispatch (incoming : Incoming) (settings : Settings) (stamp : Stamp) :
    StateM Line Response :=
  -- The query of the address plays no part.
  if incoming.path.toList.takeWhile (· != '?') ≠ triggerPath.toList then pure (.bare 404 [])
  else if incoming.method ≠ "POST" then pure (.bare 405 [("allow", "POST")])
  else
    match incoming.trigger with
    | .error refusal => pure refusal
    | .ok trigger =>
      trigger.serve settings.secret settings.access (incoming.header? "x-request-id") stamp

/-- Serves a request. -/
def Incoming.serve (incoming : Incoming) (settings : Settings) (stamp : Stamp) :
    StateM Line Response := do
  let response ← incoming.dispatch settings stamp
  response.explained stamp.id

/-- Starts the service, where that finds settings and an address to listen on; the settings are
those with which it serves from then on. -/
def startService (canListen : String → Bool) (lookup : String → Option String) :
    Except ServiceFailure Settings := do
  let settings ← (Settings.ofLookup lookup).mapError .missingSetting
  -- All settings are looked up before the first one is used.
  if canListen settings.address then .ok settings else .error .notListening

end MergeNotes
