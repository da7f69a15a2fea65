import MergeNotes.Json.Print
import MergeNotes.Text.Search
import MergeNotes.Text.Utf8

/-! The responses of the service, and the envelope in which their JSON comes. -/

namespace MergeNotes

/-- A response, with the names of its headers in lower case. -/
structure Response where
  status : Nat
  headers : List (String × String)
  body : List UInt8
  deriving DecidableEq, Repr

/-- Whether a header value is printable ASCII with spaces and tabs. -/
def isPlainValue (value : String) : Bool :=
  value.toList.all fun c => c == '\t' || (0x20 ≤ c.toNat && c.toNat ≤ 0x7E)

namespace Response

/-- The first value of a header, unless it is not plain. -/
def plainHeader? (response : Response) (name : String) : Option String :=
  (response.headers.lookup name).filter isPlainValue

/-- The headers without those of a name. -/
def withoutHeader (response : Response) (name : String) : Response :=
  { response with headers := response.headers.filter (·.1 != name) }

/-- The response with a single header of a name. -/
def setHeader (response : Response) (name value : String) : Response :=
  let response := response.withoutHeader name
  { response with headers := response.headers ++ [(name, value)] }

/-- A response without a body. -/
def bare (status : Nat) (headers : List (String × String)) : Response :=
  ⟨status, headers, []⟩

/-- A response in plain text. -/
def plain (status : Nat) (text : String) : Response :=
  ⟨status, [("content-type", "text/plain; charset=utf-8")], Utf8.bytes text⟩

/-- Whether a response says that it is JSON. -/
def isJson (response : Response) : Bool :=
  (response.plainHeader? "content-type").any fun value =>
    (after? "application/json".toList value.toList).isSome

end Response

/-- What is known about one cause of a failure. -/
structure Detail where
  /-- The path to the field at fault. -/
  path : Option String
  hint : Option String
  deriving DecidableEq, Repr

/-- What the service says: data, or a failure with its code, its words and its details. -/
inductive Envelope where
  | success (data : Json.Value)
  | failure (code message : String) (details : List Detail)
  deriving Repr

/-- A member, unless its content is absent. -/
def optionalMember (name : String) (content : Option String) : List (String × Json.Value) :=
  (content.map fun text => (name, Json.Value.string text)).toList

/-- A detail in JSON. -/
def Detail.value (detail : Detail) : Json.Value :=
  .object (optionalMember "path" detail.path ++ optionalMember "hint" detail.hint)

namespace Envelope

/-- An envelope in JSON. -/
def value : Envelope → Json.Value
  | .success data => .object [("success", .boolean true), ("data", data)]
  | .failure code message details =>
    let error : List (String × Json.Value) :=
      [("code", .string code), ("message", .string message)]
    let details : List (String × Json.Value) :=
      if details.isEmpty then [] else [("details", .array (details.map Detail.value))]
    .object [("success", .boolean false), ("error", .object (error ++ details))]

/-- The body of a response with an envelope. -/
def body (envelope : Envelope) : List UInt8 :=
  Utf8.encode envelope.value.print

/-- A response with an envelope. -/
def respond (envelope : Envelope) (status : Nat) : Response :=
  ⟨status, [("content-type", "application/json")], envelope.body⟩

end Envelope

end MergeNotes
