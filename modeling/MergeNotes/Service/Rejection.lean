import MergeNotes.Remote.Line
import MergeNotes.Service.Response
import MergeNotes.Text.Blank

/-! Bodies that are refused as such are refused in plain text, which is put into an envelope on its
way out. -/

namespace MergeNotes

/-- How the words begin for a body that is JSON but no trigger. -/
def mismatchIntroduction : String :=
  "Failed to deserialize the JSON body into the target type: "

/-- The path to the field at fault, if the words name one. -/
def rejectionPath? (message : String) : Option String := do
  let rest ← after? mismatchIntroduction.toList (trimBlanks message.toList)
  let (path, _) ← splitOnce? [':', ' '] rest
  if path.isEmpty || path.any isBlank then none else some (String.ofList path)

/-- What would help, going by the words. -/
def rejectionHint? (message : String) : Option String :=
  if mentions message "expected a sequence" then
    some "Expected an array for this field (e.g. [\"item1\", \"item2\"])."
  else if mentions message "expected a map" || mentions message "expected struct" then
    some "Expected a JSON object here (e.g. \x7b \"field\": \"value\" \x7d)."
  else if mentions message "missing field" then
    some "A required field is absent from the request body."
  else if mentions message "unknown variant" then
    some "Enum values are SCREAMING_SNAKE_CASE (e.g. \"OK\", \"NO_VALUE\")."
  else none

/-- The code, and the full name, of a status with which bodies are refused. -/
def rejectionCode? : Nat → Option (String × String)
  | 400 => some ("BAD_REQUEST", "400 Bad Request")
  | 422 => some ("UNPROCESSABLE_ENTITY", "422 Unprocessable Entity")
  | _ => none

namespace Response

/-- The response with an id for its request: its own, unless that is blank or not plain. -/
def identified (response : Response) (freshId : String) : Response :=
  if (response.plainHeader? "x-request-id").any (!isBlankText ·) then response
  else response.setHeader "x-request-id" freshId

/-- The response with its text in an envelope. -/
def enveloped (response : Response) (code freshId : String) : Response :=
  let message := String.ofList (Utf8.decodeLossy response.body)
  let envelope : Envelope :=
    .failure code (trimmed message) [⟨rejectionPath? message, rejectionHint? message⟩]
  let response := (response.identified freshId).setHeader "content-type" "application/json"
  { response.withoutHeader "content-length" with body := envelope.body }

/-- The response as it goes out: the refusal of a body that is not JSON gets an envelope. -/
def explained (response : Response) (freshId : String) : StateM Line Response := do
  match rejectionCode? response.status with
  | none => pure response
  | some (code, status) =>
    -- What is JSON already is in an envelope.
    if response.isJson then pure response
    else
      note (.rejectionMapped status)
      pure (response.enveloped code freshId)

end Response

end MergeNotes
