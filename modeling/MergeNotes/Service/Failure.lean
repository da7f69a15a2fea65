import MergeNotes.Service.Response
import MergeNotes.Service.Settings

/-! How the service reports what went wrong. -/

namespace MergeNotes

/-- Why the service cannot do its work. -/
inductive ServiceFailure where
  | missingSetting (missing : MissingSetting)
  | notListening
  | interrupted
  | notDecorated (failure : Failure)
  deriving DecidableEq, Repr

namespace ServiceFailure

/-- The status of the response: the server's failures are a bad gateway's, those of the analysis
the caller's. -/
def status : ServiceFailure → Nat
  | .missingSetting _ | .notListening | .interrupted => 500
  | .notDecorated (.analysis _) => 422
  | .notDecorated (.remote _) => 502

/-- The code of a failure. -/
def code : ServiceFailure → String
  | .missingSetting _ => "CONFIG_ERROR"
  | .notListening => "BIND_ERROR"
  | .interrupted => "SERVER_ERROR"
  | .notDecorated (.analysis _) => "INVALID_ANALYSIS"
  | .notDecorated (.remote _) => "DECORATION_FAILED"

/-- The words for a failure. -/
def message : ServiceFailure → String
  | .missingSetting missing => missing.message
  | .notListening => "failed to bind listener"
  | .interrupted => "server error"
  | .notDecorated (.analysis failure) => failure.message
  | .notDecorated (.remote failure) =>
    "could not decorate merge request on GitLab: " ++ failure.message

/-- The envelope for a failure. -/
def envelope (failure : ServiceFailure) : Envelope :=
  .failure failure.code failure.message []

end ServiceFailure

end MergeNotes
