import MergeNotes.Json.Error

/-! Why a merge request could not be decorated, and the words for it. -/

namespace MergeNotes

/-- What can go wrong on the way to the server, or in what it says. -/
inductive RemoteFailure where
  | unexpectedStatus (url : String) (expected actual : Nat) (body : String)
  | timeout
  /-- The exchange broke off before it was complete. -/
  | network (detail : String)
  /-- A body is not the JSON of what was asked for. -/
  | undecodable (error : Json.Error)
  /-- A decoded answer lacks what a comment needs. -/
  | invalidResponse (detail : String)
  /-- A header with this name cannot carry its value. -/
  | invalidHeader (name : String)
  | invalidUrl (detail : String)
  /-- A listing led back to a page that it had already been at. -/
  | paginationLoop (url : String)
  deriving DecidableEq, Repr

/-- What an analysis can lack; no server needs to be asked to find it out. -/
inductive AnalysisFailure where
  | missingProperty (key : String)
  | missingCondition (metricKey : String)
  | invalidBaseUrl (detail : String)
  deriving DecidableEq, Repr

/-- A decoration fails by what the server does or by what the analysis says. -/
inductive Failure where
  | remote (failure : RemoteFailure)
  | analysis (failure : AnalysisFailure)
  deriving DecidableEq, Repr

/-- The words for a failure on the server's side. -/
def RemoteFailure.message : RemoteFailure → String
  | .unexpectedStatus url expected actual body =>
    "unexpected status from " ++ url ++ ": expected " ++ decimal expected ++ ", got " ++
      decimal actual ++ ": " ++ body
  | .timeout => "timeout"
  | .network detail => "network error: " ++ detail
  | .undecodable error => "serde error: " ++ error.message
  | .invalidResponse detail => "invalid response: " ++ detail
  | .invalidHeader name => "invalid header value for " ++ name
  | .invalidUrl detail => "invalid url: " ++ detail
  | .paginationLoop url => "pagination loop detected at " ++ url

/-- The words for a failure of the analysis. -/
def AnalysisFailure.message : AnalysisFailure → String
  | .missingProperty key =>
    "could not decorate GitLab merge request: '" ++ key ++
      "' has not been set in scanner properties"
  | .missingCondition metricKey =>
    "could not find quality gate condition '" ++ metricKey ++ "' in analysis"
  | .invalidBaseUrl detail => "invalid base api url: " ++ detail

/-- The words for a failure. -/
def Failure.message : Failure → String
  | .remote failure => failure.message
  | .analysis failure => failure.message

end MergeNotes
