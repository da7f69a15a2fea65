import MergeNotes.Text.Decimal

/-! What is noted down while requests are served and merge requests decorated. -/

namespace MergeNotes

/-- How much an event matters. -/
inductive Level where
  | debug
  | info
  | warning
  | error
  deriving DecidableEq, Repr

/-- The name of a level. -/
def Level.name : Level → String
  | .debug => "DEBUG"
  | .info => "INFO"
  | .warning => "WARN"
  | .error => "ERROR"

/-- One thing worth noting. -/
inductive Event where
  | requestNamed (id : String)
  | triggerRejected
  | triggerAccepted (revision : String)
  | decorationFailed (message : String)
  | rejectionMapped (status : String)
  | decorationStarted (project mergeRequest revision : String)
  | decorationDone (commits inline skipped : Nat)
  | statusAddress (url : String)
  | commitsAddress (url : String)
  | discussionsAddress (url : String)
  | unexpectedStatus (url : String) (expected actual : Nat) (body : String)
  | resourceReceived (url : String)
  | pageReceived (url : String) (count : Nat)
  | pageFollows
  | linkRepeated (url : String)
  | commitsReceived (count : Nat)
  | mergeRequestReceived (iid : UInt64)
  | postingStatus (state coverage : String)
  | statusPosted (state : String)
  | statusAlreadySet (state : String)
  | postingComment (url : String) (path line : Option String)
  | commentPosted
  | issueUnlocated (component : String)
  | lineUnblamed (path : String) (line : UInt32)
  | lineOutside (path : String) (line : UInt32) (revision : String)
  deriving DecidableEq, Repr

namespace Event

/-- How much each event matters. -/
def level : Event → Level
  | .unexpectedStatus .. | .linkRepeated _ => .error
  | .triggerRejected | .decorationFailed _ => .warning
  | .triggerAccepted _ | .decorationStarted .. | .decorationDone .. | .statusAddress _
  | .commitsAddress _ | .discussionsAddress _ | .commitsReceived _ | .mergeRequestReceived _
  | .statusPosted _ | .commentPosted | .lineOutside .. => .info
  | .requestNamed _ | .rejectionMapped _ | .resourceReceived _ | .pageReceived .. | .pageFollows
  | .postingStatus .. | .statusAlreadySet _ | .postingComment .. | .issueUnlocated _
  | .lineUnblamed .. => .debug

/-- A line of a file. -/
def lineText (path : String) (line : UInt32) : String :=
  path ++ ":" ++ decimal line.toNat

/-- The words for an event; how long a decoration took is left open. -/
def message : Event → String
  | .requestNamed _ => "request id attached"
  | .triggerRejected => "decoration trigger rejected"
  | .triggerAccepted _ => "starting merge request decoration"
  | .decorationFailed _ => "decoration failed"
  | .rejectionMapped _ => "mapping extractor rejection"
  | .decorationStarted .. => "decoration started"
  | .decorationDone .. => "decoration done in # ms"
  | .statusAddress _ => "status url"
  | .commitsAddress _ => "MR commits url"
  | .discussionsAddress _ => "MR discussion url"
  | .unexpectedStatus .. => "error returned by the GitLab API"
  | .resourceReceived _ => "resource received"
  | .pageReceived .. => "page received"
  | .pageFollows => "getting next page"
  | .linkRepeated _ => "server repeated a pagination link"
  | .commitsReceived _ => "MR commits received"
  | .mergeRequestReceived _ => "merge request received"
  | .postingStatus .. => "posting commit status"
  | .statusPosted _ => "status posted"
  | .statusAlreadySet _ => "transition status is already set"
  | .postingComment .. => "posting discussion"
  | .commentPosted => "comment posted"
  | .issueUnlocated _ => "skipping issue without path or line"
  | .lineUnblamed path line =>
    "skipping " ++ lineText path line ++ " since no changeset is recorded for it"
  | .lineOutside path line revision =>
    "skipping " ++ lineText path line ++ " since commit " ++ revision ++
      " does not belong to the MR"

/-- A field that may be absent. -/
def optionalField (name : String) (value : Option String) : List (String × String) :=
  (value.map (name, ·)).toList

/-- What an event says besides its words, by name. -/
def fields : Event → List (String × String)
  | .requestNamed id => [("id", id)]
  | .triggerAccepted revision => [("revision", revision)]
  | .decorationFailed message => [("error", message)]
  | .rejectionMapped status => [("status", status)]
  | .decorationStarted project mergeRequest revision =>
    [("project", project), ("merge_request", mergeRequest), ("revision", revision)]
  | .decorationDone commits inline skipped =>
    [("commits", decimal commits), ("inline", decimal inline), ("skipped", decimal skipped)]
  | .statusAddress url | .commitsAddress url | .discussionsAddress url | .resourceReceived url
  | .linkRepeated url => [("url", url)]
  | .unexpectedStatus url expected actual body =>
    [("url", url), ("expected", decimal expected), ("actual", decimal actual), ("body", body)]
  | .pageReceived url count => [("url", url), ("count", decimal count)]
  | .commitsReceived count => [("count", decimal count)]
  | .mergeRequestReceived iid => [("iid", decimal iid.toNat)]
  | .postingStatus state coverage => [("state", state), ("coverage", coverage)]
  | .statusPosted state | .statusAlreadySet state => [("state", state)]
  | .postingComment url path line =>
    ("url", url) :: optionalField "path" path ++ optionalField "line" line
  | .issueUnlocated component => [("component", component)]
  | .triggerRejected | .pageFollows | .commentPosted | .lineUnblamed .. | .lineOutside .. => []

end Event

end MergeNotes
