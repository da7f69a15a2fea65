import MergeNotes.Decoration
import MergeNotes.Text.Blank

/-! The settings of the service, which come from the environment. -/

namespace MergeNotes

/-- What the service must be told before it starts. -/
structure Settings where
  /-- Where the service listens. -/
  address : String
  token : String
  root : String
  /-- What those who trigger a decoration have to know. -/
  secret : String
  deriving DecidableEq, Repr

/-- A setting that is absent or blank. -/
structure MissingSetting where
  name : String
  deriving DecidableEq, Repr

/-- The words for a missing setting. -/
def MissingSetting.message (missing : MissingSetting) : String :=
  "missing required environment variable: " ++ missing.name

namespace Settings

/-- A setting, which must be there and not be blank; blanks at its ends are kept. -/
def required (lookup : String → Option String) (name : String) : Except MissingSetting String :=
  match lookup name with
  | some value => if isBlankText value then .error ⟨name⟩ else .ok value
  | none => .error ⟨name⟩

/-- The settings found by name; the first that is missing is reported. -/
def ofLookup (lookup : String → Option String) : Except MissingSetting Settings := do
  let address ← required lookup "API_ADDRESS"
  let token ← required lookup "GITLAB_TOKEN"
  let root ← required lookup "PUBLIC_ROOT_URL"
  let secret ← required lookup "TRIGGER_SECRET"
  .ok ⟨address, token, root, secret⟩

/-- What decorations are given of the settings. -/
def access (settings : Settings) : Access :=
  ⟨settings.token, settings.root⟩

end Settings

end MergeNotes
