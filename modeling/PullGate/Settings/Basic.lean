import PullGate.Configuration
import PullGate.Settings.Sources
import PullGate.Validation.Scalar

/-!
The settings of a run: each is checked on its own, then the required ones and the timeout together.
-/

namespace PullGate

structure Settings where
  url : Text
  token : Text
  oauth2Key : Text
  project : Text
  repository : Text
  approval : Bool
  timeout : Double
  logLevel : Text
  deriving DecidableEq

namespace Settings

def subject : Text := "Settings"

def defaultUrl : Text := "https://api.bitbucket.org"

/-- The value of one setting, or its default if no source gives one. -/
def field {α : Type} (s : Sources) (name : Text) (check : Json → Checked α) (absent : α) :
    Checked α :=
  match s.raw? name with
  | some j => (check j).within (.key name)
  | none => .ok absent

/-- The eight settings, each checked on its own. -/
def fields (s : Sources) : Checked Settings :=
  Checked.pure Settings.mk
    |>.ap (field s "bitbucket_url" Check.text defaultUrl)
    |>.ap (field s "bitbucket_token" Check.text [])
    |>.ap (field s "bitbucket_oauth2_key" Check.text [])
    |>.ap (field s "bitbucket_project_key" Check.text [])
    |>.ap (field s "bitbucket_repository_slug" Check.text [])
    |>.ap (field s "pull_request_approval_enabled" Check.boolean false)
    |>.ap (field s "http_timeout" Check.number (Double.ofInt 10))
    |>.ap (field s "log_level" Check.text "INFO")

def missing (s : Settings) : List Text :=
  [("BITBUCKET_TOKEN", s.token), ("BITBUCKET_PROJECT_KEY", s.project),
    ("BITBUCKET_REPOSITORY_SLUG", s.repository)].filterMap fun (name, value) =>
      if value.isEmpty then some (Text.ofString name) else none

/-- The rules on settings that are each well-formed. -/
def enforce (s : Settings) : Checked Settings :=
  let s := { s with url := Text.trimRight (· = '/') s.url }
  if !s.missing.isEmpty then
    .fail (.rule ("Missing required setting(s): " ++ Text.join ", " s.missing))
  else if s.timeout.isAtMostZero then
    .fail (.rule "HTTP_TIMEOUT must be a positive number of seconds.")
  else .ok s

def ofSources (s : Sources) : Except Rejection Settings :=
  match fields s >>= enforce with
  | .ok settings => .ok settings
  | .error problems => .error ⟨subject, problems⟩

def toConfiguration (s : Settings) : Configuration where
  url := s.url
  token := s.token
  oauth2Key := s.oauth2Key
  repository := s.repository
  project := s.project

end Settings

end PullGate
