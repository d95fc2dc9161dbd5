import PullGate.Text.Basic

/-!
Where and as whom a run publishes.
-/

namespace PullGate

/-- Connection details. The token is the credential itself, or the secret that belongs to the key if
there is one. -/
structure Configuration where
  url : Text
  token : Text
  oauth2Key : Text
  repository : Text
  project : Text
  deriving DecidableEq

/-- Whether a bearer token is exchanged for key and secret. -/
def Configuration.isOauth2 (c : Configuration) : Bool := !c.oauth2Key.isEmpty

end PullGate
