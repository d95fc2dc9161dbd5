import PullGate.Http.Wire
import PullGate.Text.Base64

/-!
The exchange of a client's key and secret for an access token.
-/

namespace PullGate.Token

structure Credentials where
  key : Text
  secret : Text
  timeout : Http.Seconds
  deriving DecidableEq

/-- The header value under which a name and a password are sent, given as octets with a colon
between. -/
def basicHeader (octets : Octets) : Text := "Basic " ++ Base64.encode octets

/-- The request for a token; the credentials travel in Latin-1. -/
def Credentials.request (c : Credentials) : Except Latin1.Fault Http.Request :=
  match Latin1.encode (c.key ++ .scalar ':' :: c.secret) with
  | .error fault => .error fault
  | .ok octets => .ok {
      method := "POST"
      url := endpoint
      authorization := some (basicHeader octets)
      accept := some "application/json"
      contentType := some "application/x-www-form-urlencoded;charset=UTF-8"
      timeout := c.timeout
      body := some "grant_type=client_credentials" }

/-- The member of a name, if its value counts as true. -/
def given? (name : Text) (members : List (Text × Json)) : Option Json :=
  (Json.lookup name members).filter Json.isTruthy

/-- Checks the lifetime that comes with a token: the time of expiry, or the number of seconds where
the former is absent or malformed. -/
def checkLifetime (members : List (Text × Json)) : Except Expiry.Fault Unit :=
  let duration : Except Expiry.Fault Unit := match given? "expires_in" members with
    | some j => (Expiry.seconds j).map fun _ => ()
    | none => .ok ()
  match given? "expires_at" members with
  | none => duration
  | some j =>
    match Expiry.seconds j with
    | .ok _ => .ok ()
    | .error fault => if fault.isRefusal then duration else .error fault

def declined (error : Json) (members : List (Text × Json)) : Refusal :=
  let error : Text := match error with
    | .null => "oauth_error"
    | j => j.display
  let description : Text := match Json.lookup "error_description" members with
    | none | some .null => []
    | some j => j.display
  .declined error description

def ofMembers (members : List (Text × Json)) : Except Failure Json :=
  match Json.lookup "error" members with
  | some error => .error (.stop (.auth (declined error members)))
  | none =>
    match checkLifetime members with
    | .error fault =>
      .error (if fault.isRefusal then .stop (.auth (.expiry fault)) else .breakdown (.expiry fault))
    | .ok () =>
      match given? "access_token" members with
      | some token => .ok token
      | none => .error (.stop (.auth .noToken))

def ofResponse (r : Http.Response) : Except Failure Json :=
  if 500 ≤ r.status && r.status < 600 then .error (.stop (.auth (.server r.status r.reason)))
  else match r.json with
    | .ok (.object members) => ofMembers members
    | .error (.json _ (.tooDeep container)) => .error (.breakdown (.tooDeep container))
    | _ => .error (.stop (.auth (if 400 ≤ r.status && r.status < 500
        then .client r.status r.reason else .notObject r.status)))

def ofFault : TransportFault → Failure
  | .broken message => .breakdown (.broken message)
  | .bareCharset => .breakdown .bareCharset
  | fault => .stop (.auth (.transport fault))

/-- Exchanges the credentials for a new token, which replaces the one in the slot. -/
def renew (c : Credentials) : Net Json := do
  let request ← match c.request with
    | .ok request => pure request
    | .error fault => throw (.stop (.auth (.credentials fault)))
  let response ← match ← Wire.transmit request with
    | .ok response => pure response
    | .error fault => throw (ofFault fault)
  let token ← ofResponse response
  Wire.record ⟨.debug, .auth, "Obtained a new OAuth2 access token"⟩
  Wire.keepToken token
  return token

/-- The token in the slot, exchanged first if there is none. -/
def current (c : Credentials) : Net Json := do
  let token := (← get).token
  if token.isTruthy then return token else renew c

def header (token : Json) : Text := "Bearer " ++ token.display

end PullGate.Token
