import PullGate.Json.Writer
import PullGate.Text.Upper
import PullGate.Token.Basic

/-!
Calls of a session: how one is made into a request, and the authorization that the request carries.
-/

namespace PullGate

structure Call where
  method : Text
  url : Text
  query : List (Text × Text) := []
  body : Option Json := none
  timeout : Http.Seconds
  idna : Url.Idna := .ascii

/-- A call with any method, which is sent in upper case, and an optional body. -/
def Call.plain (method url : Text) (body : Option Json) (timeout : Http.Seconds) : Call :=
  { method := Text.upper method, url, body, timeout }

mutual

/-- Whether every number in a value is finite; only then the value has a standard form. -/
def Json.isStandard : Json → Bool
  | .double d => d.isFinite
  | .array items => areStandard items
  | .object members => haveStandardValues members
  | _ => true

def Json.areStandard : List Json → Bool
  | [] => true
  | item :: items => isStandard item && areStandard items

def Json.haveStandardValues : List (Text × Json) → Bool
  | [] => true
  | (_, value) :: members => isStandard value && haveStandardValues members

end

/-- The headers and credentials with which a session sends. With a client's credentials a bearer
token takes the place of the authorization. -/
structure Session where
  accept : Text
  authorization : Option Text
  bearer : Option Token.Credentials

namespace Session

/-- Without the one line end that a header value may close with. -/
def dropLineEnd (t : Text) : Text :=
  match t.reverse with
  | .scalar '\n' :: rest => rest.reverse
  | _ => t

/-- A header value does not begin with a blank and is all on one line. -/
def isHeaderValue : Text → Bool
  | [] => true
  | c :: t => !c.isSpacing && (dropLineEnd t).all fun c => c ≠ .scalar '\r' && c ≠ .scalar '\n'

/-- The request for a call, before its authorization is settled. -/
def prepare (s : Session) (c : Call) : Except Stop Http.Request := do
  let url ← (Url.prepare c.idna c.url c.query).mapError .address
  match s.authorization with
  | some value => unless isHeaderValue value do throw (.header value)
  | none => pure ()
  match c.body with
  | some body => unless body.isStandard do throw .unwritableBody
  | none => pure ()
  return {
    method := c.method
    url
    authorization := s.authorization
    accept := some s.accept
    contentType := c.body.map fun _ => "application/json"
    timeout := c.timeout
    body := c.body.map Json.write }

/-- A request with the user and password of its address, if that names them. -/
def withAddressCredentials (r : Http.Request) : Except Latin1.Fault Http.Request :=
  match Url.credentials? r.url with
  | none => .ok r
  | some (user, password) => do
    let user ← Latin1.encode user
    let password ← Latin1.encode password
    return { r with authorization := some (Token.basicHeader (user ++ 0x3A :: password)) }

def deliver (r : Http.Request) : Net Http.Response := do
  unless Url.isSendable r.url do throw (.stop (.noTransport r.url))
  match ← Wire.transmit r with
  | .ok response => return response
  | .error fault => throw (.ofTransport fault)

end Session

end PullGate
