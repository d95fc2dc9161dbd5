import PullGate.Session.Call

/-!
Sessions.  Without credentials of a client a call is one request.  With them the request carries a
bearer token, and one that looks stale is renewed once, after which the request is sent again.
-/

namespace PullGate.Session

/-- A session that accepts anything and sends a token. -/
def ofCredentials (c : Token.Credentials) : Session := ⟨"*/*", none, some c⟩

/-- A request that was answered, and the statuses of the answers that were not taken. -/
structure Exchange where
  request : Http.Request
  response : Http.Response
  history : List Nat

/-- The statuses that a stale token can be answered with. -/
def isChallenge (status : Nat) : Bool := status = 401 || status = 403 || status = 404

/-- A request with the token in the slot, exchanged first if there is none. -/
def attach (c : Token.Credentials) (r : Http.Request) : Net Http.Request := do
  let token ← Token.current c
  return { r with authorization := some (Token.header token) }

/-- A request with a new token, after an answer of the given status. -/
def reauthenticate (c : Token.Credentials) (r : Http.Request) (status : Nat) :
    Net Http.Request := do
  Wire.record ⟨.info, .auth,
    "Provider answered " ++ Text.ofNat status ++ " for " ++ r.url
      ++ ", refreshing the access token"⟩
  let token ← Token.renew c
  return { r with authorization := some (Token.header token) }

/-- Sends a request with a token, once more with a new one if the first looks stale. -/
def sendWithToken (c : Token.Credentials) (r : Http.Request) : Net Exchange := do
  let r ← attach c r
  let first ← deliver r
  if isChallenge first.status then
    let retry ← reauthenticate c r first.status
    return ⟨retry, ← deliver retry, [first.status]⟩
  else
    return ⟨r, first, []⟩

/-- Sends a request as it is, but for the credentials of its address. -/
def sendPlain (r : Http.Request) : Net Exchange := do
  match withAddressCredentials r with
  | .error fault => throw (.breakdown (.credentials fault))
  | .ok r => return ⟨r, ← deliver r, []⟩

def exchange (s : Session) (c : Call) : Net Exchange := do
  let r ← match s.prepare c with
    | .ok r => pure r
    | .error stop => throw (.stop stop)
  match s.bearer with
  | none => sendPlain r
  | some credentials => sendWithToken credentials r

def perform (s : Session) (c : Call) : Net Http.Response := do
  return (← s.exchange c).response

end PullGate.Session
