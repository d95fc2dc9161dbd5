import PullGate.Failure
import PullGate.Http.Message
import PullGate.Log

/-!
The wire between a session and the network: a script of replies to the requests in the order in
which they are sent, the requests sent so far, and what the session keeps between two of them.
-/

namespace PullGate

namespace Http

abbrev Reply := Except TransportFault Response

/-- The reply that the head of an answer and the octets behind it make up. -/
def Reply.ofParts (reading : Reading) (status : Nat) (reason contentType : Text)
    (octets : Octets) : Reply :=
  let body := if Response.isBodiless status then [] else octets
  match Charset.mention contentType with
  | .nothing => .ok ⟨status, reason, none, body, reading⟩
  | .bare => .error .bareCharset
  | .named name => .ok ⟨status, reason, some name, body, reading⟩

end Http

/-- The state of a session on a script of replies. The token slot holds text that is empty until a
token was obtained. -/
structure Wire where
  replies : List Http.Reply
  sent : List Http.Request := []
  token : Json := .string []
  log : List Log.Entry := []

/-- An action on the wire that can fail. What it did before it failed stays done. -/
abbrev Net (α : Type) := ExceptT Failure (StateM Wire) α

namespace Wire

/-- What a request gets once the script is used up. -/
def silence : TransportFault := .network .connection "no scripted response left"

def transmit (request : Http.Request) : StateM Wire Http.Reply := fun w =>
  let sent := w.sent ++ [request]
  match w.replies with
  | [] => (.error silence, { w with sent })
  | reply :: replies => (reply, { w with sent, replies })

def record (entry : Log.Entry) : StateM Wire Unit :=
  modify fun w => { w with log := w.log ++ [entry] }

def keepToken (token : Json) : StateM Wire Unit := modify fun w => { w with token }

end Wire

end PullGate
