import PullGate.Json.Reader
import PullGate.Number.Double
import PullGate.Text.Charset

/-!
Requests as they are sent, and the responses to them.
-/

namespace PullGate.Http

inductive Seconds where
  | whole (count : Int)
  | fraction (count : Double)
  deriving DecidableEq

/-- A request as it reaches the transport. -/
structure Request where
  method : Text
  url : Text
  authorization : Option Text
  accept : Option Text
  contentType : Option Text
  timeout : Seconds
  body : Option Text
  deriving DecidableEq

/-- What reading a body takes that comes from outside: codecs for names other than those of the
usual charsets, a guess at the charset where none is named, and room for nested JSON. -/
structure Reading where
  codec? : Text → Option (Octets → Except Charset.Fault Text) := fun _ => none
  detect? : Octets → Option Text := fun _ => none
  room : Json.Room := .usual

/-- The text of octets in the charset of a name; a name that no codec has is passed over. -/
def Reading.decode (g : Reading) (name : Text) (o : Octets) : Except Charset.Fault Text :=
  if name.any (· = '\x00') then .error ⟨"embedded null character"⟩
  else match Charset.ofName? name, g.codec? name with
    | some charset, _ => .ok (charset.scan o).lossy
    | none, some codec => codec o
    | none, none => .ok (Utf8.decodeLossy o)

/-- A response as far as a program looks at it. It names no other place to ask, so no response is a
redirect that is followed. -/
structure Response where
  status : Nat
  reason : Text
  charset : Option Text
  body : Octets
  reading : Reading := {}

namespace Response

/-- Whether an answer of this status carries no body, whatever follows its head. -/
def isBodiless (status : Nat) : Bool :=
  (100 ≤ status && status < 200) || status = 204 || status = 304

def isSuccess (r : Response) : Bool := 200 ≤ r.status && r.status < 300

/-- The body as text, in the charset that is named for it or else detected. -/
def text (r : Response) : Except Charset.Fault Text :=
  if r.body.isEmpty then .ok []
  else match r.charset.or (r.reading.detect? r.body) with
    | some name => r.reading.decode name r.body
    | none => .ok (Utf8.decodeLossy r.body)

/-- The body as the text of a JSON document. Without a name for its charset, the first octets show
that, if the body holds nothing but characters in it. -/
def document (r : Response) : Except Charset.Fault Text :=
  let isUnnamed := r.charset.all List.isEmpty && 3 < r.body.length
  let guessed? := if isUnnamed then Charset.guess? r.body else none
  match guessed?.bind fun c => (c.scan r.body).strict? with
  | some document => .ok document
  | none => r.text

/-- Why a body gives no JSON value. -/
inductive Fault where
  | charset (fault : Charset.Fault)
  | json (document : Text) (error : Json.ReadError)

def json (r : Response) : Except Fault Json :=
  match r.document with
  | .error fault => .error (.charset fault)
  | .ok document => (Json.readTo r.reading.room.count document).mapError (.json document)

end Response

end PullGate.Http
