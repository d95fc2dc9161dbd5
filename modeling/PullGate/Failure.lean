import PullGate.Batch
import PullGate.Comment.Listing
import PullGate.Http.Message
import PullGate.Http.Url
import PullGate.Text.Latin1
import PullGate.Token.Expiry

/-!
What can go wrong in a run.  A `Stop` ends the run and is reported in its result; a `Breakdown` is
not provided for and leaves the program.
-/

namespace PullGate

inductive NetworkFault where
  | connection
  | readTimeout
  | connectTimeout
  | timeout
  | tls
  | brokenBody
  deriving DecidableEq

/-- What the transport can report in the place of a response. Only faults of the network are
foreseen; the bare charset is that of a content type with a `charset` parameter without a value. -/
inductive TransportFault where
  | network (fault : NetworkFault) (message : Text)
  | badValue (message : Text)
  | broken (message : Text)
  | bareCharset
  deriving DecidableEq

def bareCharsetMessage : Text := "'bool' object has no attribute 'strip'"

def TransportFault.message : TransportFault → Text
  | .network _ message => message
  | .badValue message => message
  | .broken message => message
  | .bareCharset => bareCharsetMessage

namespace Token

def endpoint : Text := "https://bitbucket.org/site/oauth2/access_token"

inductive Refusal where
  | credentials (fault : Latin1.Fault)
  | transport (fault : TransportFault)
  | server (status : Nat) (reason : Text)
  | client (status : Nat) (reason : Text)
  | notObject (status : Nat)
  | declined (error description : Text)
  | expiry (fault : Expiry.Fault)
  | noToken
  deriving DecidableEq

def statusMessage (status : Nat) (side reason : Text) : Text :=
  Text.ofNat status ++ " " ++ side ++ " Error: " ++ reason ++ " for url: " ++ endpoint

def Refusal.message (refusal : Refusal) : Text :=
  let exchange (why : Text) : Text := "Could not obtain an OAuth2 access token: " ++ why
  match refusal with
  | .credentials fault => exchange fault.message
  | .transport fault => exchange fault.message
  | .server status reason => exchange (statusMessage status "Server" reason)
  | .client status reason => exchange (statusMessage status "Client" reason)
  | .notObject status =>
    exchange ("Token endpoint response is not a JSON object (HTTP " ++ Text.ofNat status ++ ").")
  | .declined error description => exchange (error ++ ": " ++ description)
  | .expiry fault => exchange fault.message
  | .noToken => "OAuth2 token response did not contain an access_token"

end Token

/-- A failure that ends a run and is reported in its result. -/
inductive Stop where
  | provider (status : Nat) (body : Text)
  | auth (refusal : Token.Refusal)
  | network (fault : NetworkFault) (message : Text)
  | address (fault : Url.Fault)
  | header (value : Text)
  | noTransport (url : Text)
  | unwritableBody
  | malformedAnswer (document : Text) (problem : Json.Malformed) (left : Nat)
  deriving DecidableEq

def Stop.message : Stop → Text
  | .provider status body =>
    "Bitbucket responded with HTTP " ++ Text.ofNat status ++ ": " ++ body
  | .auth refusal => refusal.message
  | .network _ message => message
  | .address fault => fault.message
  | .header value =>
    "Invalid leading whitespace, reserved character(s), or return character(s) in header value: "
      ++ Text.quoted value
  | .noTransport url => "No connection adapters were found for " ++ Text.quoted url
  | .unwritableBody => "Out of range float values are not JSON compliant"
  | .malformedAnswer document problem left =>
    (Json.ReadError.malformed problem left).message document

/-- A failure that is not provided for. -/
inductive Breakdown where
  | badValue (message : Text)
  | broken (message : Text)
  | bareCharset
  | charset (fault : Charset.Fault)
  | credentials (fault : Latin1.Fault)
  | tooDeep (container : Json.Container)
  | tooManyDigits (count : Nat)
  | expiry (fault : Expiry.Fault)
  | comments (fault : Comment.ShapeFault)
  | batchSize (fault : Batch.BadSize)
  deriving DecidableEq

def Breakdown.message : Breakdown → Text
  | .badValue message => message
  | .broken message => message
  | .bareCharset => bareCharsetMessage
  | .charset fault => fault.message
  | .credentials fault => fault.message
  | .tooDeep container => container.message
  | .tooManyDigits count => (Json.ReadError.tooManyDigits count).message []
  | .expiry fault => fault.message
  | .comments fault => fault.message
  | .batchSize fault => fault.message

/-- What ends a run before its end. -/
inductive Failure where
  | stop (cause : Stop)
  | breakdown (cause : Breakdown)
  deriving DecidableEq

namespace Failure

def message : Failure → Text
  | .stop cause => cause.message
  | .breakdown cause => cause.message

def ofTransport : TransportFault → Failure
  | .network fault message => .stop (.network fault message)
  | .badValue message => .breakdown (.badValue message)
  | .broken message => .breakdown (.broken message)
  | .bareCharset => .breakdown .bareCharset

def ofReading : Http.Response.Fault → Failure
  | .charset fault => .breakdown (.charset fault)
  | .json document (.malformed problem left) => .stop (.malformedAnswer document problem left)
  | .json _ (.tooDeep container) => .breakdown (.tooDeep container)
  | .json _ (.tooManyDigits count) => .breakdown (.tooManyDigits count)

end Failure

end PullGate
