import PullGate.Json.Display
import PullGate.Json.Reader
import PullGate.Text.Blank
import PullGate.Text.Digit

/-!
The time at which a token expires, or how long it lasts: a number of seconds, which may come as
text.
-/

namespace PullGate.Expiry

inductive Fault where
  | malformed (text : Text)
  | tooManyDigits (count : Nat)
  | notANumber
  | infinite
  | notScalar (kind : Text)
  deriving DecidableEq

/-- Whether the exchange is refused for the fault; an infinite value, or one of a kind that never is
a number, breaks the run down instead. -/
def Fault.isRefusal : Fault → Bool
  | .infinite | .notScalar _ => false
  | _ => true

def Fault.message : Fault → Text
  | .malformed text =>
    "invalid literal for int() with base 10: " ++ (Text.quoted text).take 200
  | .tooManyDigits count => (Json.ReadError.tooManyDigits count).message []
  | .notANumber => "cannot convert float NaN to integer"
  | .infinite => "cannot convert float infinity to integer"
  | .notScalar kind =>
    "int() argument must be a string, a bytes-like object or a real number, not '" ++ kind ++ "'"

/-- Whether underscores stand only between two other characters. -/
def wellSpaced (run : Text) : Bool :=
  run.head? ≠ some (.scalar '_') && run.getLast? ≠ some (.scalar '_')
    && !Text.containsText "__" run

/-- The integer of a text: an optional sign and digits of any script, single underscores between. -/
def ofText (text : Text) : Except Fault Int :=
  let (negative, t) : Bool × Text := match Text.trim CodePoint.isWhiteSpace text with
    | .scalar '-' :: t => (true, t)
    | .scalar '+' :: t => (false, t)
    | t => (false, t)
  let (run, rest) := t.span fun c => c = .scalar '_' || c.anyDigit?.isSome
  let digits := run.filterMap CodePoint.anyDigit?
  if !wellSpaced run then .error (.malformed text)
  else if Json.digitLimit < digits.length then .error (.tooManyDigits digits.length)
  else if digits.isEmpty || !rest.isEmpty then .error (.malformed text)
  else
    let n : Int := (digits.foldl (fun n d => n * 10 + d) 0 : Nat)
    .ok (if negative then -n else n)

/-- The number of seconds that a value gives; a fraction is cut off. -/
def seconds : Json → Except Fault Int
  | .bool value => .ok (if value then 1 else 0)
  | .int n => .ok n
  | .double .nan => .error .notANumber
  | .double (.infinite _) => .error .infinite
  | .double (.finite negative mantissa exponent) =>
    .ok (Double.truncate negative mantissa exponent)
  | .string t => ofText t
  | j => .error (.notScalar j.kind)

end PullGate.Expiry
