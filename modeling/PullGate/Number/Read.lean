import PullGate.Number.Double
import PullGate.Text.Blank
import PullGate.Text.Decimal

/-!
Decimal text of a number: an optional sign, digits with an optional fraction, an optional exponent,
or one of the words for infinity and not-a-number.
-/

namespace PullGate.Double

def splitSign : Text → Bool × Text
  | .scalar '-' :: t => (true, t)
  | .scalar '+' :: t => (false, t)
  | t => (false, t)

/-- The exponent that a text gives: `e` or `E`, an optional sign, and at least one digit, or nothing
at all. -/
def exponent? : Text → Option Int
  | [] => some 0
  | c :: t =>
    if c = 'e' || c = 'E' then
      let (negative, digits) := splitSign t
      (Text.toNat? digits).map fun (n : Nat) => if negative then -(n : Int) else n
    else none

/-- The number that unsigned decimal text gives: digits on at least one side of the point. -/
def readMagnitude? (negative : Bool) (t : Text) : Option Double :=
  let (whole, t) := Text.spanDigits t
  let (fraction, t) : Text × Text := match t with
    | .scalar '.' :: t => Text.spanDigits t
    | t => ([], t)
  if whole.isEmpty && fraction.isEmpty then none
  else
    let digits := whole ++ fraction
    (exponent? t).map fun exponent =>
      ofDecimal negative (Text.digitsValue 0 digits) digits.length (exponent - fraction.length)

/-- The number that decimal text gives; the words for infinity and not-a-number in any case. -/
def read? (t : Text) : Option Double :=
  let (negative, magnitude) := splitSign t
  let word := Text.lowerAscii magnitude
  if word = "inf" || word = "infinity" then some (.infinite negative)
  else if word = "nan" then some .nan
  else readMagnitude? negative magnitude

end PullGate.Double
