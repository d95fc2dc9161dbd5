import PullGate.Number.Double
import PullGate.Text.Decimal

/-!
The fewest decimal digits that read back as the same number, and the form in which numbers are
written: positional for decimal exponents from -4 to 15, with an exponent otherwise.
-/

namespace PullGate.Double

/-- Decimal digits with the place of the point: `digits * 10 ^ power`. -/
structure Decimal where
  digits : Nat
  power : Int
  deriving DecidableEq

/-- How often ten divides the number, at most `fuel` times, and the quotient. -/
def stripZeros : (fuel digits : Nat) → (power : Int) → Decimal
  | 0, digits, power => ⟨digits, power⟩
  | fuel + 1, digits, power =>
    if digits % 10 = 0 && digits ≠ 0 then stripZeros fuel (digits / 10) (power + 1)
    else ⟨digits, power⟩

/-- The least `k` below `fuel` with `den ≤ num * 10 ^ k`. -/
def leadingZeros : (fuel num den : Nat) → Nat
  | 0, _, _ => 0
  | fuel + 1, num, den => if den ≤ num then 0 else leadingZeros fuel (num * 10) den + 1

/-- The `p` with `10 ^ (p - 1) ≤ num / den < 10 ^ p`, for a quotient above `10 ^ -400`. -/
def decimalPlace (num den : Nat) : Int :=
  if den ≤ num then (Nat.toDigits 10 (num / den)).length
  else 1 - (leadingZeros 400 num den : Int)

/-- The numbers that round to `mantissa * 2 ^ (exponent - 1074)`: from `low / den` to `high / den`
around `num / den`, ends included if the mantissa is even. -/
structure Interval where
  low : Nat
  num : Nat
  high : Nat
  den : Nat
  closed : Bool

def interval (mantissa exponent : Nat) : Interval :=
  let scale := if 1076 ≤ exponent then Nat.pow 2 (exponent - 1076) else 1
  let den := if 1076 ≤ exponent then 1 else Nat.pow 2 (1076 - exponent)
  -- below a power of two the numbers lie twice as dense
  let below := if mantissa = Nat.pow 2 52 && 0 < exponent then 1 else 2
  ⟨(4 * mantissa - below) * scale, 4 * mantissa * scale, (4 * mantissa + 2) * scale, den,
    mantissa % 2 = 0⟩

def Interval.holds (i : Interval) (n d : Nat) : Bool :=
  if i.closed then i.low * d ≤ n * i.den && n * i.den ≤ i.high * d
  else i.low * d < n * i.den && n * i.den < i.high * d

/-- The decimal of the given power nearest to the number that lies in the interval, if one does. -/
def Interval.onGrid (i : Interval) (power : Int) : Option Nat :=
  let up := Nat.pow 10 power.toNat
  let down := Nat.pow 10 (-power).toNat
  let below := i.num * down / (i.den * up)
  let rest := i.num * down % (i.den * up)
  let lowHit := below ≠ 0 && i.holds (below * up) down
  let highHit := i.holds ((below + 1) * up) down
  match lowHit, highHit with
  | false, false => none
  | true, false => some below
  | false, true => some (below + 1)
  | true, true =>
    if 2 * rest < i.den * up then some below
    else if i.den * up < 2 * rest then some (below + 1)
    else some (below + below % 2)

/-- The first grid that hits, from `count` digits on, with `fuel` grids to try. -/
def Interval.shortestFrom (i : Interval) (place : Int) : (fuel count : Nat) → Decimal
  | 0, _ => ⟨i.num / i.den, 0⟩
  | fuel + 1, count =>
    let power := place - count
    match i.onGrid power with
    | some digits => stripZeros 400 digits power
    | none => i.shortestFrom place fuel (count + 1)

/-- The shortest decimal that reads back as this finite number, of several the nearest. -/
def shortest (mantissa exponent : Nat) : Decimal :=
  if mantissa = 0 then ⟨0, 0⟩
  else
    let i := interval mantissa exponent
    i.shortestFrom (decimalPlace i.num i.den) 17 1

/-- A decimal in the written form: at least one digit on each side of the point, and an exponent of
at least two digits where the leading digit stands for less than `10 ^ -4` or at least `10 ^ 16`. -/
def Decimal.write (d : Decimal) : Text :=
  let digits := Text.ofNat d.digits
  let lead := d.power + digits.length - 1
  if lead < -4 || 16 ≤ lead then
    let fraction : Text := match digits.tail with
      | [] => []
      | tail => .scalar '.' :: tail
    let sign : Text := if lead < 0 then "e-" else "e+"
    digits.take 1 ++ fraction ++ sign ++ Text.padNat 2 lead.natAbs
  else if lead < 0 then
    "0." ++ Text.zeros (-lead - 1).toNat ++ digits
  else if 0 ≤ d.power then
    digits ++ Text.zeros d.power.toNat ++ ".0"
  else
    digits.take (lead + 1).toNat ++ .scalar '.' :: digits.drop (lead + 1).toNat

def write : Double → Text
  | .nan => "nan"
  | .infinite negative => if negative then "-inf" else "inf"
  | .finite negative mantissa exponent =>
    (if negative then "-" else "") ++ (shortest mantissa exponent).write

end PullGate.Double
