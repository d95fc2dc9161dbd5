/-!
Binary floating-point numbers of double precision, held exactly: a finite one is a significand times
a power of two.  Every operation computes the exact result first and rounds it once.
-/

namespace PullGate

/-- A double-precision number. A finite one is `mantissa * 2 ^ (exponent - 1074)`, with a mantissa
below `2 ^ 53` that is at least `2 ^ 52` unless the exponent is `0`. -/
inductive Double where
  | nan
  | infinite (negative : Bool)
  | finite (negative : Bool) (mantissa exponent : Nat)
  deriving DecidableEq

namespace Double

def zero : Double := .finite false 0 0

/-- The quotient rounded to the nearest natural number, a half to the even one. -/
def roundHalfEven (num den : Nat) : Nat :=
  let q := num / den
  let twice := 2 * (num % den)
  if twice < den then q
  else if den < twice then q + 1
  else q + q % 2

/-- The exponent under which `num / den` has a significand of 53 bits, or `0` if it is too small
for that. -/
def exponentOf (num den : Nat) : Nat :=
  -- with `a` and `b` the bit lengths, the quotient lies between `2 ^ (a - b - 1)` and
  -- `2 ^ (a - b + 1)`
  let guess := num.log2 + 1074 - (den.log2 + 52)
  if guess = 0 then 0
  else if num * Nat.pow 2 1074 < Nat.pow 2 52 * den * Nat.pow 2 guess then guess - 1
  else guess

/-- The number nearest to `num / den`, of two the one with the even mantissa; infinite past the
largest one. -/
def ofRatio (negative : Bool) (num den : Nat) : Double :=
  if den = 0 then .nan
  else if num = 0 then .finite negative 0 0
  else
    let exponent := exponentOf num den
    let mantissa := roundHalfEven (num * Nat.pow 2 1074) (den * Nat.pow 2 exponent)
    -- rounding up can reach the next power of two
    let (mantissa, exponent) :=
      if mantissa = Nat.pow 2 53 then (Nat.pow 2 52, exponent + 1) else (mantissa, exponent)
    if 2045 < exponent then .infinite negative else .finite negative mantissa exponent

def ofInt (n : Int) : Double := ofRatio (n < 0) n.natAbs 1

/-- The number nearest to `digits * 10 ^ power`, where `count` is the number of digits. The bounds
on the size spare the arithmetic on numbers that are certainly infinite or zero. -/
def ofDecimal (negative : Bool) (digits count : Nat) (power : Int) : Double :=
  if digits = 0 then .finite negative 0 0
  else if 400 < power + count then .infinite negative
  else if power + count < -400 then .finite negative 0 0
  else if 0 ≤ power then ofRatio negative (digits * Nat.pow 10 power.toNat) 1
  else ofRatio negative digits (Nat.pow 10 (-power).toNat)

/-- Numerator (with its sign apart) and denominator of a finite number. -/
def ratio (mantissa exponent : Nat) : Nat × Nat :=
  if 1074 ≤ exponent then (mantissa * Nat.pow 2 (exponent - 1074), 1)
  else (mantissa, Nat.pow 2 (1074 - exponent))

def isFinite : Double → Bool
  | .finite .. => true
  | _ => false

def isZero : Double → Bool
  | .finite _ mantissa _ => mantissa = 0
  | _ => false

/-- Strictly greater than zero; not-a-number is not. -/
def isPositive : Double → Bool
  | .nan => false
  | .infinite negative => !negative
  | .finite negative mantissa _ => !negative && mantissa ≠ 0

/-- Less than or equal to zero; not-a-number is not. -/
def isAtMostZero : Double → Bool
  | .nan => false
  | .infinite negative => negative
  | .finite negative mantissa _ => negative || mantissa = 0

/-- The greatest integer that is no greater than a finite number. -/
def floor (negative : Bool) (mantissa exponent : Nat) : Int :=
  let (num, den) := ratio mantissa exponent
  if negative then -((num + den - 1) / den : Nat) else (num / den : Nat)

def toInt? : Double → Option Int
  | .finite negative mantissa exponent =>
    let (num, den) := ratio mantissa exponent
    if num % den = 0 then some (if negative then -(num / den : Nat) else (num / den : Nat))
    else none
  | _ => none

/-- The integer next to the number on the side of zero. -/
def truncate (negative : Bool) (mantissa exponent : Nat) : Int :=
  let (num, den) := ratio mantissa exponent
  if negative then -(num / den : Nat) else (num / den : Nat)

end Double

end PullGate
