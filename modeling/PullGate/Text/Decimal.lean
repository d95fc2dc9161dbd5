import PullGate.Text.Basic

/-!
Decimal numerals: natural numbers and integers written with the digits `0` to `9`, and runs of
digits read back.
-/

namespace PullGate

def CodePoint.ofDigit (d : Nat) : CodePoint := CodePoint.ofNat (0x30 + d)

namespace Text

/-- The digits of `n` in front of `rest`, leading digit first; `0` is one digit. -/
def natDigits (n : Nat) (rest : Text) : Text :=
  if n < 10 then CodePoint.ofDigit n :: rest
  else natDigits (n / 10) (CodePoint.ofDigit (n % 10) :: rest)

def ofNat (n : Nat) : Text := natDigits n []

/-- An integer in decimal, with `-` in front of a negative one. -/
def ofInt : Int → Text
  | .ofNat n => ofNat n
  | .negSucc n => '-' :: ofNat (n + 1)

def zeros (count : Nat) : Text := List.replicate count (.scalar '0')

/-- The digits of `n` with zeros in front up to the given width. -/
def padNat (width n : Nat) : Text :=
  let digits := ofNat n
  zeros (width - digits.length) ++ digits

/-- The number that a run of digits continues: `value` followed by the digits. -/
def digitsValue (value : Nat) : Text → Nat
  | [] => value
  | c :: t => digitsValue (value * 10 + (c.toNat - 0x30)) t

/-- The natural number that a text of one or more digits stands for. -/
def toNat? (t : Text) : Option Nat :=
  if t.isEmpty || !t.all CodePoint.isDigit then none else some (digitsValue 0 t)

/-- The leading digits and what follows them. -/
def spanDigits (t : Text) : Text × Text := t.span CodePoint.isDigit

/-- A natural number in hexadecimal, lower case, with zeros in front up to the given width. -/
def padHex (width n : Nat) : Text :=
  let digits := (Nat.toDigits 16 n).map CodePoint.scalar
  zeros (width - digits.length) ++ digits

end Text

end PullGate
