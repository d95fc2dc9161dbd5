import PullGate.Text.Utf8

/-!
Base64 with the standard alphabet and `=` padding.
-/

namespace PullGate.Base64

def digit (v : Nat) : CodePoint :=
  if v < 26 then CodePoint.ofNat (0x41 + v)
  else if v < 52 then CodePoint.ofNat (0x61 + (v - 26))
  else if v < 62 then CodePoint.ofNat (0x30 + (v - 52))
  else if v = 62 then '+'
  else '/'

def value? (c : CodePoint) : Option Nat :=
  let n := c.toNat
  if c.isUpperAscii then some (n - 0x41)
  else if c.isLowerAscii then some (n - 0x61 + 26)
  else if c.isDigit then some (n - 0x30 + 52)
  else if c = '+' then some 62
  else if c = '/' then some 63
  else none

/-- Three octets become four digits; a last group of one or two is padded. -/
def encode : Octets → Text
  | [] => []
  | [a] => [digit (a.toNat / 4), digit (a.toNat % 4 * 16), '=', '=']
  | [a, b] =>
    [digit (a.toNat / 4), digit (a.toNat % 4 * 16 + b.toNat / 16), digit (b.toNat % 16 * 4), '=']
  | a :: b :: c :: rest =>
    digit (a.toNat / 4) :: digit (a.toNat % 4 * 16 + b.toNat / 16)
      :: digit (b.toNat % 16 * 4 + c.toNat / 64) :: digit (c.toNat % 64) :: encode rest

/-- The octets that a padded text stands for. -/
def decode? : Text → Option Octets
  | [] => some []
  | w :: x :: y :: z :: rest => do
    let w ← value? w
    let x ← value? x
    let a := (w * 4 + x / 16).toUInt8
    if y = .scalar '=' then
      if z = .scalar '=' && rest.isEmpty && x % 16 = 0 then some [a] else none
    else
      let y ← value? y
      let b := (x % 16 * 16 + y / 4).toUInt8
      if z = .scalar '=' then
        if rest.isEmpty && y % 4 = 0 then some [a, b] else none
      else
        let z ← value? z
        let c := (y % 4 * 64 + z).toUInt8
        (decode? rest).map fun octets => a :: b :: c :: octets
  | _ => none

end PullGate.Base64
