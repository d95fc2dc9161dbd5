import PullGate.Text.Utf8

/-!
Reading UTF-16 and UTF-32, whose units are wider than an octet.  Half of a pair that stands alone is
no character, nor is a number that names none, and nor are octets that are left over.
-/

namespace PullGate

/-- The number that octets make up, the first one the highest. -/
def Octets.toNat (o : Octets) : Nat := o.foldl (fun n b => n * 0x100 + b.toNat) 0

namespace Utf16

/-- The units of octets in pairs; an octet that is left over is none. -/
def units (bigEndian : Bool) : Octets → List (Option Nat)
  | [] => []
  | [_] => [none]
  | a :: b :: rest =>
    some (if bigEndian then Octets.toNat [a, b] else Octets.toNat [b, a]) :: units bigEndian rest

/-- The characters of units. What follows the first half of a pair and is no unit belongs to it. -/
def ofUnits : List (Option Nat) → Scan
  | [] => []
  | none :: _ => [none]
  | some u :: rest =>
    let c := CodePoint.ofNat u
    if c.isHigh then
      match rest with
      | some v :: rest =>
        let d := CodePoint.ofNat v
        if d.isLow then some (CodePoint.ofPair c d) :: ofUnits rest
        else none :: ofUnits (some v :: rest)
      | _ => [none]
    else (if c.isLow then none else some c) :: ofUnits rest

def scan (bigEndian : Bool) (octets : Octets) : Scan := ofUnits (units bigEndian octets)

/-- The characters of octets that may begin with a byte order mark; without one the low octet comes
first. -/
def scanMarked : Octets → Scan
  | 0xFE :: 0xFF :: rest => scan true rest
  | 0xFF :: 0xFE :: rest => scan false rest
  | octets => scan false octets

end Utf16

namespace Utf32

/-- The character of a number, if it is that of one; the halves of pairs are none. -/
def character? (n : Nat) : Option CodePoint :=
  if n.isValidChar then some (CodePoint.ofNat n) else none

def scan (bigEndian : Bool) : Octets → Scan
  | [] => []
  | a :: b :: c :: d :: rest =>
    character? (if bigEndian then Octets.toNat [a, b, c, d] else Octets.toNat [d, c, b, a])
      :: scan bigEndian rest
  | _ => [none]

/-- The characters of octets that may begin with a byte order mark; without one the low octets come
first. -/
def scanMarked : Octets → Scan
  | 0x00 :: 0x00 :: 0xFE :: 0xFF :: rest => scan true rest
  | 0xFF :: 0xFE :: 0x00 :: 0x00 :: rest => scan false rest
  | octets => scan false octets

end Utf32

end PullGate
