import PullGate.Text.Utf8

/-!
Latin-1: one octet for each of the first 256 code points, and an error that names the others.
-/

namespace PullGate.Latin1

/-- The first run of code points that have no octet. -/
structure Fault where
  position : Nat
  first : CodePoint
  length : Nat
  deriving DecidableEq

def isLatin1 (c : CodePoint) : Bool := c.toNat < 0x100

def encode (t : Text) : Except Fault Octets :=
  match t.dropWhile isLatin1 with
  | [] => .ok (t.map fun c => c.toNat.toUInt8)
  | c :: rest =>
    .error ⟨(t.takeWhile isLatin1).length, c, ((c :: rest).takeWhile fun c => !isLatin1 c).length⟩

/-- A code point as an escape with as many digits as it needs. -/
def escaped (c : CodePoint) : Text :=
  let n := c.toNat
  if n < 0x10000 then "\\u" ++ Text.padHex 4 n else "\\U" ++ Text.padHex 8 n

def Fault.message (f : Fault) : Text :=
  let place : Text :=
    if f.length = 1 then
      "character '" ++ escaped f.first ++ "' in position " ++ Text.ofNat f.position
    else
      "characters in position " ++ Text.ofNat f.position ++ "-"
        ++ Text.ofNat (f.position + f.length - 1)
  "'latin-1' codec can't encode " ++ place ++ ": ordinal not in range(256)"

end PullGate.Latin1
