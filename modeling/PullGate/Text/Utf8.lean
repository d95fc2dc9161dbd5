import PullGate.Text.Decimal

/-!
UTF-8: writing text as octets, and reading octets back either strictly, where the first ill-formed
sequence is an error with its place and reason, or as a scan, which marks the place of each of them.
-/

namespace PullGate

abbrev Octets := List UInt8

/-- What octets are read as: characters, and `none` for each run of octets that is none. -/
abbrev Scan := List (Option CodePoint)

namespace Scan

/-- The text of a scan, with U+FFFD for what is no character. -/
def lossy (s : Scan) : Text := s.map (·.getD CodePoint.replacement)

/-- The text of a scan that has nothing but characters. -/
def strict? (s : Scan) : Option Text := s.mapM id

end Scan

/-- One to four octets; a lone surrogate takes the three octets that its number would take. -/
def CodePoint.utf8 (c : CodePoint) : Octets :=
  let n := c.toNat
  let octet (lead shift : Nat) : UInt8 := (lead + n / Nat.pow 64 shift % 64).toUInt8
  if n < 0x80 then [n.toUInt8]
  else if n < 0x800 then [octet 0xC0 1, octet 0x80 0]
  else if n < 0x10000 then [octet 0xE0 2, octet 0x80 1, octet 0x80 0]
  else [octet 0xF0 3, octet 0x80 2, octet 0x80 1, octet 0x80 0]

def Text.utf8 (t : Text) : Octets := t.flatMap CodePoint.utf8

namespace Utf8

inductive Reason where
  | start
  | continuation
  | truncated
  deriving DecidableEq

/-- An ill-formed sequence: where it begins, its octets, and what is wrong. -/
structure Fault where
  position : Nat
  octets : Octets
  reason : Reason
  deriving DecidableEq

/-- What stands at the head of a run of octets, with the number of octets that it takes. -/
inductive Step where
  | char (c : CodePoint) (width : Nat)
  | fault (reason : Reason) (width : Nat)

/-- A leading octet of a sequence: its share of the number, how many octets follow it, and between
which bounds the first of them lies. The bounds keep out overlong forms, surrogates and numbers past
U+10FFFF. -/
structure Lead where
  value : Nat
  count : Nat
  low : Nat
  high : Nat

def lead? (b : Nat) : Option Lead :=
  if b < 0x80 then some ⟨b, 0, 0, 0⟩
  else if b < 0xC2 then none
  else if b < 0xE0 then some ⟨b - 0xC0, 1, 0x80, 0xBF⟩
  else if b = 0xE0 then some ⟨0, 2, 0xA0, 0xBF⟩
  else if b = 0xED then some ⟨0xD, 2, 0x80, 0x9F⟩
  else if b < 0xF0 then some ⟨b - 0xE0, 2, 0x80, 0xBF⟩
  else if b = 0xF0 then some ⟨0, 3, 0x90, 0xBF⟩
  else if b < 0xF4 then some ⟨b - 0xF0, 3, 0x80, 0xBF⟩
  else if b = 0xF4 then some ⟨4, 3, 0x80, 0x8F⟩
  else none

/-- Reads `count` further octets, the first between `low` and `high`, after `width` octets that make
up `value`. -/
def follow : (count value width low high : Nat) → Octets → Step
  | 0, value, width, _, _, _ => .char (CodePoint.ofNat value) width
  | _ + 1, _, width, _, _, [] => .fault .truncated width
  | count + 1, value, width, low, high, b :: rest =>
    if low ≤ b.toNat && b.toNat ≤ high then
      follow count (value * 64 + (b.toNat - 0x80)) (width + 1) 0x80 0xBF rest
    else .fault .continuation width

def step (b : UInt8) (rest : Octets) : Step :=
  match lead? b.toNat with
  | none => .fault .start 1
  | some lead => follow lead.count lead.value 1 lead.low lead.high rest

/-- Strict reading. `skip` octets of the run are already read, and `position` is where it begins. -/
def decodeFrom (skip position : Nat) : Octets → Except Fault Text
  | [] => .ok []
  | b :: rest =>
    match skip with
    | skip + 1 => decodeFrom skip (position + 1) rest
    | 0 =>
      match step b rest with
      | .char c width => (decodeFrom (width - 1) (position + 1) rest).map (c :: ·)
      | .fault reason width => .error ⟨position, (b :: rest).take width, reason⟩

def decode (octets : Octets) : Except Fault Text := decodeFrom 0 0 octets

/-- Lenient reading, with `skip` octets of the run already read. -/
def scanFrom (skip : Nat) : Octets → Scan
  | [] => []
  | b :: rest =>
    match skip with
    | skip + 1 => scanFrom skip rest
    | 0 =>
      match step b rest with
      | .char c width => some c :: scanFrom (width - 1) rest
      | .fault _ width => none :: scanFrom (width - 1) rest

def scan (octets : Octets) : Scan := scanFrom 0 octets

/-- The text that the octets encode, with U+FFFD for each ill-formed sequence. -/
def decodeLossy (octets : Octets) : Text := (scan octets).lossy

def Reason.message : Reason → Text
  | .start => "invalid start byte"
  | .continuation => "invalid continuation byte"
  | .truncated => "unexpected end of data"

def Fault.message (f : Fault) : Text :=
  let place : Text := match f.octets with
    | [b] => "byte 0x" ++ Text.padHex 2 b.toNat ++ " in position " ++ Text.ofNat f.position
    | octets => "bytes in position " ++ Text.ofNat f.position ++ "-"
        ++ Text.ofNat (f.position + octets.length - 1)
  "'utf-8' codec can't decode " ++ place ++ ": " ++ f.reason.message

end Utf8

end PullGate
