import PullGate.Text.Utf8

/-!
Percent-encoding: which characters stand for themselves, how the others are escaped, and how escapes
that are already there are kept.
-/

namespace PullGate.Percent

/-- A character that never needs an escape. -/
def isUnreserved (c : CodePoint) : Bool :=
  c.isAlphaAscii || c.isDigit || c = '-' || c = '.' || c = '_' || c = '~'

def isSubDelimiter (c : CodePoint) : Bool :=
  c = '!' || c = '$' || c = '&' || c = '\'' || c = '(' || c = ')' || c = '*' || c = '+' || c = ','
    || c = ';' || c = '='

def isUserInfo (c : CodePoint) : Bool := isUnreserved c || isSubDelimiter c || c = ':'

def isPath (c : CodePoint) : Bool := isUserInfo c || c = '@' || c = '/'

def isQuery (c : CodePoint) : Bool := isPath c || c = '?'

/-- A character with a place in a whole address, percent sign apart. -/
def isAddress (c : CodePoint) : Bool := isQuery c || c = '#' || c = '[' || c = ']'

def upperHex (c : CodePoint) : CodePoint :=
  if c.isLowerAscii then CodePoint.ofNat (c.toNat - 0x20) else c

def escape (b : UInt8) : Text := .scalar '%' :: (Text.padHex 2 b.toNat).map upperHex

def escapeChar (c : CodePoint) : Text := c.utf8.flatMap escape

def encode (plain : CodePoint → Bool) (t : Text) : Text :=
  t.flatMap fun c => if plain c then [c] else escapeChar c

/-- A value in a form: blanks become plus signs. -/
def encodeForm (t : Text) : Text :=
  t.flatMap fun (c : CodePoint) =>
    if c = ' ' then ['+'] else if isUnreserved c then [c] else escapeChar c

/-- Pairs of names and values in a form. -/
def encodePairs (pairs : List (Text × Text)) : Text :=
  Text.join "&" (pairs.map fun (name, value) => encodeForm name ++ .scalar '=' :: encodeForm value)

/-- Whether every percent sign opens an escape. -/
def wellEscaped : Text → Bool
  | [] => true
  | .scalar '%' :: a :: b :: t => a.isHexDigit && b.isHexDigit && wellEscaped (a :: b :: t)
  | c :: t => c ≠ '%' && wellEscaped t

/-- Upper case for the digits of the escapes. -/
def upperEscapes : Text → Text
  | [] => []
  | .scalar '%' :: a :: b :: t =>
    if a.isHexDigit && b.isHexDigit then .scalar '%' :: upperHex a :: upperHex b :: upperEscapes t
    else .scalar '%' :: upperEscapes (a :: b :: t)
  | c :: t => c :: upperEscapes t

/-- A component of an address with what does not belong there escaped. Escapes that are there stay,
if every percent sign of the component opens one. -/
def normalize (plain : CodePoint → Bool) (t : Text) : Text :=
  let kept := wellEscaped t
  encode (fun c => plain c || (kept && c = '%')) (upperEscapes t)

/-- The part of a text behind a percent sign, with the escape decoded if it is one of an unreserved
character; `none` if it only looks like an escape. -/
def decodePart (part : Text) : Option Text :=
  match part with
  | a :: b :: rest =>
    if (a.isAlphaAscii || a.isDigit) && (b.isAlphaAscii || b.isDigit) then
      match a.hexDigit?, b.hexDigit? with
      | some x, some y =>
        let c := CodePoint.ofNat (x * 16 + y)
        some (if isUnreserved c then c :: rest else .scalar '%' :: part)
      | _, _ => none
    else some (.scalar '%' :: part)
  | _ => some (.scalar '%' :: part)

def decodeUnreserved? (t : Text) : Option Text :=
  match t.split '%' with
  | [] => some []
  | first :: parts => (parts.mapM decodePart).map fun parts => first ++ parts.flatten

/-- A whole address in the form in which it is sent. -/
def finish (t : Text) : Text :=
  match decodeUnreserved? t with
  | some u => encode (fun c => isAddress c || c = '%') u
  | none => encode isAddress t

def decodeOctets : Text → Octets
  | [] => []
  | .scalar '%' :: a :: b :: t =>
    match a.hexDigit?, b.hexDigit? with
    | some x, some y => (x * 16 + y).toUInt8 :: decodeOctets t
    | _, _ => 0x25 :: decodeOctets (a :: b :: t)
  | c :: t => c.utf8 ++ decodeOctets t

def decode (t : Text) : Text := Utf8.decodeLossy (decodeOctets t)

end PullGate.Percent
