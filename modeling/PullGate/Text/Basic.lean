/-!
Text as a list of code points.  Escaped text can name one half of a surrogate pair on its own, which
no `Char` is, so a code point is a scalar value or such a half, and a text may hold both.
-/

namespace PullGate

/-- A Unicode code point: a scalar value, or the surrogate `0xD800 + half`. -/
inductive CodePoint where
  | scalar (c : Char)
  | surrogate (half : Fin 0x800)
  deriving DecidableEq

abbrev Text := List CodePoint

namespace CodePoint

instance : Inhabited CodePoint := ⟨.scalar ' '⟩

instance : Coe Char CodePoint := ⟨.scalar⟩

def toNat : CodePoint → Nat
  | .scalar c => c.toNat
  | .surrogate half => 0xD800 + half.val

/-- What a number stands for in text that must hold a character: U+FFFD where it is none. -/
def replacement : CodePoint := '\uFFFD'

/-- The code point of this number; past U+10FFFF there is none, and the replacement stands in. -/
def ofNat (n : Nat) : CodePoint :=
  if h : n.isValidChar then .scalar (Char.ofNatAux n h)
  else if h : n - 0xD800 < 0x800 then .surrogate ⟨n - 0xD800, h⟩
  else replacement

def isSurrogate : CodePoint → Bool
  | .surrogate _ => true
  | .scalar _ => false

def isHigh (c : CodePoint) : Bool := 0xD800 ≤ c.toNat && c.toNat < 0xDC00

def isLow (c : CodePoint) : Bool := 0xDC00 ≤ c.toNat && c.toNat < 0xE000

/-- The character past U+FFFF that two halves name together. -/
def ofPair (high low : CodePoint) : CodePoint :=
  ofNat (0x10000 + (high.toNat - 0xD800) * 0x400 + (low.toNat - 0xDC00))

/-- Whether the number lies in one of the ranges, ends included. -/
def inRanges (ranges : List (Nat × Nat)) (n : Nat) : Bool :=
  ranges.any fun r => r.1 ≤ n && n ≤ r.2

def isAscii (c : CodePoint) : Bool := c.toNat < 0x80

/-- One of the ten digits `0` to `9`; no other script counts. -/
def isDigit (c : CodePoint) : Bool := 0x30 ≤ c.toNat && c.toNat ≤ 0x39

def isUpperAscii (c : CodePoint) : Bool := 0x41 ≤ c.toNat && c.toNat ≤ 0x5A

def isLowerAscii (c : CodePoint) : Bool := 0x61 ≤ c.toNat && c.toNat ≤ 0x7A

def isAlphaAscii (c : CodePoint) : Bool := c.isUpperAscii || c.isLowerAscii

def digit? (c : CodePoint) : Option Nat :=
  if c.isDigit then some (c.toNat - 0x30) else none

def hexDigit? (c : CodePoint) : Option Nat :=
  let n := c.toNat
  if 0x30 ≤ n && n ≤ 0x39 then some (n - 0x30)
  else if 0x41 ≤ n && n ≤ 0x46 then some (n - 0x37)
  else if 0x61 ≤ n && n ≤ 0x66 then some (n - 0x57)
  else none

def isHexDigit (c : CodePoint) : Bool := c.hexDigit?.isSome

/-- Lower case for the 26 letters; every other code point stays. -/
def lowerAscii (c : CodePoint) : CodePoint :=
  if c.isUpperAscii then ofNat (c.toNat + 0x20) else c

end CodePoint

namespace Text

def ofString (s : String) : Text := s.toList.map .scalar

instance : Coe String Text := ⟨ofString⟩

/-- The characters of a text; a lone surrogate becomes U+FFFD. -/
def toString (t : Text) : String :=
  String.ofList (t.map fun
    | .scalar c => c
    | .surrogate _ => '\uFFFD')

/-- No lone surrogate: every code point is a character. -/
def isUnicode (t : Text) : Bool := t.all fun c => !c.isSurrogate

def lowerAscii (t : Text) : Text := t.map CodePoint.lowerAscii

/-- What follows `start`, if the text begins with it. -/
def dropPrefix? : (start t : Text) → Option Text
  | [], t => some t
  | _ :: _, [] => none
  | s :: start, c :: t => if s = c then dropPrefix? start t else none

def trimLeft (p : CodePoint → Bool) (t : Text) : Text := t.dropWhile p

def trimRight (p : CodePoint → Bool) (t : Text) : Text := (t.reverse.dropWhile p).reverse

/-- Without the code points of a class at either end. -/
def trim (p : CodePoint → Bool) (t : Text) : Text := trimRight p (trimLeft p t)

/-- The pieces between the separators: one more than there are separators. -/
def split (sep : CodePoint) : Text → List Text
  | [] => [[]]
  | c :: t =>
    if c = sep then [] :: split sep t
    else match split sep t with
      | [] => [[c]]
      | piece :: pieces => (c :: piece) :: pieces

/-- The pieces with the separator between each two. -/
def join (sep : Text) : List Text → Text
  | [] => []
  | [piece] => piece
  | piece :: pieces => piece ++ sep ++ join sep pieces

/-- The text before the first separator and the text after it. -/
def cut? (sep : CodePoint) : Text → Option (Text × Text)
  | [] => none
  | c :: t => if c = sep then some ([], t) else (cut? sep t).map fun (a, b) => (c :: a, b)

/-- The text before the last separator and the text after it. -/
def cutLast? (sep : CodePoint) (t : Text) : Option (Text × Text) :=
  (cut? sep t.reverse).map fun (after, before) => (before.reverse, after.reverse)

/-- Whether `part` occurs as a block of consecutive code points. -/
def containsText (part : Text) : Text → Bool
  | [] => part.isEmpty
  | c :: t => part.isPrefixOf (c :: t) || containsText part t

end Text

end PullGate
