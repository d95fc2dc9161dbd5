import PullGate.Json.Basic
import PullGate.Number.Read

/-!
Reading JSON text.  Besides the standard grammar `NaN`, `Infinity` and `-Infinity` are numbers, and
an escape may name a lone surrogate.  An error says what was expected and how much text was left.
Every array and object that is open takes a call of the reader, so there is room for a limited
number of them.
-/

namespace PullGate.Json

inductive Malformed where
  | value
  | propertyName
  | colon
  | comma
  | extraData
  | unterminated
  | control
  | escape
  | unicodeEscape
  | byteOrderMark
  deriving DecidableEq

inductive Container where
  | array
  | object
  deriving DecidableEq

/-- Why a text is not read. The first two causes hold what was left of the text at that place. -/
inductive ReadError where
  | malformed (problem : Malformed) (left : Nat)
  | tooDeep (container : Container)
  | tooManyDigits (count : Nat)
  deriving DecidableEq

abbrev Read (α : Type) := Except ReadError α

/-- How many digits an integer may have. -/
def digitLimit : Nat := 4300

def isSpace (c : CodePoint) : Bool := c = ' ' || c = '\t' || c = '\n' || c = '\r'

def skipSpace (t : Text) : Text := t.dropWhile isSpace

/-- The character after a backslash, for the escapes of two characters. -/
def shortEscape? (c : CodePoint) : Option CodePoint :=
  if c = '"' || c = '\\' || c = '/' then some c
  else if c = 'b' then some (.scalar '\x08')
  else if c = 'f' then some (.scalar '\x0c')
  else if c = 'n' then some (.scalar '\n')
  else if c = 'r' then some (.scalar '\r')
  else if c = 't' then some (.scalar '\t')
  else none

/-- The code unit that four hexadecimal digits give. -/
def unit? (a b c d : CodePoint) : Option CodePoint := do
  let a ← a.hexDigit?
  let b ← b.hexDigit?
  let c ← c.hexDigit?
  let d ← d.hexDigit?
  return CodePoint.ofNat (a * 0x1000 + b * 0x100 + c * 0x10 + d)

/-- A unit in front of text, joined with the first code point if the two are a surrogate pair. -/
def consUnit (unit : CodePoint) : Text → Text
  | [] => [unit]
  | c :: t => if unit.isHigh && c.isLow then CodePoint.ofPair unit c :: t else unit :: c :: t

/-- The rest of a string after its opening quote, and the text behind the closing one. `start` is
what was left of the text at the opening quote. -/
def readString (start : Nat) : Text → Read (Text × Text)
  | [] => .error (.malformed .unterminated start)
  | c :: t =>
    if c = '"' then .ok ([], t)
    else if c.toNat < 0x20 then .error (.malformed .control (t.length + 1))
    else if c ≠ '\\' then (readString start t).map fun (s, rest) => (c :: s, rest)
    else match t with
      | [] => .error (.malformed .unterminated start)
      | .scalar 'u' :: a :: b :: c :: d :: t =>
        match unit? a b c d with
        | some unit =>
          -- a text that ends with the last digit is reported at the escape
          if t.isEmpty then .error (.malformed .unicodeEscape 5)
          else (readString start t).map fun (s, rest) => (consUnit unit s, rest)
        | none => .error (.malformed .unicodeEscape (t.length + 5))
      | e :: t =>
        match shortEscape? e with
        | some c => (readString start t).map fun (s, rest) => (c :: s, rest)
        | none =>
          if e = 'u' then .error (.malformed .unicodeEscape (t.length + 1))
          else .error (.malformed .escape (t.length + 2))

/-- A fraction: a point and at least one digit, or nothing. -/
def readFraction (t : Text) : Text × Text :=
  match t with
  | .scalar '.' :: u =>
    match Text.spanDigits u with
    | ([], _) => ([], t)
    | (digits, rest) => (.scalar '.' :: digits, rest)
  | t => ([], t)

/-- An exponent: `e` or `E`, an optional sign and at least one digit, or nothing. -/
def readExponent (t : Text) : Text × Text :=
  match t with
  | e :: u =>
    if e = 'e' || e = 'E' then
      let (sign, v) : Text × Text := match u with
        | .scalar '+' :: v => (['+'], v)
        | .scalar '-' :: v => (['-'], v)
        | v => ([], v)
      match Text.spanDigits v with
      | ([], _) => ([], t)
      | (digits, rest) => (e :: sign ++ digits, rest)
    else ([], t)
  | [] => ([], [])

/-- A number that is not negative, after its sign was read; `none` if the text does not begin with a
digit. A zero ends the whole part. -/
def readNumber? (negative : Bool) (t : Text) : Option (Read (Json × Text)) :=
  let (whole, rest) : Text × Text := match t with
    | .scalar '0' :: rest => (['0'], rest)
    | t => Text.spanDigits t
  if whole.isEmpty then none
  else
    let (fraction, rest) := readFraction rest
    let (exponent, rest) := readExponent rest
    if fraction.isEmpty && exponent.isEmpty then
      let n : Int := Text.digitsValue 0 whole
      some (if digitLimit < whole.length then .error (.tooManyDigits whole.length)
        else .ok (.int (if negative then -n else n), rest))
    else
      (Double.readMagnitude? negative (whole ++ fraction ++ exponent)).map fun d =>
        .ok (.double d, rest)

def literals : List (Text × Json) :=
  [("null", .null), ("true", .bool true), ("false", .bool false), ("NaN", .double .nan),
    ("Infinity", .double (.infinite false)), ("-Infinity", .double (.infinite true))]

def readLiteral? (t : Text) : Option (Json × Text) :=
  literals.findSome? fun (word, value) => (Text.dropPrefix? word t).map (value, ·)

def readScalar (t : Text) : Read (Json × Text) :=
  let number := match t with
    | .scalar '-' :: u => readNumber? true u
    | t => readNumber? false t
  match number with
  | some result => result
  | none =>
    match readLiteral? t with
    | some result => .ok result
    | none => .error (.malformed .value t.length)

mutual

/-- A value at the head of the text. `depth` containers more may be opened. -/
def readValue (fuel depth : Nat) (t : Text) : Read (Json × Text) :=
  match fuel with
  | 0 => .error (.malformed .value t.length)
  | fuel + 1 =>
    match t with
    | .scalar '"' :: u =>
      (readString t.length u).map fun (s, rest) => (.string s, rest)
    | .scalar '[' :: u =>
      match depth with
      | 0 => .error (.tooDeep .array)
      | depth + 1 =>
        match skipSpace u with
        | .scalar ']' :: rest => .ok (.array [], rest)
        | u => (readItems fuel depth u).map fun (items, rest) => (.array items, rest)
    | .scalar '{' :: u =>
      match depth with
      | 0 => .error (.tooDeep .object)
      | depth + 1 =>
        match skipSpace u with
        | .scalar '}' :: rest => .ok (.object [], rest)
        | u => (readMembers fuel depth [] u).map fun (members, rest) => (.object members, rest)
    | t => readScalar t

/-- The items of an array from one of them on, and the text behind the closing bracket. -/
def readItems (fuel depth : Nat) (t : Text) : Read (List Json × Text) :=
  match fuel with
  | 0 => .error (.malformed .value t.length)
  | fuel + 1 =>
    match readValue fuel depth t with
    | .error e => .error e
    | .ok (item, u) =>
      match skipSpace u with
      | .scalar ']' :: rest => .ok ([item], rest)
      | .scalar ',' :: u =>
        (readItems fuel depth (skipSpace u)).map fun (items, rest) => (item :: items, rest)
      | u => .error (.malformed .comma u.length)

/-- The members of an object from one of them on, added to those already read. -/
def readMembers (fuel depth : Nat) (members : List (Text × Json)) (t : Text) :
    Read (List (Text × Json) × Text) :=
  match fuel with
  | 0 => .error (.malformed .value t.length)
  | fuel + 1 =>
    match t with
    | .scalar '"' :: u =>
      match readString t.length u with
      | .error e => .error e
      | .ok (key, u) =>
        match skipSpace u with
        | .scalar ':' :: u =>
          match readValue fuel depth (skipSpace u) with
          | .error e => .error e
          | .ok (value, u) =>
            let members := insert key value members
            match skipSpace u with
            | .scalar '}' :: rest => .ok (members, rest)
            | .scalar ',' :: u => readMembers fuel depth members (skipSpace u)
            | u => .error (.malformed .comma u.length)
        | u => .error (.malformed .colon u.length)
    | t => .error (.malformed .propertyName t.length)

end

/-- Reads a text with room for so many arrays and objects that are open at once. -/
def readTo (room : Nat) (t : Text) : Read Json :=
  match t with
  | .scalar '\uFEFF' :: _ => .error (.malformed .byteOrderMark t.length)
  | t =>
    match readValue (2 * t.length + 2) room (skipSpace t) with
    | .error e => .error e
    | .ok (value, rest) =>
      match skipSpace rest with
      | [] => .ok value
      | rest => .error (.malformed .extraData rest.length)

/-- Reads a text with room for all that it could open. -/
def read (t : Text) : Read Json := readTo t.length t

/-- How many arrays and objects a program can have open at once when it reads.  That depends on the
calls that it is in, but there is always room for a few. -/
structure Room where
  count : Nat
  ample : 4 ≤ count

/-- The room of a program that is hardly in any calls. -/
def Room.usual : Room := ⟨990, by decide⟩

def Malformed.message : Malformed → Text
  | .value => "Expecting value"
  | .propertyName => "Expecting property name enclosed in double quotes"
  | .colon => "Expecting ':' delimiter"
  | .comma => "Expecting ',' delimiter"
  | .extraData => "Extra data"
  | .unterminated => "Unterminated string starting at"
  | .control => "Invalid control character at"
  | .escape => "Invalid \\escape"
  | .unicodeEscape => "Invalid \\uXXXX escape"
  | .byteOrderMark => "Unexpected UTF-8 BOM (decode using utf-8-sig)"

def Container.message : Container → Text
  | .array => "maximum recursion depth exceeded while decoding a JSON array from a unicode string"
  | .object => "maximum recursion depth exceeded while decoding a JSON object from a unicode string"

/-- Where a place of a text is: its line and column, counted from one, and its index. -/
def place (document : Text) (left : Nat) : Text :=
  let before := document.take (document.length - left)
  let line := before.filter (· = .scalar '\n')
  let column := before.reverse.takeWhile (· ≠ .scalar '\n')
  ("line " : Text) ++ Text.ofNat (line.length + 1) ++ (" column " : Text)
    ++ Text.ofNat (column.length + 1) ++ (" (char " : Text) ++ Text.ofNat before.length
    ++ (")" : Text)

/-- The wording of a reading error, given the text that was read. -/
def ReadError.message (document : Text) : ReadError → Text
  | .malformed problem left => problem.message ++ (": " : Text) ++ place document left
  | .tooDeep container => container.message
  | .tooManyDigits count =>
    ("Exceeds the limit (4300 digits) for integer string conversion: value has " : Text)
      ++ Text.ofNat count
      ++ (" digits; use sys.set_int_max_str_digits() to increase the limit" : Text)

end PullGate.Json
