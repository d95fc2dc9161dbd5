import PullGate.Validation.Basic
import PullGate.Text.Blank

/-!
Checks of single values.  They are lenient where the meaning is plain: a number may come as text, an
integer as a number without a fraction, a truth value as a word.
-/

namespace PullGate.Check

/-- Text, as it is. -/
def text : Json → Checked Text
  | .string t => .ok t
  | _ => .fail .notString

/-- Text of characters only. -/
def unicode : Json → Checked Text
  | .string t => if Text.isUnicode t then .ok t else .fail .notUnicode
  | _ => .fail .notString

/-- Text without the white space at either end. -/
def trimmed (j : Json) : Checked Text := (unicode j).map (Text.trim CodePoint.isWhiteSpace)

def nonemptyText (j : Json) : Checked Text :=
  match unicode j with
  | .ok [] => .fail .emptyString
  | result => result

/-- The words of a closed choice, each with its meaning. -/
def choice {α : Type} (words : List (Text × α)) (j : Json) : Checked α :=
  let refused : Checked α := .fail (.notListed (words.map Prod.fst))
  match j with
  | .string t =>
    match words.find? fun w => w.1 = t with
    | some w => .ok w.2
    | none => if Text.isUnicode t then refused else .fail .notUnicode
  | _ => refused

/-- The digits of an integer with single underscores between them, taken out. -/
def integerDigits? : Text → Option Text
  | [] => none
  | [c] => if c.isDigit then some [c] else none
  | c :: .scalar '_' :: t => if c.isDigit then (integerDigits? t).map (c :: ·) else none
  | c :: t => if c.isDigit then (integerDigits? t).map (c :: ·) else none

/-- The part of a numeral in front of a point that only zeros follow. -/
def wholePart (t : Text) : Text :=
  match Text.cutLast? '.' t with
  | some (whole, zeros) => if zeros.all (· = .scalar '0') then whole else t
  | none => t

/-- The digits an integer text may have, leading zeros apart. -/
def digitLimit : Nat := 4300

/-- The integer of a text: white space around, an optional sign, digits, and a fraction of zeros.
The rules are those of pydantic before release 2.13, which refuses a point that nothing follows and
counts a sign among the digits. -/
def integerText (t : Text) : Except Cause Int :=
  let (negative, t) := Double.splitSign (Text.trim CodePoint.isWhiteSpace t)
  match integerDigits? (wholePart t) with
  | none => .error .integerText
  | some digits =>
    if digitLimit < (digits.dropWhile (· = .scalar '0')).length then .error .integerSize
    else
      let n : Int := Text.digitsValue 0 digits
      .ok (if negative then -n else n)

/-- The integer of a number: it has no fraction, and its size is below `2 ^ 63`. -/
def integerNumber (d : Double) : Except Cause Int :=
  if !d.isFinite then .error .notFinite
  else match d.toInt? with
    | none => .error .fraction
    | some n => if n.natAbs < Nat.pow 2 63 then .ok n else .error .integerSize

def integer : Json → Checked Int
  | .bool value => .ok (if value then 1 else 0)
  | .int n => .ok n
  | .double d =>
    match integerNumber d with
    | .ok n => .ok n
    | .error cause => .fail cause
  | .string t =>
    if !Text.isUnicode t then .fail .notUnicode
    else match integerText t with
      | .ok n => .ok n
      | .error cause => .fail cause
  | _ => .fail .notInteger

/-- An integer that is not negative. -/
def natural (j : Json) : Checked Nat :=
  match integer j with
  | .ok n => if n < 0 then .fail .negative else .ok n.toNat
  | .error ps => .error ps

/-- An integer above zero. -/
def positive (j : Json) : Checked Nat :=
  match integer j with
  | .ok n => if n ≤ 0 then .fail .notPositive else .ok n.toNat
  | .error ps => .error ps

/-- Without underscores, if they stand alone and neither first nor last. -/
def withoutUnderscores? (t : Text) : Option Text :=
  let misplaced := t.head? = some (.scalar '_') || t.getLast? = some (.scalar '_')
    || Text.containsText "__" t
  if misplaced || !t.any (· = .scalar '_') then none
  else some (t.filter (· ≠ .scalar '_'))

/-- The number of a text, white space around it allowed. -/
def numberText? (t : Text) : Option Double :=
  let t := Text.trim CodePoint.isWhiteSpace t
  match Double.read? t with
  | some d => some d
  | none => withoutUnderscores? t >>= Double.read?

def number : Json → Checked Double
  | .bool value => .ok (Double.ofInt (if value then 1 else 0))
  | .int n =>
    let d := Double.ofInt n
    if d.isFinite then .ok d else .fail .notNumber
  | .double d => .ok d
  | .string t =>
    if !Text.isUnicode t then .fail .notUnicode
    else match numberText? t with
      | some d => .ok d
      | none => .fail .numberText
  | _ => .fail .notNumber

/-- The words for the two truth values. -/
def booleanWord? (t : Text) : Option Bool :=
  let word := Text.lowerAscii t
  if ["0", "off", "f", "false", "n", "no"].any fun w => Text.ofString w = word then some false
  else if ["1", "on", "t", "true", "y", "yes"].any fun w => Text.ofString w = word then some true
  else none

/-- The truth value of an integer; past 64 bits it is none at all. -/
def booleanInteger (n : Int) : Checked Bool :=
  if !DateTime.isWord n then .fail .notBoolean
  else if n = 0 then .ok false else if n = 1 then .ok true else .fail .booleanText

def boolean : Json → Checked Bool
  | .bool value => .ok value
  | .int n => booleanInteger n
  | .double d =>
    match integerNumber d with
    | .ok n => booleanInteger n
    | .error _ => .fail .notBoolean
  | .string t =>
    match booleanWord? t with
    | some value => .ok value
    | none => if Text.isUnicode t then .fail .booleanText else .fail .notUnicode
  | _ => .fail .notBoolean

/-- A date-time: text, or a timestamp that is a number. -/
def dateTime (j : Json) : Checked DateTime :=
  let judged : Except DateTime.Fault DateTime → Checked DateTime
    | .ok d => .ok d
    | .error fault => .fail (.dateTime fault)
  match j with
  | .string t => if Text.isUnicode t then judged (DateTime.read t) else .fail .notUnicode
  | .int n =>
    if DateTime.isWord n || (Double.ofInt n).isFinite then judged (DateTime.ofInteger n)
    else .fail .notDateTime
  | .double d => judged (DateTime.ofDouble d)
  | _ => .fail .notDateTime

/-- A value that may be `null`. -/
def nullable {α : Type} (check : Json → Checked α) : Json → Checked (Option α)
  | .null => .ok none
  | j => (check j).map some

def list {α : Type} (check : Json → Checked α) : Json → Checked (List α)
  | .array items => Checked.each check items
  | _ => .fail .notList

/-- A member that must be there. -/
def required {α : Type} (members : List (Text × Json)) (key : Text) (check : Json → Checked α) :
    Checked α :=
  match Json.lookup key members with
  | some j => (check j).within (.key key)
  | none => .error [⟨[.key key], .missing⟩]

/-- A member with a value for when it is absent. -/
def optional {α : Type} (members : List (Text × Json)) (key : Text) (check : Json → Checked α)
    (absent : α) : Checked α :=
  match Json.lookup key members with
  | some j => (check j).within (.key key)
  | none => .ok absent

end PullGate.Check
