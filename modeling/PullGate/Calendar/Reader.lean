import PullGate.Calendar.Basic
import PullGate.Number.Read
import PullGate.Text.Utf8

/-!
Reading a date-time: ISO text with a zone or without, a date alone, or a timestamp in seconds or
milliseconds, as text or as a number.  A text that is none of them is judged as a date.
-/

namespace PullGate

namespace Date

inductive Fault where
  | tooShort
  | year
  | separator
  | month
  | day
  | monthRange
  | dayRange
  | trailing
  | timestamp (cause : DateTime.OutOfRange)
  deriving DecidableEq

def digits (fault : Fault) (count : Nat) (t : Text) : Except Fault (Nat × Text) :=
  let head := t.take count
  if head.length = count && head.all CodePoint.isDigit then
    .ok (Text.digitsValue 0 head, t.drop count)
  else .error fault

def dash : Text → Except Fault Text
  | .scalar '-' :: t => .ok t
  | _ => .error .separator

/-- The date that a text begins with, as year, month and day with dashes between, and the rest. The
length is counted in octets. -/
def readHead (t : Text) : Except Fault (Date × Text) := do
  if t.utf8.length < 10 then throw .tooShort
  let (year, t) ← digits .year 4 t
  let t ← dash t
  let (month, t) ← digits .month 2 t
  let t ← dash t
  let (day, t) ← digits .day 2 t
  if month < 1 || 12 < month then throw .monthRange
  if day < 1 || monthLength year month < day then throw .dayRange
  return (⟨year, month, day⟩, t)

def read (t : Text) : Except Fault Date := do
  let (date, rest) ← readHead t
  if rest.isEmpty then return date else throw .trailing

end Date

namespace TimeOfDay

def twoDigits? (bound : Nat) (a b : CodePoint) : Option Nat := do
  let n := (← a.digit?) * 10 + (← b.digit?)
  if n < bound then some n else none

/-- The microseconds that a fraction gives: the digits past the sixth are cut. -/
def microseconds (digits : Text) : Nat :=
  Text.digitsValue 0 ((digits ++ Text.zeros 6).take 6)

/-- The fraction after the seconds, opened by a point or a comma; at least one digit. -/
def readFraction? : Text → Option (Nat × Text)
  | c :: t =>
    if c = '.' || c = ',' then
      match Text.spanDigits t with
      | ([], _) => none
      | (digits, rest) => some (microseconds digits, rest)
    else some (0, c :: t)
  | [] => some (0, [])

/-- The time that a text begins with: hours and minutes, then seconds with an optional fraction. -/
def readHead? : Text → Option (TimeOfDay × Text)
  | h₁ :: h₂ :: .scalar ':' :: m₁ :: m₂ :: t => do
    let hour ← twoDigits? 24 h₁ h₂
    let minute ← twoDigits? 60 m₁ m₂
    match t with
    | .scalar ':' :: s₁ :: s₂ :: t =>
      let second ← twoDigits? 60 s₁ s₂
      let (microsecond, rest) ← readFraction? t
      some (⟨hour, minute, second, microsecond⟩, rest)
    | .scalar ':' :: _ => none
    | t => some (⟨hour, minute, 0, 0⟩, t)
  | _ => none

end TimeOfDay

namespace DateTime

/-- The minus of an offset, as the ASCII dash or as U+2212. -/
def isMinus (c : CodePoint) : Bool := c = '-' || c = '\u2212'

/-- Hours and minutes of an offset, with a colon between or without; less than a day. -/
def readHoursMinutes? (t : Text) : Option Int :=
  let value? (h₁ h₂ m₁ m₂ : CodePoint) : Option Int := do
    let hour ← TimeOfDay.twoDigits? 24 h₁ h₂
    let minute ← TimeOfDay.twoDigits? 60 m₁ m₂
    return hour * 3600 + minute * 60
  match t with
  | [h₁, h₂, .scalar ':', m₁, m₂] => value? h₁ h₂ m₁ m₂
  | [h₁, h₂, m₁, m₂] => value? h₁ h₂ m₁ m₂
  | _ => none

/-- The zone at the end of a text: none, `Z`, or a signed offset. -/
def readZone? : Text → Option (Option Int)
  | [] => some none
  | c :: t =>
    if c = 'Z' || c = 'z' then (if t.isEmpty then some (some 0) else none)
    else if c = '+' then (readHoursMinutes? t).map some
    else if isMinus c then (readHoursMinutes? t).map fun offset => some (-offset)
    else none

def isTimeSeparator (c : CodePoint) : Bool := c = 'T' || c = 't' || c = ' ' || c = '_'

def readIso? (t : Text) : Option DateTime :=
  match Date.readHead t with
  | .ok (date, c :: t) =>
    if isTimeSeparator c then do
      let (time, t) ← TimeOfDay.readHead? t
      let offset ← readZone? t
      some ⟨date, time, offset⟩
    else none
  | _ => none

inductive Fault where
  | timestamp (cause : OutOfRange)
  | notANumber
  | yearZero
  | date (fault : Date.Fault)
  deriving DecidableEq

def leastWord : Int := -(Nat.pow 2 63 : Nat)

def greatestWord : Int := (Nat.pow 2 63 : Nat) - 1

def isWord (n : Int) : Bool := leastWord ≤ n && n ≤ greatestWord

def clampWord (n : Int) : Int := max leastWord (min n greatestWord)

/-- A fraction of a second in microseconds, multiplied in double precision and then rounded, a half
upwards. -/
def fractionMicroseconds (num den : Nat) : Nat :=
  match Double.ofRatio false num den with
  | .finite _ mantissa exponent =>
    let (num, den) := Double.ratio mantissa exponent
    match Double.ofRatio false (num * 1000000) den with
    | .finite _ mantissa exponent =>
      let (num, den) := Double.ratio mantissa exponent
      (2 * num + den) / (2 * den)
    | _ => 0
  | _ => 0

/-- The date-time of a timestamp that is a number: the integer below it, with the size of its
fractional part on top. -/
def ofNumber : Double → Except Fault DateTime
  | .nan => .error .notANumber
  | .infinite negative => .error (.timestamp (if negative then .tooEarly else .tooLate))
  | .finite negative mantissa exponent =>
    let (num, den) := Double.ratio mantissa exponent
    (ofTimestamp (clampWord (Double.floor negative mantissa exponent))
      (fractionMicroseconds (num % den) den)).mapError .timestamp

/-- The date-time of a timestamp that is text with a fraction: a count in milliseconds is first
brought to seconds, and the fraction is what lies above the integer below. -/
def ofFraction (d : Double) : Option DateTime :=
  let seconds := match d with
    | .finite negative mantissa exponent =>
      let (num, den) := Double.ratio mantissa exponent
      if den * millisecondsAbove < num then Double.ofRatio negative num (den * 1000) else d
    | d => d
  match seconds with
  | .finite negative mantissa exponent =>
    let (num, den) := Double.ratio mantissa exponent
    let second := Double.floor negative mantissa exponent
    let above := (if negative then -(num : Int) else num) - second * den
    (ofTimestamp (clampWord second) (fractionMicroseconds above.toNat den)).toOption
  | _ => none

inductive Numeral where
  | integer (n : Int)
  | fraction (d : Double)

/-- A timestamp as text: an optional sign, digits, and an optional point with or without digits. The
digits before the point give an integer of 64 bits. -/
def readNumeral? (t : Text) : Option Numeral :=
  let (negative, t) := Double.splitSign t
  let (whole, rest) := Text.spanDigits t
  let n : Int := Text.digitsValue 0 whole
  if whole.isEmpty || !isWord n then none
  else match rest with
    | [] => some (.integer (if negative then -n else n))
    | .scalar '.' :: fraction =>
      if fraction.all CodePoint.isDigit then
        (Double.readMagnitude? negative (whole ++ .scalar '.' :: fraction)).map .fraction
      else none
    | _ => none

/-- A date alone stands for its midnight, in no zone. -/
def ofDate (date : Date) : DateTime := ⟨date, .midnight, none⟩

def readDate (t : Text) : Except Fault DateTime :=
  match Date.read t with
  | .ok date => .ok (ofDate date)
  | .error fault => .error (.date fault)

/-- The date-time of a text, in year 0 too. -/
def readAnyYear (t : Text) : Except Fault DateTime :=
  match readIso? t with
  | some d => .ok d
  | none =>
    match readNumeral? t with
    | some (.integer n) => (ofTimestamp n 0).mapError fun cause => .date (.timestamp cause)
    | some (.fraction d) =>
      match ofFraction d with
      | some d => .ok d
      | none => readDate t
    | none => readDate t

/-- Year 0 can be written but is none. -/
def requireYear (d : DateTime) : Except Fault DateTime :=
  if d.date.year = 0 then .error .yearZero else .ok d

/-- The date-time of a text. The rules are those of pydantic before release 2.13, for which `.5` and
`1.1e3` are timestamps as well. -/
def read (t : Text) : Except Fault DateTime := readAnyYear t >>= requireYear

/-- The date-time of a timestamp that is an integer; one past 64 bits counts as the number next to
it. -/
def ofInteger (n : Int) : Except Fault DateTime :=
  (if isWord n then (ofTimestamp n 0).mapError .timestamp else ofNumber (Double.ofInt n))
    >>= requireYear

/-- The date-time of a timestamp that is a number with a point or an exponent. As in pydantic before
release 2.13, its fraction is one of a second, in a count of milliseconds too. -/
def ofDouble (d : Double) : Except Fault DateTime := ofNumber d >>= requireYear

def OutOfRange.message : OutOfRange → Text
  | .tooEarly => "dates before 0000 are not supported as unix timestamps"
  | .tooLate => "dates after 9999 are not supported as unix timestamps"

end DateTime

def Date.Fault.message : Date.Fault → Text
  | .tooShort => "input is too short"
  | .year => "invalid character in year"
  | .separator => "invalid date separator, expected \x60-\x60"
  | .month => "invalid character in month"
  | .day => "invalid character in day"
  | .monthRange => "month value is outside expected range of 1-12"
  | .dayRange => "day value is outside expected range"
  | .trailing => "unexpected extra characters at the end of the input"
  | .timestamp cause => cause.message

def DateTime.Fault.message : DateTime.Fault → Text
  | .timestamp cause => cause.message
  | .notANumber => "NaN values not permitted"
  | .yearZero => "year 0 is out of range"
  | .date fault => fault.message

end PullGate
