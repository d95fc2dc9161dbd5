import PullGate.Calendar.Reader
import PullGate.Text.Quoted

/-!
Reading a report's time of creation, in any of the ISO 8601 forms: a date by month or by week, and
after any one character a time of day with an optional offset.  Date and time may each be written
with separators or without.  The fields are read first and checked for their ranges after that.
-/

namespace PullGate

namespace Date

def yearStart (year : Nat) : Nat :=
  365 * year + (year + 3) / 4 + (year + 399) / 400 - (year + 99) / 100

/-- The weekday of a day counted from the first one of year 0; Monday is 0. -/
def weekday (day : Nat) : Nat := (day + 5) % 7

/-- The Monday of the first week of a year, which is the one with its first Thursday. -/
def firstMonday (year : Nat) : Nat :=
  let start := yearStart year
  let monday := start - weekday start
  if 3 < weekday start then monday + 7 else monday

/-- Whether a year has a 53rd week: its first or last day is a Thursday. -/
def isLong (year : Nat) : Bool :=
  let first := weekday (yearStart year)
  first = 3 || (first = 2 && isLeap year)

def ofWeek? (year week day : Nat) : Option Date :=
  let weekFits := 1 ≤ week && (week ≤ 52 || (week = 53 && isLong year))
  if year = 0 || !weekFits || day < 1 || 7 < day then none
  else some (ofDay (firstMonday year + (week - 1) * 7 + (day - 1)))

end Date

namespace Iso

inductive Fault where
  | malformed (text : Text)
  | offset (seconds : Int)
  | year (number : Nat)
  | month
  | day
  | hour
  | minute
  | second
  deriving DecidableEq

/-- A span of seconds as days and the seconds of the last one, those that are zero left out. -/
def span (seconds : Int) : Text :=
  let part (name : Text) (n : Int) : List Text := if n = 0 then [] else [name ++ Text.ofInt n]
  "datetime.timedelta("
    ++ Text.join ", " (part "days=" (seconds / 86400) ++ part "seconds=" (seconds % 86400)) ++ ")"

def Fault.message : Fault → Text
  | .malformed text => "Invalid isoformat string: " ++ Text.quoted text
  | .offset seconds =>
    "offset must be a timedelta strictly between -timedelta(hours=24) and timedelta(hours=24), not "
      ++ span seconds ++ "."
  | .year number => "year " ++ Text.ofNat number ++ " is out of range"
  | .month => "month must be in 1..12"
  | .day => "day is out of range for month"
  | .hour => "hour must be in 0..23"
  | .minute => "minute must be in 0..59"
  | .second => "second must be in 0..59"

/-! ### Dates -/

def digits? (count : Nat) (t : Text) : Option (Nat × Text) :=
  match Date.digits .day count t with
  | .ok result => some result
  | .error _ => none

/-- What follows a separator, if the text is written with them. -/
def skipDash? (separated : Bool) (t : Text) : Option Text :=
  if separated then Text.dropPrefix? "-" t else some t

/-- The date of a text: year, and month and day or a `W` with week and day. A week alone is its
Monday. -/
def readDate? (t : Text) : Option Date := do
  let (year, t) ← digits? 4 t
  let separated := t.head? = some (.scalar '-')
  match if separated then t.drop 1 else t with
  | .scalar 'W' :: t =>
    let (week, t) ← digits? 2 t
    if t.isEmpty then Date.ofWeek? year week 1
    else
      let t ← skipDash? separated t
      let (day, _) ← digits? 1 t
      Date.ofWeek? year week day
  | t =>
    let (month, t) ← digits? 2 t
    let t ← skipDash? separated t
    let (day, _) ← digits? 2 t
    return ⟨year, month, day⟩

/-- How long the date in front is, if it is one by week with a dash behind the week. A digit two
places further makes the dash a separator of date and time. -/
def dashedWeekLength? (t : Text) : Option Nat :=
  match t.drop 9 with
  | [] => none
  | _ :: c :: _ => some (if c.isDigit then 8 else 10)
  | _ => some 10

/-- How long the date in front is, if it is one by week without dashes: the digits behind the week
tell whether one of them is its day. -/
def plainWeekLength (t : Text) : Nat :=
  let last := 7 + (Text.spanDigits (t.drop 7)).1.length
  if last < 9 then last else if last % 2 = 0 then 7 else 8

def dateLength? (t : Text) : Option Nat :=
  let at? (i : Nat) (c : Char) : Bool := t[i]? = some (.scalar c)
  if t.length < 7 then none
  else if t.length = 7 then some 7
  else if at? 4 '-' then
    if !at? 5 'W' then some 10
    else if at? 8 '-' then dashedWeekLength? t
    else some 8
  else if at? 4 'W' then some (plainWeekLength t)
  else some 8

/-! ### Times -/

/-- The digits behind the seconds, as microseconds. Only digits may be among the first six; whether
something else follows is told. -/
def readFraction? (time : TimeOfDay) (t : Text) : Option (TimeOfDay × Bool) :=
  let head := t.take 6
  if head.all CodePoint.isDigit then
    some ({ time with microsecond := TimeOfDay.microseconds head },
      !(t.drop 6).all CodePoint.isDigit)
  else none

def put (time : TimeOfDay) (place value : Nat) : TimeOfDay :=
  match place with
  | 0 => { time with hour := value }
  | 1 => { time with minute := value }
  | _ => { time with second := value }

/-- Reads hours, minutes, seconds and a fraction from the given place on, `left` numbers being left.
The fraction may follow any of them. A single character at the end is passed over, and told. -/
def readNumbers? (separated : Bool) (time : TimeOfDay) (place : Nat) :
    (left : Nat) → Text → Option (TimeOfDay × Bool)
  | 0, t => readFraction? time t
  | left + 1, t => do
    let (value, t) ← digits? 2 t
    let time := put time place value
    match t with
    | [] => some (time, false)
    | [_] => some (time, true)
    | c :: t =>
      let separated := if place = 0 then c = ':' else separated
      if separated && c = ':' then readNumbers? separated time (place + 1) left t
      else if c = '.' || c = ',' then readFraction? time t
      else if separated then none
      else readNumbers? separated time (place + 1) left (c :: t)

/-- A time of day without its offset, and whether something was passed over at its end. -/
def readClock? (t : Text) : Option (TimeOfDay × Bool) := readNumbers? true .midnight 0 3 t

def opensOffset (c : CodePoint) : Bool := c = '+' || c = '-' || c = 'Z'

def readOffset? (negative : Bool) (t : Text) : Option Int :=
  match readClock? t with
  | some (time, false) =>
    let seconds : Int := time.hour * 3600 + time.minute * 60 + time.second
    some (if negative then -seconds else seconds)
  | _ => none

/-- A time of day and its offset. In front of an offset something may be passed over. -/
def readTime? (t : Text) : Option (TimeOfDay × Option Int) := do
  let head := t.takeWhile fun c => !opensOffset c
  let (time, passed) ← readClock? head
  match t.drop head.length with
  | [] => if passed then none else some (time, none)
  | sign :: zone =>
    if sign = 'Z' then (if zone.isEmpty then some (time, some 0) else none)
    else (readOffset? (sign = '-') zone).map fun offset => (time, some offset)

/-! ### Both -/

def readFields? (t : Text) : Option DateTime := do
  let length ← dateLength? t
  let date ← readDate? (t.take length)
  match t.drop length with
  | [] => some ⟨date, .midnight, none⟩
  | _ :: t =>
    let (time, offset) ← readTime? t
    return ⟨date, time, offset⟩

/-- Checks the offset first, then date and time. -/
def check (d : DateTime) : Except Fault DateTime :=
  let offset := d.offset.getD 0
  if 86400 ≤ offset.natAbs then .error (.offset offset)
  else if d.date.year < 1 || 9999 < d.date.year then .error (.year d.date.year)
  else if d.date.month < 1 || 12 < d.date.month then .error .month
  else if d.date.day < 1 || Date.monthLength d.date.year d.date.month < d.date.day then .error .day
  else if 23 < d.time.hour then .error .hour
  else if 59 < d.time.minute then .error .minute
  else if 59 < d.time.second then .error .second
  else .ok d

end Iso

namespace DateTime

def readPlain (t : Text) : Except Iso.Fault DateTime :=
  match Iso.readFields? t with
  | some d => Iso.check d
  | none => .error (.malformed t)

end DateTime

end PullGate
