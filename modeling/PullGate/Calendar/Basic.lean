/-!
Dates and times of the Gregorian calendar, with microseconds and an optional offset from UTC, and
the date-time that a count of seconds since 1970 gives.
-/

namespace PullGate

structure Date where
  year : Nat
  month : Nat
  day : Nat
  deriving DecidableEq

structure TimeOfDay where
  hour : Nat
  minute : Nat
  second : Nat
  microsecond : Nat
  deriving DecidableEq

/-- A wall-clock reading. The offset is in seconds east of UTC; without one the zone is unknown. -/
structure DateTime where
  date : Date
  time : TimeOfDay
  offset : Option Int
  deriving DecidableEq

namespace Date

def isLeap (year : Nat) : Bool := year % 4 = 0 && (year % 100 ≠ 0 || year % 400 = 0)

def yearLength (year : Nat) : Nat := if isLeap year then 366 else 365

/-- The days of a month; a number that is no month has none. -/
def monthLength (year month : Nat) : Nat :=
  if month = 2 then (if isLeap year then 29 else 28)
  else if month = 4 || month = 6 || month = 9 || month = 11 then 30
  else if 1 ≤ month && month ≤ 12 then 31
  else 0

/-- A year from 1 to 9999, a month of it, and a day of that month. -/
def Valid (d : Date) : Prop :=
  1 ≤ d.year ∧ d.year ≤ 9999 ∧ 1 ≤ d.day ∧ d.day ≤ monthLength d.year d.month

instance (d : Date) : Decidable d.Valid := inferInstanceAs (Decidable (_ ∧ _ ∧ _ ∧ _))

/-- The month and day of a day of the year, from `month` on, with `fuel` months left. -/
def monthAndDay (year : Nat) : (fuel month day : Nat) → Nat × Nat
  | 0, month, day => (month, day + 1)
  | fuel + 1, month, day =>
    if day < monthLength year month then (month, day + 1)
    else monthAndDay year fuel (month + 1) (day - monthLength year month)

/-- The date of a day counted from the first one of `year`, with `fuel` years left. -/
def ofDayFrom : (fuel year day : Nat) → Date
  | 0, year, day =>
    let (month, day) := monthAndDay year 11 1 day
    ⟨year, month, day⟩
  | fuel + 1, year, day =>
    if day < yearLength year then
      let (month, day) := monthAndDay year 11 1 day
      ⟨year, month, day⟩
    else ofDayFrom fuel (year + 1) (day - yearLength year)

/-- The days of 400 years, after which the calendar repeats. -/
def cycle : Nat := 146097

def ofDay (day : Nat) : Date :=
  ofDayFrom 399 (400 * (day / cycle)) (day % cycle)

end Date

def TimeOfDay.midnight : TimeOfDay := ⟨0, 0, 0, 0⟩

def TimeOfDay.Valid (t : TimeOfDay) : Prop :=
  t.hour < 24 ∧ t.minute < 60 ∧ t.second < 60 ∧ t.microsecond < 1000000

namespace DateTime

/-- The first second of year 0, counted from 1970. -/
def firstSecond : Int := -62167219200

def lastSecond : Int := 253402300799

/-- A count whose magnitude is larger than this one is in milliseconds. -/
def millisecondsAbove : Nat := 20000000000

inductive OutOfRange where
  | tooEarly
  | tooLate
  deriving DecidableEq

/-- The date-time in UTC of a second counted from 1970. -/
def ofSecond (second : Int) (microsecond : Nat) : Except OutOfRange DateTime :=
  if second < firstSecond then .error .tooEarly
  else if lastSecond < second then .error .tooLate
  else
    let n := (second - firstSecond).toNat
    let s := n % 86400
    .ok ⟨Date.ofDay (n / 86400), ⟨s / 3600, s / 60 % 60, s % 60, microsecond⟩, some 0⟩

/-- The date-time in UTC of a timestamp in seconds or milliseconds, and microseconds that come on
top of it. -/
def ofTimestamp (count : Int) (extra : Nat) : Except OutOfRange DateTime :=
  let (second, microsecond) : Int × Nat :=
    if count.natAbs ≤ millisecondsAbove then (count, extra)
    else (count / 1000, (count % 1000).toNat * 1000 + extra)
  ofSecond (second + (microsecond / 1000000 : Nat)) (microsecond % 1000000)

end DateTime

end PullGate
