import PullGate.Calendar.Basic
import PullGate.Text.Decimal

/-!
The two written forms of a date-time.  They differ in the offset: the wire form writes `Z` for UTC
and cuts the seconds of an offset, the plain form writes `+00:00` and keeps them.
-/

namespace PullGate

namespace Date

def write (d : Date) : Text :=
  Text.padNat 4 d.year ++ .scalar '-' :: Text.padNat 2 d.month ++ .scalar '-' :: Text.padNat 2 d.day

end Date

namespace TimeOfDay

/-- Microseconds are written, with six digits, only if there are any. -/
def write (t : TimeOfDay) : Text :=
  let fraction : Text :=
    if t.microsecond = 0 then [] else .scalar '.' :: Text.padNat 6 t.microsecond
  Text.padNat 2 t.hour ++ .scalar ':' :: Text.padNat 2 t.minute ++ .scalar ':'
    :: Text.padNat 2 t.second ++ fraction

end TimeOfDay

namespace DateTime

def writeOffset (offset : Int) : Text :=
  let sign : CodePoint := if offset < 0 then '-' else '+'
  let minutes := offset.natAbs / 60
  sign :: Text.padNat 2 (minutes / 60) ++ .scalar ':' :: Text.padNat 2 (minutes % 60)

def writeLocal (d : DateTime) : Text := d.date.write ++ .scalar 'T' :: d.time.write

/-- The form in which requests carry a date-time. -/
def writeWire (d : DateTime) : Text :=
  d.writeLocal ++ match d.offset with
    | none => []
    | some offset => if offset = 0 then "Z" else writeOffset offset

/-- The form with a numeric offset for every zone. -/
def writePlain (d : DateTime) : Text :=
  d.writeLocal ++ match d.offset with
    | none => []
    | some offset =>
      let seconds := offset.natAbs % 60
      writeOffset offset ++ if seconds = 0 then [] else .scalar ':' :: Text.padNat 2 seconds

end DateTime

end PullGate
