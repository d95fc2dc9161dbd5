import PullGate.Calendar.Writer
import PullGate.Proofs.Calendar.Regular

/-! Date-times that are read back.  The wire form of a regular date-time is read as that date-time,
with its microseconds and its offset; one without an offset stays without. -/

namespace PullGate

/-! ### Padded numbers -/

namespace Text

variable {width n : Nat}

theorem length_padNat (hwidth : 0 < width) (h : n < 10 ^ width) :
    (padNat width n).length = width := by
  have hlength := (length_ofNat_le hwidth).mpr h
  rw [padNat, zeros, List.length_append, List.length_replicate]
  omega

theorem padNat_two (h : n < 100) :
    padNat 2 n = [CodePoint.ofDigit (n / 10), CodePoint.ofDigit (n % 10)] := by
  rcases Nat.lt_or_ge n 10 with hlt | hge
  · rw [padNat, ofNat_of_lt hlt, Nat.div_eq_of_lt hlt, Nat.mod_eq_of_lt hlt]
    rfl
  · rw [padNat, ofNat_of_le hge, ofNat_of_lt (by omega)]
    rfl

theorem length_le_length_utf8 (t : Text) : t.length ≤ t.utf8.length := by
  have hoctet : ∀ c : CodePoint, 1 ≤ c.utf8.length := by
    intro c
    unfold CodePoint.utf8
    dsimp only
    split
    · exact le_refl _
    split
    · simp
    split <;> simp
  induction t with
  | nil => exact Nat.zero_le _
  | cons c t ih =>
    have := hoctet c
    rw [utf8, List.flatMap_cons, List.length_append, List.length_cons]
    rw [utf8] at ih
    omega

end Text

theorem CodePoint.digit?_ofDigit {d : Nat} (h : d < 10) : (ofDigit d).digit? = some d := by
  rw [digit?, isDigit_ofDigit h, if_pos rfl, toNat_ofDigit h, Nat.add_sub_cancel_left]

/-! ### Dates -/

namespace Date

variable {d : Date}

theorem month_bounds (h : d.Valid) : 1 ≤ d.month ∧ d.month ≤ 12 := by
  obtain ⟨-, -, hday, hlength⟩ := h
  unfold monthLength at hlength
  split at hlength
  · omega
  split at hlength
  · next hmonth =>
    simp only [Bool.or_eq_true, decide_eq_true_iff] at hmonth
    omega
  split at hlength
  · next hmonth =>
    rw [Bool.and_eq_true, decide_eq_true_iff, decide_eq_true_iff] at hmonth
    exact hmonth
  · omega

theorem monthLength_le (year month : Nat) : monthLength year month ≤ 31 := by
  unfold monthLength
  split
  · split <;> decide
  split
  · decide
  split <;> decide

theorem digits_padNat {fault : Fault} {width n : Nat} (hwidth : 0 < width) (h : n < 10 ^ width)
    (rest : Text) : digits fault width (Text.padNat width n ++ rest) = .ok (n, rest) := by
  have hlength := Text.length_padNat hwidth h
  rw [digits, List.take_left' hlength, List.drop_left' hlength, Text.all_isDigit_padNat,
    Text.digitsValue_padNat]
  simp [hlength]

theorem readHead_write (h : d.Valid) (rest : Text) :
    readHead (d.write ++ rest) = .ok (d, rest) := by
  have hmonth := month_bounds h
  have hlength := monthLength_le d.year d.month
  obtain ⟨hyear, hyear', hday, hday'⟩ := h
  have htext : d.write ++ rest = Text.padNat 4 d.year ++ .scalar '-' ::
      (Text.padNat 2 d.month ++ .scalar '-' :: (Text.padNat 2 d.day ++ rest)) := by
    simp [write]
  rw [htext]
  refine readHead_eq_ok_iff.mpr ⟨?_, ⟨_, _, _, _, digits_padNat (by decide) (by omega) _, rfl,
    digits_padNat (by decide) (by omega) _, rfl, digits_padNat (by decide) (by omega) _⟩, hmonth,
    hday, hday'⟩
  apply le_trans _ (Text.length_le_length_utf8 _)
  have h₄ : (Text.padNat 4 d.year).length = 4 := Text.length_padNat (by decide) (by omega)
  have h₂ : (Text.padNat 2 d.month).length = 2 := Text.length_padNat (by decide) (by omega)
  have h₂' : (Text.padNat 2 d.day).length = 2 := Text.length_padNat (by decide) (by omega)
  simp only [List.length_append, List.length_cons]
  omega

end Date

/-! ### Times -/

namespace TimeOfDay

variable {t : TimeOfDay}

theorem twoDigits?_ofDigit {bound n : Nat} (h : n < bound) (hbound : bound ≤ 100) :
    twoDigits? bound (.ofDigit (n / 10)) (.ofDigit (n % 10)) = some n := by
  have hvalue : n / 10 * 10 + n % 10 = n := by omega
  simp [twoDigits?, CodePoint.digit?_ofDigit (show n / 10 < 10 by omega),
    CodePoint.digit?_ofDigit (show n % 10 < 10 by omega), hvalue, h]

/-- What may follow a time: nothing that would go on with its fraction. -/
def Ends (rest : Text) : Prop :=
  ∀ c ∈ rest.head?, c.isDigit = false ∧ c ≠ .scalar '.' ∧ c ≠ .scalar ','

/-- The fraction of a second, as it is written. -/
def fraction (microsecond : Nat) : Text :=
  if microsecond = 0 then [] else .scalar '.' :: Text.padNat 6 microsecond

theorem microseconds_padNat {n : Nat} (h : n < 1000000) : microseconds (Text.padNat 6 n) = n := by
  have hlength : (Text.padNat 6 n).length = 6 := Text.length_padNat (by decide) h
  rw [microseconds, List.take_left' hlength, Text.digitsValue_padNat]

theorem readFraction?_fraction {n : Nat} (h : n < 1000000) {rest : Text} (hrest : Ends rest) :
    readFraction? (fraction n ++ rest) = some (n, rest) := by
  unfold fraction
  split
  · next hzero =>
    cases rest with
    | nil => rw [hzero]; rfl
    | cons c rest =>
      obtain ⟨-, hpoint, hcomma⟩ := hrest c rfl
      rw [List.nil_append, readFraction?]
      simp [hpoint, hcomma, hzero]
  · have hspan := Text.spanDigits_append (Text.all_isDigit_padNat 6 n) fun c hc => (hrest c hc).1
    have hne := Text.padNat_ne_nil 6 n
    rw [List.cons_append, readFraction?, if_pos (by decide), hspan]
    split
    · next heq => exact absurd (Prod.mk.inj heq).1 hne
    · next heq =>
      obtain ⟨hdigits, hrest'⟩ := Prod.mk.inj heq
      rw [← hdigits, ← hrest', microseconds_padNat h]

theorem readHead?_write (h : t.Valid) {rest : Text} (hrest : Ends rest) :
    readHead? (t.write ++ rest) = some (t, rest) := by
  obtain ⟨hhour, hminute, hsecond, hmicrosecond⟩ := h
  have htext : t.write ++ rest = .ofDigit (t.hour / 10) :: .ofDigit (t.hour % 10) :: .scalar ':' ::
      .ofDigit (t.minute / 10) :: .ofDigit (t.minute % 10) :: .scalar ':' ::
      .ofDigit (t.second / 10) :: .ofDigit (t.second % 10) ::
        (fraction t.microsecond ++ rest) := by
    simp [write, fraction, Text.padNat_two (show t.hour < 100 by omega),
      Text.padNat_two (show t.minute < 100 by omega),
      Text.padNat_two (show t.second < 100 by omega)]
  rw [htext]
  simp [readHead?, twoDigits?_ofDigit hhour, twoDigits?_ofDigit hminute, twoDigits?_ofDigit hsecond,
    readFraction?_fraction hmicrosecond hrest]

end TimeOfDay

/-! ### Date-times -/

namespace DateTime

variable {d : DateTime}

/-- The zone of the wire form. -/
def zone : Option Int → Text
  | none => []
  | some offset => if offset = 0 then "Z" else writeOffset offset

theorem readHoursMinutes?_write {hour minute : Nat} (hhour : hour < 24) (hminute : minute < 60) :
    readHoursMinutes? (Text.padNat 2 hour ++ .scalar ':' :: Text.padNat 2 minute) =
      some (hour * 3600 + minute * 60 : Int) := by
  rw [Text.padNat_two (by omega), Text.padNat_two (by omega)]
  simp [readHoursMinutes?, TimeOfDay.twoDigits?_ofDigit hhour,
    TimeOfDay.twoDigits?_ofDigit hminute]

theorem readZone?_west (t : Text) :
    readZone? (.scalar '-' :: t) = (readHoursMinutes? t).map fun offset => some (-offset) := rfl

theorem readZone?_east (t : Text) :
    readZone? (.scalar '+' :: t) = (readHoursMinutes? t).map some := rfl

theorem readZone?_zone {offset : Option Int}
    (h : ∀ o ∈ offset, o.natAbs < 86400 ∧ o % 60 = 0) : readZone? (zone offset) = some offset := by
  cases offset with
  | none => rfl
  | some o =>
    obtain ⟨hsize, hminutes⟩ := h o rfl
    have hread := readHoursMinutes?_write (show o.natAbs / 60 / 60 < 24 by omega)
      (show o.natAbs / 60 % 60 < 60 by omega)
    have hsum : ((o.natAbs / 60 / 60 : Nat) * 3600 + (o.natAbs / 60 % 60 : Nat) * 60 : Int) =
        o.natAbs := by
      omega
    rw [hsum] at hread
    by_cases hzero : o = 0
    · rw [hzero]
      rfl
    rw [zone, if_neg hzero, writeOffset, List.cons_append]
    by_cases hwest : o < 0
    · rw [if_pos hwest, readZone?_west, hread, Option.map_some, show -(o.natAbs : Int) = o by omega]
    · rw [if_neg hwest, readZone?_east, hread, Option.map_some, show (o.natAbs : Int) = o by omega]

theorem ends_zone (offset : Option Int) : TimeOfDay.Ends (zone offset) := by
  cases offset with
  | none => intro c hc; cases hc
  | some o =>
    unfold zone writeOffset
    dsimp only
    intro c hc
    split at hc
    · obtain rfl := Option.some.inj hc
      decide
    · obtain rfl := Option.some.inj hc
      split <;> decide

theorem writeWire_eq (d : DateTime) :
    d.writeWire = d.date.write ++ .scalar 'T' :: (d.time.write ++ zone d.offset) := by
  show (d.date.write ++ .scalar 'T' :: d.time.write) ++ zone d.offset = _
  rw [List.append_assoc, List.cons_append]

/-- The wire form of a regular date-time is read as that date-time. -/
theorem read_writeWire (h : d.Regular) : read d.writeWire = .ok d := by
  have hiso : readIso? d.writeWire = some d := by
    rw [writeWire_eq, readIso?, Date.readHead_write h.date]
    simp [isTimeSeparator, TimeOfDay.readHead?_write h.time (ends_zone d.offset),
      readZone?_zone h.offset]
  have hany : readAnyYear d.writeWire = .ok d := by
    rw [readAnyYear, hiso]
  have hyear := h.date.1
  exact bind_requireYear_eq_ok_iff.mpr ⟨hany, by omega⟩

end DateTime

end PullGate
