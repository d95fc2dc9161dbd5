import Mathlib.Algebra.BigOperators.Intervals
import PullGate.Proofs.Text.Digits
import PullGate.Proofs.Validation.Member

/-! Date-times that were read.  Whatever they were read from, text in any of its forms or a count of
seconds or milliseconds, their date is one of the calendar, their time is one of a day, and their
offset is less than a day and of whole minutes. -/

namespace PullGate

open Finset (sum_range_succ sum_range_succ' range)

/-! ### Days of the calendar -/

namespace Date

variable {year month day fuel : Nat}

/-- A sum that begins one later, and what comes before it. -/
theorem sum_shift (f : Nat → Nat) (start count : Nat) :
    ∑ i ∈ range (count + 1), f (start + i) = ∑ i ∈ range count, f (start + 1 + i) + f start := by
  rw [sum_range_succ', Nat.add_zero]
  congr 1
  apply Finset.sum_congr rfl
  intro i _
  rw [Nat.add_assoc, Nat.add_comm 1 i]

theorem sum_monthLength (year : Nat) :
    ∑ i ∈ range 12, monthLength year (1 + i) = yearLength year := by
  simp only [sum_range_succ, monthLength, yearLength]
  by_cases h : isLeap year = true <;> simp [h]

/-- A day among those of the months from `month` on falls into one of these. -/
theorem monthAndDay_bounds (h : day < ∑ i ∈ range (fuel + 1), monthLength year (month + i)) :
    1 ≤ (monthAndDay year fuel month day).2 ∧ (monthAndDay year fuel month day).2 ≤
      monthLength year (monthAndDay year fuel month day).1 := by
  induction fuel generalizing month day with
  | zero =>
    rw [sum_shift, Finset.sum_range_zero] at h
    show 1 ≤ day + 1 ∧ day + 1 ≤ monthLength year month
    omega
  | succ fuel ih =>
    rw [monthAndDay]
    by_cases hday : day < monthLength year month
    · rw [if_pos hday]
      show 1 ≤ day + 1 ∧ day + 1 ≤ monthLength year month
      omega
    · rw [if_neg hday]
      apply ih
      rw [sum_shift] at h
      omega

theorem monthAndDay_of_lt (h : day < yearLength year) :
    1 ≤ (monthAndDay year 11 1 day).2 ∧ (monthAndDay year 11 1 day).2 ≤
      monthLength year (monthAndDay year 11 1 day).1 :=
  monthAndDay_bounds (by rwa [sum_monthLength])

/-- A day among those of the years from `year` on is a day of one of these. -/
theorem ofDayFrom_bounds (h : day < ∑ i ∈ range (fuel + 1), yearLength (year + i)) :
    (ofDayFrom fuel year day).year ≤ year + fuel ∧ 1 ≤ (ofDayFrom fuel year day).day ∧
      (ofDayFrom fuel year day).day ≤
        monthLength (ofDayFrom fuel year day).year (ofDayFrom fuel year day).month := by
  induction fuel generalizing year day with
  | zero =>
    rw [sum_shift, Finset.sum_range_zero] at h
    exact ⟨le_refl year, monthAndDay_of_lt (by omega)⟩
  | succ fuel ih =>
    rw [ofDayFrom]
    by_cases hday : day < yearLength year
    · rw [if_pos hday]
      exact ⟨Nat.le_add_right year _, monthAndDay_of_lt hday⟩
    · rw [if_neg hday]
      rw [sum_shift] at h
      obtain ⟨hyear, hbounds⟩ := @ih (year + 1) (day - yearLength year) (by omega)
      exact ⟨by omega, hbounds⟩

theorem sum_yearLength (k : Nat) : ∑ i ∈ range 400, yearLength (400 * k + i) = cycle := by
  have hyear : ∀ i, yearLength (400 * k + i) = yearLength i := by
    intro i
    have h₄ : (400 * k + i) % 4 = i % 4 := by omega
    have h₁₀₀ : (400 * k + i) % 100 = i % 100 := by omega
    have h₄₀₀ : (400 * k + i) % 400 = i % 400 := by omega
    have hleap : isLeap (400 * k + i) = isLeap i := by simp [isLeap, h₄, h₁₀₀, h₄₀₀]
    rw [yearLength, yearLength, hleap]
  simp only [hyear]
  decide +kernel

/-- The first 25 cycles, from year 0 on, end with the year 9999. -/
theorem valid_ofDay (h : day < 25 * cycle) (hyear : (ofDay day).year ≠ 0) : (ofDay day).Valid := by
  have hcycle : cycle = 146097 := rfl
  have hmod : day % cycle < ∑ i ∈ range (399 + 1), yearLength (400 * (day / cycle) + i) := by
    rw [sum_yearLength]
    exact Nat.mod_lt day (by decide)
  obtain ⟨hlast, hbounds⟩ := ofDayFrom_bounds hmod
  have hquotient : day / cycle < 25 := Nat.div_lt_of_lt_mul (by omega)
  refine ⟨Nat.pos_of_ne_zero hyear, ?_, hbounds⟩
  show (ofDayFrom 399 (400 * (day / cycle)) (day % cycle)).year ≤ 9999
  omega

end Date

/-! ### Timestamps -/

theorem Except.mapError_eq_ok_iff {ε ε' α : Type} {f : ε → ε'} {x : Except ε α} {a : α} :
    x.mapError f = .ok a ↔ x = .ok a := by
  cases x with
  | error e => simp [Except.mapError]
  | ok b => simp [Except.mapError]

namespace DateTime

/-- A date-time of the calendar, with an offset that can be told in hours and minutes. -/
structure Regular (d : DateTime) : Prop where
  date : d.date.Valid
  time : d.time.Valid
  offset : ∀ offset ∈ d.offset, offset.natAbs < 86400 ∧ offset % 60 = 0

variable {d : DateTime}

theorem regular_ofSecond {second : Int} {microsecond : Nat}
    (h : ofSecond second microsecond = .ok d)
    (hmicrosecond : microsecond < 1000000) (hyear : d.date.year ≠ 0) : d.Regular := by
  unfold ofSecond at h
  split at h
  · cases h
  split at h
  · cases h
  next hfirst hlast =>
  obtain rfl := Except.ok.inj h
  have hcycle : Date.cycle = 146097 := rfl
  have hday : (second - firstSecond).toNat / 86400 < 25 * Date.cycle := by
    simp only [firstSecond, lastSecond] at hfirst hlast ⊢
    omega
  refine ⟨Date.valid_ofDay hday hyear, ?_, fun offset hoffset => ?_⟩
  · show _ ∧ _ ∧ _ ∧ _
    dsimp only
    omega
  · obtain rfl := Option.some.inj hoffset
    decide

theorem regular_ofTimestamp {count : Int} {extra : Nat} (h : ofTimestamp count extra = .ok d)
    (hyear : d.date.year ≠ 0) : d.Regular :=
  regular_ofSecond h (Nat.mod_lt _ (by decide)) hyear

theorem regular_ofNumber {x : Double} (h : ofNumber x = .ok d) (hyear : d.date.year ≠ 0) :
    d.Regular := by
  cases x with
  | nan | infinite negative => cases h
  | finite negative mantissa exponent =>
    unfold ofNumber at h
    dsimp only at h
    exact regular_ofTimestamp (Except.mapError_eq_ok_iff.mp h) hyear

theorem regular_ofFraction {x : Double} (h : ofFraction x = some d) (hyear : d.date.year ≠ 0) :
    d.Regular := by
  unfold ofFraction at h
  dsimp only at h
  split at h
  · generalize hresult : ofTimestamp _ _ = result at h
    cases result with
    | error cause => cases h
    | ok e =>
      obtain rfl := Option.some.inj h
      exact regular_ofTimestamp hresult hyear
  · cases h

end DateTime

/-! ### Text -/

/-- A computation that fails under a condition, and else goes on. -/
theorem Except.guarded_eq_ok_iff {ε α β : Type} {c : Prop} [Decidable c] {e : ε}
    {f : β → Except ε α} {x : Except ε α} {a : α} :
    (if c then throw e >>= f else x) = .ok a ↔ ¬c ∧ x = .ok a := by
  by_cases hc : c
  · rw [if_pos hc]
    exact iff_of_false (fun h => nomatch h) fun h => h.1 hc
  · rw [if_neg hc]
    exact (and_iff_right hc).symm

theorem TimeOfDay.valid_midnight : midnight.Valid := by
  show _ ∧ _
  decide

theorem TimeOfDay.lt_of_twoDigits? {bound n : Nat} {a b : CodePoint}
    (h : twoDigits? bound a b = some n) : n < bound := by
  simp only [twoDigits?, Option.bind_eq_bind, Option.bind_eq_some_iff] at h
  obtain ⟨x, -, y, -, h⟩ := h
  split at h
  · next hlt =>
    obtain rfl := Option.some.inj h
    exact hlt
  · cases h

theorem TimeOfDay.microseconds_lt {digits : Text} (h : digits.all CodePoint.isDigit = true) :
    microseconds digits < 1000000 := by
  have hall : ((digits ++ Text.zeros 6).take 6).all CodePoint.isDigit = true := by
    refine List.all_eq_true.mpr fun c hc => ?_
    rcases List.mem_append.mp (List.mem_of_mem_take hc) with hc | hc
    · exact List.all_eq_true.mp h c hc
    · exact List.all_eq_true.mp (Text.all_isDigit_zeros 6) c hc
  have hlength : ((digits ++ Text.zeros 6).take 6).length = 6 := by
    simp [Text.zeros]
  have hlt := Text.digitsValue_lt hall 0
  rw [hlength] at hlt
  exact hlt

theorem TimeOfDay.lt_of_readFraction? {t rest : Text} {microsecond : Nat}
    (h : readFraction? t = some (microsecond, rest)) : microsecond < 1000000 := by
  unfold readFraction? at h
  split at h
  · next c t =>
    split at h
    · have hdigits := Text.all_isDigit_spanDigits t
      split at h
      · cases h
      · next digits rest _ hspan =>
        obtain ⟨rfl, -⟩ := Prod.mk.inj (Option.some.inj h)
        rw [hspan] at hdigits
        exact microseconds_lt hdigits
    · obtain ⟨rfl, -⟩ := Prod.mk.inj (Option.some.inj h)
      decide
  · obtain ⟨rfl, -⟩ := Prod.mk.inj (Option.some.inj h)
    decide

theorem TimeOfDay.valid_of_readHead? {t rest : Text} {time : TimeOfDay}
    (h : readHead? t = some (time, rest)) : time.Valid := by
  unfold readHead? at h
  split at h
  · next h₁ h₂ m₁ m₂ t =>
    simp only [Option.bind_eq_bind, Option.bind_eq_some_iff] at h
    obtain ⟨hour, hhour, minute, hminute, h⟩ := h
    have hhour := lt_of_twoDigits? hhour
    have hminute := lt_of_twoDigits? hminute
    split at h
    · simp only [Option.bind_eq_some_iff] at h
      obtain ⟨second, hsecond, ⟨microsecond, _⟩, hmicrosecond, h⟩ := h
      obtain ⟨rfl, -⟩ := Prod.mk.inj (Option.some.inj h)
      exact ⟨hhour, hminute, lt_of_twoDigits? hsecond, lt_of_readFraction? hmicrosecond⟩
    · cases h
    · obtain ⟨rfl, -⟩ := Prod.mk.inj (Option.some.inj h)
      exact ⟨hhour, hminute, Nat.zero_lt_succ _, Nat.zero_lt_succ _⟩
  · cases h

namespace Date

theorem lt_of_digits {fault : Fault} {count n : Nat} {t rest : Text}
    (h : digits fault count t = .ok (n, rest)) : n < 10 ^ count := by
  unfold digits at h
  dsimp only at h
  split at h
  · next hhead =>
    rw [Bool.and_eq_true, decide_eq_true_iff] at hhead
    obtain ⟨rfl, -⟩ := Prod.mk.inj (Except.ok.inj h)
    have hlt := Text.digitsValue_lt hhead.2 0
    rwa [hhead.1, Nat.zero_add, Nat.one_mul] at hlt
  · cases h

/-- A text begins with a date if the parts of it stand there, and are those of a day. -/
theorem readHead_eq_ok_iff {t rest : Text} {date : Date} :
    readHead t = .ok (date, rest) ↔ 10 ≤ t.utf8.length ∧
      (∃ t₁ t₂ t₃ t₄, digits .year 4 t = .ok (date.year, t₁) ∧ dash t₁ = .ok t₂ ∧
        digits .month 2 t₂ = .ok (date.month, t₃) ∧ dash t₃ = .ok t₄ ∧
        digits .day 2 t₄ = .ok (date.day, rest)) ∧
      (1 ≤ date.month ∧ date.month ≤ 12) ∧
      1 ≤ date.day ∧ date.day ≤ monthLength date.year date.month := by
  unfold readHead
  simp only [Except.guarded_eq_ok_iff, Except.bind_eq_ok_iff]
  constructor
  · rintro ⟨hlength, ⟨year, t₁⟩, hyear, t₂, hdash, ⟨month, t₃⟩, hmonth, t₄, hdash', ⟨day, u⟩, hday,
      hmonths, hdays, hdate⟩
    obtain ⟨rfl, rfl⟩ := Prod.mk.inj (Except.ok.inj hdate)
    simp only [Bool.or_eq_true, decide_eq_true_iff] at hmonths hdays
    refine ⟨by omega, ⟨t₁, t₂, t₃, t₄, hyear, hdash, hmonth, hdash', hday⟩, ?_⟩
    dsimp only
    omega
  · rintro ⟨hlength, ⟨t₁, t₂, t₃, t₄, hyear, hdash, hmonth, hdash', hday⟩, hmonths, hdays⟩
    refine ⟨by omega, _, hyear, t₂, hdash, _, hmonth, t₄, hdash', _, hday, ?_, ?_, rfl⟩
    · simp only [Bool.or_eq_true, decide_eq_true_iff]
      omega
    · simp only [Bool.or_eq_true, decide_eq_true_iff]
      omega

theorem valid_of_readHead {t rest : Text} {date : Date} (h : readHead t = .ok (date, rest))
    (hyear : date.year ≠ 0) : date.Valid := by
  obtain ⟨-, ⟨t₁, t₂, t₃, t₄, hdigits, -⟩, -, hday⟩ := readHead_eq_ok_iff.mp h
  have hlt := lt_of_digits hdigits
  exact ⟨Nat.pos_of_ne_zero hyear, by omega, hday⟩

end Date

namespace DateTime

variable {t : Text} {d : DateTime}

theorem bounds_of_readHoursMinutes? {offset : Int} (h : readHoursMinutes? t = some offset) :
    0 ≤ offset ∧ offset < 86400 ∧ offset % 60 = 0 := by
  have hvalue : ∀ h₁ h₂ m₁ m₂ : CodePoint, (do
      let hour ← TimeOfDay.twoDigits? 24 h₁ h₂
      let minute ← TimeOfDay.twoDigits? 60 m₁ m₂
      return hour * 3600 + minute * 60 : Option Int) = some offset →
        0 ≤ offset ∧ offset < 86400 ∧ offset % 60 = 0 := by
    intro h₁ h₂ m₁ m₂ h
    simp only [Option.bind_eq_bind, Option.bind_eq_some_iff] at h
    obtain ⟨hour, hhour, minute, hminute, h⟩ := h
    have hhour := TimeOfDay.lt_of_twoDigits? hhour
    have hminute := TimeOfDay.lt_of_twoDigits? hminute
    obtain rfl := Option.some.inj h
    omega
  unfold readHoursMinutes? at h
  split at h
  · exact hvalue _ _ _ _ h
  · exact hvalue _ _ _ _ h
  · cases h

theorem bounds_of_readZone? {zone : Option Int} (h : readZone? t = some zone) :
    ∀ offset ∈ zone, offset.natAbs < 86400 ∧ offset % 60 = 0 := by
  rintro offset rfl
  unfold readZone? at h
  split at h
  · cases h
  split at h
  · split at h
    · obtain rfl := Option.some.inj (Option.some.inj h)
      decide
    · cases h
  split at h
  · obtain ⟨east, heast, hoffset⟩ := Option.map_eq_some_iff.mp h
    have hbounds := bounds_of_readHoursMinutes? heast
    obtain rfl := Option.some.inj hoffset
    omega
  split at h
  · obtain ⟨west, hwest, hoffset⟩ := Option.map_eq_some_iff.mp h
    have hbounds := bounds_of_readHoursMinutes? hwest
    obtain rfl := Option.some.inj hoffset
    omega
  · cases h

theorem regular_of_readIso? (h : readIso? t = some d) (hyear : d.date.year ≠ 0) : d.Regular := by
  unfold readIso? at h
  split at h
  · next date c t hdate =>
    split at h
    · simp only [Option.bind_eq_bind, Option.bind_eq_some_iff] at h
      obtain ⟨⟨time, u⟩, htime, zone, hzone, h⟩ := h
      obtain rfl := Option.some.inj h
      exact ⟨Date.valid_of_readHead hdate hyear, TimeOfDay.valid_of_readHead? htime,
        bounds_of_readZone? hzone⟩
    · cases h
  · cases h

theorem regular_of_readDate (h : readDate t = .ok d) (hyear : d.date.year ≠ 0) : d.Regular := by
  unfold readDate at h
  split at h
  · next date hdate =>
    obtain rfl := Except.ok.inj h
    unfold Date.read at hdate
    obtain ⟨⟨date', rest⟩, hhead, hdate⟩ := Except.bind_eq_ok_iff.mp hdate
    dsimp only at hdate
    split at hdate
    · obtain rfl := Except.ok.inj hdate
      exact ⟨Date.valid_of_readHead hhead hyear, TimeOfDay.valid_midnight, fun _ h => nomatch h⟩
    · cases hdate
  · cases h

theorem regular_of_readAnyYear (h : readAnyYear t = .ok d) (hyear : d.date.year ≠ 0) :
    d.Regular := by
  unfold readAnyYear at h
  split at h
  · next hiso =>
    obtain rfl := Except.ok.inj h
    exact regular_of_readIso? hiso hyear
  split at h
  · exact regular_ofTimestamp (Except.mapError_eq_ok_iff.mp h) hyear
  · split at h
    · next hfraction =>
      obtain rfl := Except.ok.inj h
      exact regular_ofFraction hfraction hyear
    · exact regular_of_readDate h hyear
  · exact regular_of_readDate h hyear

/-- Year 0 is refused, whatever gave it. -/
theorem bind_requireYear_eq_ok_iff {x : Except Fault DateTime} :
    x >>= requireYear = .ok d ↔ x = .ok d ∧ d.date.year ≠ 0 := by
  rw [Except.bind_eq_ok_iff]
  constructor
  · rintro ⟨e, rfl, he⟩
    unfold requireYear at he
    split at he
    · cases he
    · next hyear =>
      obtain rfl := Except.ok.inj he
      exact ⟨rfl, hyear⟩
  · rintro ⟨rfl, hyear⟩
    exact ⟨d, rfl, if_neg hyear⟩

theorem regular_of_read (h : read t = .ok d) : d.Regular := by
  obtain ⟨h, hyear⟩ := bind_requireYear_eq_ok_iff.mp h
  exact regular_of_readAnyYear h hyear

theorem regular_ofInteger {n : Int} (h : ofInteger n = .ok d) : d.Regular := by
  obtain ⟨h, hyear⟩ := bind_requireYear_eq_ok_iff.mp h
  split at h
  · exact regular_ofTimestamp (Except.mapError_eq_ok_iff.mp h) hyear
  · exact regular_ofNumber h hyear

theorem regular_ofDouble {x : Double} (h : ofDouble x = .ok d) : d.Regular := by
  obtain ⟨h, hyear⟩ := bind_requireYear_eq_ok_iff.mp h
  exact regular_ofNumber h hyear

end DateTime

/-- Every date-time that the check accepts is regular. -/
theorem Check.regular_of_dateTime {j : Json} {d : DateTime} (h : dateTime j = .ok d) :
    d.Regular := by
  cases j with
  | string t =>
    rw [dateTime] at h
    split at h
    · cases hread : DateTime.read t with
      | ok e =>
        rw [hread] at h
        obtain rfl : e = d := Except.ok.inj h
        exact DateTime.regular_of_read hread
      | error fault =>
        rw [hread] at h
        cases h
    · cases h
  | int n =>
    rw [dateTime] at h
    split at h
    · cases hread : DateTime.ofInteger n with
      | ok e =>
        rw [hread] at h
        obtain rfl : e = d := Except.ok.inj h
        exact DateTime.regular_ofInteger hread
      | error fault =>
        rw [hread] at h
        cases h
    · cases h
  | double x =>
    rw [dateTime] at h
    cases hread : DateTime.ofDouble x with
    | ok e =>
      rw [hread] at h
      obtain rfl : e = d := Except.ok.inj h
      exact DateTime.regular_ofDouble hread
    | error fault =>
      rw [hread] at h
      cases h
  | null | bool _ | array _ | object _ => cases h

end PullGate
