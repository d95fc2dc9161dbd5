import PullGate.Number.Read
import PullGate.Proofs.Number.Shortest
import PullGate.Proofs.Text.Digits

/-! The written form of a double.  It is a numeral, with digits before and behind a point and maybe
an exponent; what is read from the numeral is the decimal that was written, and so the double that
this decimal rounds to. -/

namespace PullGate.Double

/-- The parts of a numeral: the digits before and behind the point, and the sign and the digits of
an exponent. -/
structure Numeral where
  whole : Text
  fraction : Text
  exponent : Option (Bool × Text)

namespace Numeral

def fractionText (x : Numeral) : Text :=
  if x.fraction = [] then [] else .scalar '.' :: x.fraction

def exponentText (x : Numeral) : Text :=
  match x.exponent with
  | none => []
  | some (negative, digits) => (if negative then ("e-" : Text) else "e+") ++ digits

def text (x : Numeral) : Text := x.whole ++ x.fractionText ++ x.exponentText

/-- The power of ten that the exponent names. -/
def shift (x : Numeral) : Int :=
  match x.exponent with
  | none => 0
  | some (negative, digits) =>
    if negative then -(Text.digitsValue 0 digits : Int) else Text.digitsValue 0 digits

def digits (x : Numeral) : Text := x.whole ++ x.fraction

def decimal (x : Numeral) : Decimal :=
  ⟨Text.digitsValue 0 x.digits, x.shift - x.fraction.length⟩

/-- Digits in all places, a whole part that begins with zero only if it is zero, and no exponent
without digits. -/
structure WellFormed (x : Numeral) : Prop where
  whole : x.whole.all CodePoint.isDigit = true
  fraction : x.fraction.all CodePoint.isDigit = true
  leading : x.whole = [.scalar '0'] ∨ ∃ c t, x.whole = c :: t ∧ c ≠ .scalar '0'
  exponent : ∀ negative digits, x.exponent = some (negative, digits) →
    digits ≠ [] ∧ digits.all CodePoint.isDigit = true

theorem WellFormed.whole_ne_nil {x : Numeral} (h : x.WellFormed) : x.whole ≠ [] := by
  rcases h.leading with heq | ⟨c, t, heq, -⟩ <;> simp [heq]

theorem exponentText_cases (x : Numeral) :
    x.exponentText = [] ∨ ∃ t, x.exponentText = .scalar 'e' :: t := by
  unfold exponentText
  split
  · exact .inl rfl
  · split <;> exact .inr ⟨_, rfl⟩

theorem exponent?_eq {x : Numeral} (h : x.WellFormed) :
    exponent? x.exponentText = some x.shift := by
  unfold exponentText shift
  split
  · rfl
  · next negative digits hexponent =>
    obtain ⟨hne, hdigits⟩ := h.exponent negative digits hexponent
    have hread := Text.toNat?_eq_some hne hdigits
    cases negative with
    | true =>
      have hsplit : exponent? (("e-" : Text) ++ digits) =
          (Text.toNat? digits).map fun (n : Nat) => -(n : Int) := rfl
      rw [if_pos rfl, hsplit, hread]
      rfl
    | false =>
      have hsplit : exponent? (("e+" : Text) ++ digits) =
          (Text.toNat? digits).map fun (n : Nat) => (n : Int) := rfl
      rw [if_neg (by decide), hsplit, hread]
      rfl

/-- What comes after the whole part of a numeral is no digit. -/
theorem head_after_whole {x : Numeral} {rest : Text}
    (hrest : ∀ c ∈ (x.exponentText ++ rest).head?, c.isDigit = false) :
    ∀ c ∈ (x.fractionText ++ (x.exponentText ++ rest)).head?, c.isDigit = false := by
  unfold fractionText
  split
  · exact hrest
  · intro c hc
    obtain rfl := Option.some.inj hc
    rfl

/-- A numeral is read as the decimal that it stands for. -/
theorem readMagnitude?_text {x : Numeral} (h : x.WellFormed) (negative : Bool) :
    readMagnitude? negative x.text =
      some (ofDecimal negative x.decimal.digits x.digits.length x.decimal.power) := by
  have hexponent : ∀ c ∈ (x.exponentText ++ []).head?, c.isDigit = false := by
    intro c hc
    rw [List.append_nil] at hc
    rcases x.exponentText_cases with heq | ⟨t, heq⟩
    · rw [heq] at hc
      cases hc
    · rw [heq] at hc
      obtain rfl := Option.some.inj hc
      rfl
  have hwhole : Text.spanDigits x.text = (x.whole, x.fractionText ++ x.exponentText) := by
    rw [text, List.append_assoc]
    apply Text.spanDigits_append h.whole
    simpa using head_after_whole hexponent
  have hread := exponent?_eq h
  unfold readMagnitude?
  rw [hwhole]
  dsimp only
  by_cases hnone : x.fraction = []
  · have htext : x.fractionText ++ x.exponentText = x.exponentText := by simp [fractionText, hnone]
    rw [htext]
    rcases x.exponentText_cases with heq | ⟨t, heq⟩
    · rw [heq] at hread ⊢
      dsimp only
      simp [hread, h.whole_ne_nil, decimal, digits, hnone]
    · rw [heq] at hread ⊢
      simp [hread, h.whole_ne_nil, decimal, digits, hnone]
  · have htext : x.fractionText ++ x.exponentText =
        .scalar '.' :: (x.fraction ++ x.exponentText) := by
      simp [fractionText, hnone]
    have hspan := Text.spanDigits_append h.fraction (by simpa using hexponent)
    rw [htext]
    simp only [hspan]
    simp [hread, h.whole_ne_nil, decimal, digits]

end Numeral

/-! ### Decimals as numerals -/

namespace Decimal

/-- The power of ten that the leading digit stands for. -/
def lead (x : Decimal) : Int := x.power + (Text.ofNat x.digits).length - 1

/-- The numeral that is written for a decimal. -/
def numeral (x : Decimal) : Numeral :=
  let digits := Text.ofNat x.digits
  if x.lead < -4 || 16 ≤ x.lead then
    ⟨digits.take 1, digits.tail, some (x.lead < 0, Text.padNat 2 x.lead.natAbs)⟩
  else if x.lead < 0 then
    ⟨[.scalar '0'], Text.zeros (-x.lead - 1).toNat ++ digits, none⟩
  else if 0 ≤ x.power then
    ⟨digits ++ Text.zeros x.power.toNat, [.scalar '0'], none⟩
  else
    ⟨digits.take (x.lead + 1).toNat, digits.drop (x.lead + 1).toNat, none⟩

theorem write_eq (x : Decimal) : x.write = x.numeral.text := by
  unfold write numeral
  dsimp only
  rw [← lead]
  by_cases hfar : (x.lead < -4 || 16 ≤ x.lead) = true
  · rw [if_pos hfar, if_pos hfar, Numeral.text, Numeral.fractionText, Numeral.exponentText]
    cases (Text.ofNat x.digits).tail <;> by_cases hlead : x.lead < 0 <;> simp [hlead]
  rw [if_neg hfar, if_neg hfar]
  by_cases hsmall : x.lead < 0
  · have hne : Text.zeros (-x.lead - 1).toNat ++ Text.ofNat x.digits ≠ [] :=
      List.append_ne_nil_of_right_ne_nil _ (Text.ofNat_ne_nil _)
    rw [if_pos hsmall, if_pos hsmall, Numeral.text, Numeral.fractionText, if_neg hne,
      Numeral.exponentText, List.append_nil]
    rfl
  rw [if_neg hsmall, if_neg hsmall]
  by_cases hpower : 0 ≤ x.power
  · rw [if_pos hpower, if_pos hpower, Numeral.text, Numeral.exponentText, List.append_nil]
    rfl
  · have hne : (Text.ofNat x.digits).drop (x.lead + 1).toNat ≠ [] := by
      rw [ne_eq, List.drop_eq_nil_iff]
      unfold lead at *
      omega
    rw [if_neg hpower, if_neg hpower, Numeral.text, Numeral.fractionText, if_neg hne,
      Numeral.exponentText, List.append_nil]

/-- The digits of a number begin with zero only if that is all. -/
theorem ofNat_leading (n : Nat) : Text.ofNat n = [.scalar '0'] ∧ n = 0 ∨
    ∃ c t, Text.ofNat n = c :: t ∧ c ≠ .scalar '0' := by
  rcases Nat.eq_zero_or_pos n with rfl | h
  · exact .inl ⟨Text.ofNat_zero, rfl⟩
  · have hhead := Text.head?_ofNat h
    cases heq : Text.ofNat n with
    | nil => exact absurd heq (Text.ofNat_ne_nil n)
    | cons c t =>
      rw [heq] at hhead
      exact .inr ⟨c, t, rfl, by simpa using hhead⟩

theorem take_leading (n count : Nat) : (Text.ofNat n).take (count + 1) = [.scalar '0'] ∨
    ∃ c t, (Text.ofNat n).take (count + 1) = c :: t ∧ c ≠ .scalar '0' := by
  rcases ofNat_leading n with ⟨heq, -⟩ | ⟨c, t, heq, hc⟩
  · exact .inl (by rw [heq, List.take_succ_cons, List.take_nil])
  · exact .inr ⟨c, t.take count, by rw [heq, List.take_succ_cons], hc⟩

theorem wellFormed_numeral {x : Decimal} (h : 0 < x.digits ∨ x.power = 0) :
    x.numeral.WellFormed := by
  have hdigits := Text.all_isDigit_ofNat x.digits
  have htake : ∀ count, ((Text.ofNat x.digits).take count).all CodePoint.isDigit = true :=
    fun count => List.all_eq_true.mpr fun c hc =>
      List.all_eq_true.mp hdigits c (List.mem_of_mem_take hc)
  have hdrop : ∀ count, ((Text.ofNat x.digits).drop count).all CodePoint.isDigit = true :=
    fun count => List.all_eq_true.mpr fun c hc =>
      List.all_eq_true.mp hdigits c (List.mem_of_mem_drop hc)
  have hzero : [CodePoint.scalar '0'].all CodePoint.isDigit = true := rfl
  unfold numeral
  dsimp only
  split
  · refine ⟨htake 1, ?_, take_leading x.digits 0, ?_⟩
    · rw [← List.drop_one]
      exact hdrop 1
    · rintro negative digits heq
      obtain ⟨-, rfl⟩ := Prod.mk.inj (Option.some.inj heq)
      exact ⟨Text.padNat_ne_nil _ _, Text.all_isDigit_padNat _ _⟩
  · split
    · refine ⟨hzero, ?_, .inl rfl, fun _ _ heq => by cases heq⟩
      rw [List.all_append, Text.all_isDigit_zeros, hdigits]
      rfl
    · next hlead =>
      split
      · refine ⟨?_, hzero, ?_, fun _ _ heq => by cases heq⟩
        · rw [List.all_append, Text.all_isDigit_zeros, hdigits]
          rfl
        · rcases ofNat_leading x.digits with ⟨heq, hnone⟩ | ⟨c, t, heq, hc⟩
          · left
            rw [heq, h.resolve_left (by omega)]
            rfl
          · right
            exact ⟨c, t ++ Text.zeros x.power.toNat, by rw [heq, List.cons_append], hc⟩
      · obtain ⟨count, hcount⟩ : ∃ count, (x.lead + 1).toNat = count + 1 :=
          ⟨x.lead.toNat, by omega⟩
        rw [hcount]
        exact ⟨htake _, hdrop _, take_leading _ _, fun _ _ heq => by cases heq⟩

/-- A decimal is never written as an integer. -/
theorem isEmpty_numeral (x : Decimal) :
    (x.numeral.fractionText.isEmpty && x.numeral.exponentText.isEmpty) = false := by
  have hpoint : ∀ {y : Numeral}, y.fraction ≠ [] → y.fractionText.isEmpty = false := by
    intro y hne
    rw [Numeral.fractionText, if_neg hne]
    rfl
  unfold numeral
  dsimp only
  split
  · rw [Bool.and_eq_false_iff]
    right
    unfold Numeral.exponentText
    dsimp only
    split <;> rfl
  · rw [Bool.and_eq_false_iff]
    left
    split
    · exact hpoint (List.append_ne_nil_of_right_ne_nil _ (Text.ofNat_ne_nil _))
    · split
      · rfl
      · next hlead hpower =>
        apply hpoint
        rw [ne_eq, List.drop_eq_nil_iff]
        unfold lead at *
        omega

theorem mk_eq {x : Decimal} {digits : Nat} {power : Int} (hdigits : digits = x.digits)
    (hpower : power = x.power) : ⟨digits, power⟩ = x := by
  rw [hdigits, hpower]

/-- The numeral stands for the decimal, perhaps with zeros behind it. -/
theorem decimal_numeral (x : Decimal) : x.numeral.decimal = x ∨
    0 ≤ x.power ∧ x.numeral.decimal = ⟨x.digits * 10 ^ (x.power.toNat + 1), -1⟩ := by
  have hlength : 0 < (Text.ofNat x.digits).length :=
    List.length_pos_iff.mpr (Text.ofNat_ne_nil x.digits)
  have hlead : x.lead = x.power + (Text.ofNat x.digits).length - 1 := rfl
  unfold numeral
  dsimp only
  split
  · have hvalue : (Text.ofNat x.digits).take 1 ++ (Text.ofNat x.digits).tail =
        Text.ofNat x.digits := by
      rw [← List.drop_one, List.take_append_drop]
    refine .inl (mk_eq ?_ ?_)
    · rw [Numeral.digits, hvalue, Text.digitsValue_ofNat]
    · simp only [Numeral.shift, Text.digitsValue_padNat, List.length_tail, decide_eq_true_eq]
      split <;> omega
  · split
    · refine .inl (mk_eq ?_ ?_)
      · have hzero : Text.digitsValue 0 [.scalar '0'] = 0 := rfl
        rw [Numeral.digits, Text.digitsValue_append, hzero, Text.digitsValue_append,
          Text.digitsValue_zeros, Nat.zero_mul, Text.digitsValue_ofNat]
      · simp only [Numeral.shift, List.length_append, Text.zeros, List.length_replicate]
        omega
    · split
      · next hpower =>
        refine .inr ⟨hpower, mk_eq ?_ ?_⟩
        · have hzero : ∀ value, Text.digitsValue value [.scalar '0'] = value * 10 := fun _ => rfl
          rw [Numeral.digits, Text.digitsValue_append, hzero, Text.digitsValue_append,
            Text.digitsValue_ofNat, Text.digitsValue_zeros, pow_succ, Nat.mul_assoc]
        · rfl
      · refine .inl (mk_eq ?_ ?_)
        · rw [Numeral.digits, List.take_append_drop, Text.digitsValue_ofNat]
        · simp only [Numeral.shift, List.length_drop]
          omega

/-- The place where the digits of the numeral begin is that of the leading digit, or one. -/
theorem place_numeral (x : Decimal) :
    x.numeral.decimal.power + x.numeral.digits.length = x.lead + 1 ∨
      x.numeral.decimal.power + x.numeral.digits.length = 1 := by
  have hlength : 0 < (Text.ofNat x.digits).length :=
    List.length_pos_iff.mpr (Text.ofNat_ne_nil x.digits)
  have hlead : x.lead = x.power + (Text.ofNat x.digits).length - 1 := rfl
  unfold numeral
  dsimp only
  split
  · left
    simp only [Numeral.decimal, Numeral.digits, Numeral.shift, Text.digitsValue_padNat,
      List.length_append, List.length_take, List.length_tail, decide_eq_true_eq]
    split <;> omega
  · split
    · right
      simp only [Numeral.decimal, Numeral.digits, Numeral.shift, List.length_append,
        List.length_singleton]
      omega
    · left
      split
      · simp only [Numeral.decimal, Numeral.digits, Numeral.shift, List.length_append,
          List.length_singleton, Text.zeros, List.length_replicate]
        omega
      · simp only [Numeral.decimal, Numeral.digits, Numeral.shift, List.take_append_drop,
          List.length_drop]
        omega

theorem Stands.numeral {x : Decimal} {mantissa exponent : Nat} (h : x.Stands mantissa exponent) :
    x.numeral.decimal.Stands mantissa exponent := by
  rcases x.decimal_numeral with heq | ⟨hpower, heq⟩
  · rwa [heq]
  · rw [heq]
    refine ⟨Nat.mul_pos h.pos (Nat.pow_pos (by decide)),
      h.rounds.congr (den_pos _) (den_pos _) ?_⟩
    have hdown : (-x.power).toNat = 0 := by omega
    have hone : (-(-1 : Int)).toNat = 1 := rfl
    have hzero : (-1 : Int).toNat = 0 := rfl
    simp only [num, den, hdown, hone, hzero]
    ring

theorem two_pow_lt_ten_pow {j k : Nat} (h : j < 3 * k) : 2 ^ j < 10 ^ k :=
  calc 2 ^ j < 2 ^ (3 * k) := Nat.pow_lt_pow_right (by decide) h
    _ = (2 ^ 3) ^ k := pow_mul 2 3 k
    _ ≤ 10 ^ k := Nat.pow_le_pow_left (by decide) k

section Bounds

variable {x : Decimal} {negative : Bool} {mantissa exponent : Nat}

theorem Stands.lead_le (hcanonical : (finite negative mantissa exponent).IsCanonical)
    (h : x.Stands mantissa exponent) : x.lead ≤ 399 := by
  obtain ⟨hsmall, -, hfinite⟩ := hcanonical
  have hdigits := Text.pow_length_ofNat_le h.pos
  have hhigh := h.rounds.high
  by_contra hlead
  unfold lead at hlead
  generalize (Text.ofNat x.digits).length = length at hlead hdigits
  have hnum : 10 ^ 400 * x.den ≤ x.num := by
    calc 10 ^ 400 * 10 ^ (-x.power).toNat = 10 ^ (400 + (-x.power).toNat) := (pow_add _ _ _).symm
      _ ≤ 10 ^ (length - 1 + x.power.toNat) := Nat.pow_le_pow_right (by decide) (by omega)
      _ = 10 ^ (length - 1) * 10 ^ x.power.toNat := pow_add _ _ _
      _ ≤ x.digits * 10 ^ x.power.toNat := Nat.mul_le_mul_right _ hdigits
  have hpower : 2 ^ 55 * 2 ^ exponent ≤ 2 ^ 1026 * fineness := by
    rw [two_pow_mul_fineness, ← pow_add]
    apply Nat.pow_le_pow_right (by decide)
    omega
  have hbound : 10 ^ 400 * x.den * (4 * fineness) ≤ 2 ^ 1026 * x.den * fineness := by
    calc 10 ^ 400 * x.den * (4 * fineness) ≤ x.num * (4 * fineness) := Nat.mul_le_mul_right _ hnum
      _ = 4 * (x.num * fineness) := by ring
      _ ≤ (4 * mantissa + 2) * (x.den * 2 ^ exponent) := hhigh
      _ ≤ 2 ^ 55 * (x.den * 2 ^ exponent) := Nat.mul_le_mul_right _ (by omega)
      _ = 2 ^ 55 * 2 ^ exponent * x.den := by ring
      _ ≤ 2 ^ 1026 * fineness * x.den := Nat.mul_le_mul_right _ hpower
      _ = 2 ^ 1026 * x.den * fineness := Nat.mul_right_comm _ _ _
  have hlt : 2 ^ 1026 * (x.den * fineness) < 10 ^ 400 * (x.den * fineness) :=
    Nat.mul_lt_mul_of_pos_right (two_pow_lt_ten_pow (by decide))
      (Nat.mul_pos x.den_pos fineness_pos)
  generalize 10 ^ 400 = big at *
  generalize 2 ^ 1026 = small at *
  linarith [Nat.zero_le (big * (x.den * fineness))]

theorem Stands.le_lead (hmantissa : 0 < mantissa) (h : x.Stands mantissa exponent) :
    -401 ≤ x.lead := by
  have hdigits := Text.lt_pow_length_ofNat x.digits
  have hlow := h.rounds.low
  by_contra hlead
  unfold lead at hlead
  generalize (Text.ofNat x.digits).length = length at hlead hdigits
  have hreach : 2 ≤ 4 * mantissa - reach mantissa exponent := by
    unfold reach
    split <;> omega
  have hden : 10 ^ 400 * (10 ^ length * 10 ^ x.power.toNat) ≤ x.den := by
    calc 10 ^ 400 * (10 ^ length * 10 ^ x.power.toNat)
        = 10 ^ (400 + (length + x.power.toNat)) := by rw [pow_add, pow_add]
      _ ≤ 10 ^ (-x.power).toNat := Nat.pow_le_pow_right (by decide) (by omega)
  have hnum : x.num < 10 ^ length * 10 ^ x.power.toNat :=
    Nat.mul_lt_mul_of_pos_right hdigits (by positivity)
  have hbound : 2 * x.den < 2 * (10 ^ length * 10 ^ x.power.toNat) * (2 * fineness) := by
    calc 2 * x.den = 2 * (x.den * 1) := by ring
      _ ≤ (4 * mantissa - reach mantissa exponent) * (x.den * 2 ^ exponent) :=
        Nat.mul_le_mul hreach (Nat.mul_le_mul_left _ Nat.one_le_two_pow)
      _ ≤ 4 * (x.num * fineness) := hlow
      _ < 4 * (10 ^ length * 10 ^ x.power.toNat * fineness) := by
        have := Nat.mul_lt_mul_of_pos_right hnum fineness_pos
        omega
      _ = 2 * (10 ^ length * 10 ^ x.power.toNat) * (2 * fineness) := by ring
  have hfine : 2 * fineness < 10 ^ 400 := by
    calc 2 * fineness = 2 ^ 1 * fineness := by rw [pow_one]
      _ = 2 ^ (1 + 1074) := two_pow_mul_fineness 1
      _ < 10 ^ 400 := two_pow_lt_ten_pow (by decide)
  have hscaled := Nat.mul_le_mul_right (10 ^ length * 10 ^ x.power.toNat) hfine.le
  generalize 10 ^ 400 = big at *
  linarith

/-- A decimal that rounds to a double is read as that double, whatever the count of its digits. -/
theorem Stands.ofDecimal_eq {count : Nat}
    (hcanonical : (finite negative mantissa exponent).IsCanonical) (hmantissa : 0 < mantissa)
    (h : x.Stands mantissa exponent) (hlow : -400 ≤ x.power + count)
    (hhigh : x.power + count ≤ 400) :
    ofDecimal negative x.digits count x.power = finite negative mantissa exponent := by
  have hround := h.rounds.ofRatio_eq hcanonical hmantissa x.den_pos
  unfold ofDecimal
  rw [if_neg h.pos.ne', if_neg (by omega), if_neg (by omega)]
  unfold num den at hround
  split
  · next hpower =>
    rwa [show (-x.power).toNat = 0 by omega, pow_zero] at hround
  · next hpower =>
    rwa [show x.power.toNat = 0 by omega, pow_zero, Nat.mul_one] at hround

end Bounds

end Decimal

/-- A double is read back from its written form. -/
theorem readMagnitude?_shortest {negative : Bool} {mantissa exponent : Nat}
    (hcanonical : (finite negative mantissa exponent).IsCanonical) :
    (shortest mantissa exponent).numeral.WellFormed ∧
      readMagnitude? negative (shortest mantissa exponent).numeral.text =
        some (finite negative mantissa exponent) := by
  rcases Nat.eq_zero_or_pos mantissa with rfl | hmantissa
  · obtain rfl : exponent = 0 := hcanonical.2.1.resolve_right (by decide)
    have hzero : shortest 0 0 = ⟨0, 0⟩ := rfl
    have hwellFormed := Decimal.wellFormed_numeral (x := ⟨0, 0⟩) (.inr rfl)
    have hdigits : (⟨0, 0⟩ : Decimal).numeral.decimal.digits = 0 := by decide +kernel
    rw [hzero]
    refine ⟨hwellFormed, ?_⟩
    rw [Numeral.readMagnitude?_text hwellFormed negative, hdigits]
    rfl
  · have hstands := stands_shortest exponent hmantissa hcanonical.1
    generalize shortest mantissa exponent = x at hstands
    have hwellFormed := Decimal.wellFormed_numeral (.inl hstands.pos)
    have hlow := hstands.le_lead hmantissa
    have hhigh := hstands.lead_le hcanonical
    have hplace := x.place_numeral
    refine ⟨hwellFormed, ?_⟩
    rw [Numeral.readMagnitude?_text hwellFormed,
      hstands.numeral.ofDecimal_eq hcanonical hmantissa (by omega) (by omega)]

end PullGate.Double
