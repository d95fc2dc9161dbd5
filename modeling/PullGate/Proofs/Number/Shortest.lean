import PullGate.Proofs.Number.Rounding

/-! The shortest decimal of a double rounds to it.  Seventeen digits always hit the interval of a
number, since their grid is finer than its step; a hit with fewer digits is as good. -/

namespace PullGate.Double

variable {mantissa exponent n d n' d' : Nat}

/-- A decimal as a quotient. -/
def Decimal.num (x : Decimal) : Nat := x.digits * 10 ^ x.power.toNat

def Decimal.den (x : Decimal) : Nat := 10 ^ (-x.power).toNat

theorem Decimal.den_pos (x : Decimal) : 0 < x.den := Nat.pow_pos (by decide)

/-- Only the quotient matters. -/
theorem RoundsTo.congr (hd : 0 < d) (hd' : 0 < d') (heq : n * d' = n' * d)
    (h : RoundsTo mantissa exponent n d) : RoundsTo mantissa exponent n' d' := by
  have hend : ∀ x, x * (d * 2 ^ exponent) * d' = x * (d' * 2 ^ exponent) * d := fun x => by ring
  have hpoint : 4 * (n * fineness) * d' = 4 * (n' * fineness) * d := by
    linear_combination 4 * fineness * heq
  have hlow := le_iff_of_mul_eq hd' hd (hend (4 * mantissa - reach mantissa exponent)) hpoint
  have hlow' := le_iff_of_mul_eq hd' hd hpoint (hend (4 * mantissa - reach mantissa exponent))
  have hhigh := le_iff_of_mul_eq hd' hd hpoint (hend (4 * mantissa + 2))
  have hhigh' := le_iff_of_mul_eq hd' hd (hend (4 * mantissa + 2)) hpoint
  exact ⟨hlow.mp h.low, hhigh.mp h.high, fun hodd => And.imp
    (lt_iff_lt_of_le_iff_le hlow').mp (lt_iff_lt_of_le_iff_le hhigh').mp (h.odd hodd)⟩

/-- A decimal that rounds to a number. -/
structure Decimal.Stands (x : Decimal) (mantissa exponent : Nat) : Prop where
  pos : 0 < x.digits
  rounds : RoundsTo mantissa exponent x.num x.den

theorem stands_stripZeros (fuel : Nat) {digits : Nat} {power : Int}
    (h : Decimal.Stands ⟨digits, power⟩ mantissa exponent) :
    (stripZeros fuel digits power).Stands mantissa exponent := by
  induction fuel generalizing digits power with
  | zero => exact h
  | succ fuel ih =>
    unfold stripZeros
    split
    · next hzero =>
      simp only [ne_eq, Bool.and_eq_true, decide_eq_true_eq, decide_not, Bool.not_eq_eq_eq_not,
        Bool.not_true, decide_eq_false_iff_not] at hzero
      obtain ⟨q, rfl⟩ : ∃ q, digits = q * 10 := ⟨digits / 10, by omega⟩
      rw [Nat.mul_div_cancel q (by decide)]
      apply ih
      refine ⟨?_, h.rounds.congr (Decimal.den_pos _) (Decimal.den_pos _) ?_⟩
      · dsimp only
        omega
      · have hpowers : 1 + power.toNat + (-(power + 1)).toNat =
            (power + 1).toNat + (-power).toNat := by omega
        calc q * 10 * 10 ^ power.toNat * 10 ^ (-(power + 1)).toNat
            = q * 10 ^ (1 + power.toNat + (-(power + 1)).toNat) := by ring
          _ = q * 10 ^ (power + 1).toNat * 10 ^ (-power).toNat := by rw [hpowers]; ring
    · exact h

/-- A decimal of the grid lies in the interval. -/
theorem stands_onGrid {digits : Nat} {power : Int}
    (h : (interval mantissa exponent).onGrid power = some digits) :
    Decimal.Stands ⟨digits, power⟩ mantissa exponent := by
  have hstands : ∀ digits, 0 < digits →
      (interval mantissa exponent).holds (digits * Nat.pow 10 power.toNat)
        (Nat.pow 10 (-power).toNat) = true →
      Decimal.Stands ⟨digits, power⟩ mantissa exponent :=
    fun digits hpos hholds => ⟨hpos, holds_iff.mp hholds⟩
  unfold Interval.onGrid at h
  dsimp only at h
  generalize (interval mantissa exponent).num * Nat.pow 10 (-power).toNat /
    ((interval mantissa exponent).den * Nat.pow 10 power.toNat) = below at h
  have hlow : (decide (below ≠ 0) && (interval mantissa exponent).holds
      (below * Nat.pow 10 power.toNat) (Nat.pow 10 (-power).toNat)) = true →
      Decimal.Stands ⟨below, power⟩ mantissa exponent := by
    intro h
    obtain ⟨hne, hholds⟩ := Bool.and_eq_true_iff.mp h
    exact hstands below (Nat.pos_of_ne_zero (of_decide_eq_true hne)) hholds
  split at h
  · cases h
  · next hhit _ =>
    obtain rfl := Option.some.inj h
    exact hlow hhit
  · next hhit =>
    obtain rfl := Option.some.inj h
    exact hstands _ (Nat.succ_pos below) hhit
  · next hhit hhit' =>
    have hnear : digits = below ∨ digits = below + 1 := by grind
    rcases hnear with rfl | rfl
    · exact hlow hhit
    · exact hstands _ (Nat.succ_pos below) hhit'

theorem Interval.holds_of_lt {i : Interval} (hlow : i.low * d < n * i.den)
    (hhigh : n * i.den < i.high * d) : i.holds n d = true := by
  unfold holds
  split
  · simp [hlow.le, hhigh.le]
  · simp [hlow, hhigh]

/-- Where no neighbour on the grid hits, both were tried. -/
theorem Interval.onGrid_eq_none {i : Interval} {power : Int} {below : Nat}
    (hbelow : i.num * 10 ^ (-power).toNat / (i.den * 10 ^ power.toNat) = below)
    (h : i.onGrid power = none) :
    (below ≠ 0 → i.holds (below * 10 ^ power.toNat) (10 ^ (-power).toNat) = false) ∧
      i.holds ((below + 1) * 10 ^ power.toNat) (10 ^ (-power).toNat) = false := by
  unfold onGrid at h
  simp only [Nat.pow_eq, hbelow] at h
  split at h
  · next hlow hhigh =>
    refine ⟨fun hne => ?_, hhigh⟩
    simpa [hne] using hlow
  · cases h
  · cases h
  · split at h
    · cases h
    · split at h <;> cases h

/-- A grid with seventeen digits is finer than the interval, also where that is narrower below. -/
theorem grid_lt (exponent : Nat) {grid step : Nat} (hstep : 0 < step) (hsmall : mantissa < 2 ^ 53)
    (hfine : grid * 10 ^ 16 ≤ 4 * (mantissa * step)) :
    reach mantissa exponent = 1 ∧ grid < 2 * step ∨
      reach mantissa exponent = 2 ∧ grid < 4 * step := by
  unfold reach
  split
  · next hpower =>
    rw [hpower.1] at hfine
    exact .inl ⟨rfl, by omega⟩
  · have hle : mantissa * step ≤ (2 ^ 53 - 1) * step := Nat.mul_le_mul_right _ (by omega)
    exact .inr ⟨rfl, by omega⟩

/-- A grid that is finer than the step of a number hits its interval. -/
theorem onGrid_ne_none {power : Int} (hmantissa : 0 < mantissa) (hsmall : mantissa < 2 ^ 53)
    (hfine : (interval mantissa exponent).den * 10 ^ power.toNat * 10 ^ 16 ≤
      (interval mantissa exponent).num * 10 ^ (-power).toNat) :
    (interval mantissa exponent).onGrid power ≠ none := by
  obtain ⟨scale, den, hpositive, hden, -, heq⟩ := exists_scale mantissa exponent
  rw [heq] at hfine ⊢
  intro hnone
  obtain ⟨hlow, hhigh⟩ := Interval.onGrid_eq_none rfl hnone
  dsimp only at hfine hlow hhigh
  have hup : 0 < 10 ^ power.toNat := by positivity
  have hdown : 0 < 10 ^ (-power).toNat := by positivity
  generalize 10 ^ power.toNat = up at *
  generalize 10 ^ (-power).toNat = down at *
  have hstep : 0 < scale * down := Nat.mul_pos hpositive hdown
  have hgrid : 0 < den * up := Nat.mul_pos hden hup
  have hassoc : ∀ x, x * scale * down = x * (scale * down) := fun x => Nat.mul_assoc x scale down
  have hassoc' : ∀ x, x * up * den = x * (den * up) := fun x => by ring
  have hfloor := Nat.div_mul_le_self (4 * mantissa * scale * down) (den * up)
  have hceil := Nat.lt_div_mul_add (a := 4 * mantissa * scale * down) hgrid
  generalize 4 * mantissa * scale * down / (den * up) = below at *
  rw [hassoc, Nat.mul_assoc 4] at hfine hfloor hceil
  have hgap := grid_lt exponent hstep hsmall hfine
  -- a neighbour strictly between the ends is in the interval, whatever the parity
  have hends : ∀ k, 4 * (mantissa * (scale * down)) <
        k * (den * up) + reach mantissa exponent * (scale * down) →
      k * (den * up) < 4 * (mantissa * (scale * down)) + 2 * (scale * down) →
      Interval.holds ⟨(4 * mantissa - reach mantissa exponent) * scale, 4 * mantissa * scale,
        (4 * mantissa + 2) * scale, den, mantissa % 2 = 0⟩ (k * up) down = true := by
    intro k hbelow habove
    have hone : 1 * (scale * down) ≤ mantissa * (scale * down) := Nat.mul_le_mul_right _ hmantissa
    apply Interval.holds_of_lt
    · rw [hassoc, hassoc', Nat.sub_mul, Nat.mul_assoc 4]
      rcases hgap with ⟨hreach, -⟩ | ⟨hreach, -⟩ <;> rw [hreach] at hbelow ⊢ <;> omega
    · rw [hassoc, hassoc', Nat.add_mul, Nat.mul_assoc 4]
      exact habove
  have hsucc : (below + 1) * (den * up) = below * (den * up) + den * up := Nat.succ_mul _ _
  have hnext : ¬(below * (den * up) + den * up <
      4 * (mantissa * (scale * down)) + 2 * (scale * down)) := by
    intro habove
    have hhit := hends (below + 1) (by omega) (by omega)
    rw [hhigh] at hhit
    cases hhit
  rcases hgap with ⟨-, hlt⟩ | ⟨hreach, hlt⟩
  · omega
  · have hne : below ≠ 0 := by
      rintro rfl
      omega
    have hhit := hends below (by rw [hreach]; omega) (by omega)
    rw [hlow hne] at hhit
    cases hhit

/-! ### The place of the leading digit -/

theorem le_mul_leadingZeros {fuel num den : Nat} (h : den ≤ num * 10 ^ fuel) :
    den ≤ num * 10 ^ leadingZeros fuel num den := by
  induction fuel generalizing num with
  | zero => exact h
  | succ fuel ih =>
    unfold leadingZeros
    split
    · next hle => simpa using hle
    · have hnext : den ≤ num * 10 * 10 ^ leadingZeros fuel (num * 10) den :=
        ih (by rwa [Nat.mul_assoc, ← Nat.pow_succ'])
      rwa [Nat.mul_assoc, ← Nat.pow_succ'] at hnext

/-- The leading digit stands at the place or before it. -/
theorem decimalPlace_le {num den : Nat} (hden : 0 < den) (h : den ≤ num * 10 ^ 400) :
    den * 10 ^ (decimalPlace num den - 17).toNat * 10 ^ 16 ≤
      num * 10 ^ (-(decimalPlace num den - 17)).toNat := by
  unfold decimalPlace
  split
  · next hle =>
    have hpos : 0 < (Nat.toDigits 10 (num / den)).length := Nat.length_toDigits_pos
    have hquot : 10 ^ ((Nat.toDigits 10 (num / den)).length - 1) ≤ num / den := by
      rcases Nat.lt_or_ge 1 (Nat.toDigits 10 (num / den)).length with hlong | hshort
      · rw [← Nat.not_lt, ← Nat.length_toDigits_le_iff (by decide) (by omega)]
        omega
      · rw [Nat.sub_eq_zero_of_le hshort]
        exact Nat.div_pos hle hden
    generalize (Nat.toDigits 10 (num / den)).length = length at *
    have hpowers : (length - 17 : Int).toNat + 16 = length - 1 + (-(length - 17 : Int)).toNat := by
      omega
    calc den * 10 ^ (length - 17 : Int).toNat * 10 ^ 16
        = den * 10 ^ ((length - 17 : Int).toNat + 16) := by ring
      _ = den * 10 ^ (length - 1) * 10 ^ (-(length - 17 : Int)).toNat := by rw [hpowers]; ring
      _ ≤ num * 10 ^ (-(length - 17 : Int)).toNat := by
        apply Nat.mul_le_mul_right
        rw [Nat.mul_comm]
        exact (Nat.le_div_iff_mul_le hden).mp hquot
  · have hzeros := le_mul_leadingZeros h
    generalize leadingZeros 400 num den = zeros at *
    have hup : (1 - zeros - 17 : Int).toNat = 0 := by omega
    have hdown : (-(1 - zeros - 17 : Int)).toNat = zeros + 16 := by omega
    rw [hup, hdown, pow_zero, Nat.mul_one, pow_add, ← Nat.mul_assoc]
    exact Nat.mul_le_mul_right _ hzeros

/-- One of the grids hits, the last one if no other. -/
theorem stands_shortestFrom {place : Int}
    (hhit : (interval mantissa exponent).onGrid (place - 17) ≠ none) (fuel count : Nat)
    (hfuel : fuel + count = 17) :
    ((interval mantissa exponent).shortestFrom place (fuel + 1) count).Stands
      mantissa exponent := by
  induction fuel generalizing count with
  | zero =>
    obtain rfl : count = 17 := by omega
    unfold Interval.shortestFrom
    dsimp only
    split
    · next digits hdigits => exact stands_stripZeros 400 (stands_onGrid hdigits)
    · next hnone => exact absurd hnone hhit
  | succ fuel ih =>
    unfold Interval.shortestFrom
    dsimp only
    split
    · next digits hdigits => exact stands_stripZeros 400 (stands_onGrid hdigits)
    · exact ih (count + 1) (by omega)

theorem den_interval_le {zeros : Nat} (hzeros : 1076 ≤ 3 * zeros) :
    (interval mantissa exponent).den ≤ 10 ^ zeros := by
  unfold interval
  simp only [Nat.pow_eq]
  split
  · exact Nat.one_le_pow _ _ (by decide)
  · calc 2 ^ (1076 - exponent) ≤ 2 ^ (3 * zeros) := Nat.pow_le_pow_right (by decide) (by omega)
      _ = (2 ^ 3) ^ zeros := pow_mul _ _ _
      _ ≤ 10 ^ zeros := Nat.pow_le_pow_left (by decide) zeros

/-- The shortest decimal of a number above zero rounds to it. -/
theorem stands_shortest (exponent : Nat) (hmantissa : 0 < mantissa) (hsmall : mantissa < 2 ^ 53) :
    (shortest mantissa exponent).Stands mantissa exponent := by
  unfold shortest
  rw [if_neg hmantissa.ne']
  obtain ⟨scale, den, hpositive, hden, -, heq⟩ := exists_scale mantissa exponent
  have hnum : 0 < (interval mantissa exponent).num := by
    rw [heq]
    positivity
  have hdenominator : 0 < (interval mantissa exponent).den := by
    rw [heq]
    exact hden
  apply stands_shortestFrom (onGrid_ne_none hmantissa hsmall (decimalPlace_le hdenominator ?_))
  · rfl
  · exact le_trans (den_interval_le (by decide)) (Nat.le_mul_of_pos_left _ hnum)

end PullGate.Double
