import Mathlib.Tactic.Linarith
import Mathlib.Tactic.LinearCombination
import Mathlib.Tactic.Positivity
import Mathlib.Tactic.Ring
import PullGate.Number.Shortest

/-! Rounding to a double.  The exponent that is chosen leaves a significand of 53 bits, so that the
rounded number is canonical; and whatever lies in the interval around a canonical number rounds to
it. -/

namespace PullGate.Double

/-- A finite number in the one form that stands for it. -/
def IsCanonical : Double → Prop
  | .finite _ mantissa exponent =>
    mantissa < 2 ^ 53 ∧ (exponent = 0 ∨ 2 ^ 52 ≤ mantissa) ∧ exponent ≤ 2045
  | _ => True

/-! ### Rounding to a natural number -/

theorem roundHalfEven_eq {n d q : Nat} (hlow : 2 * (q * d) ≤ 2 * n + d)
    (hhigh : 2 * n ≤ 2 * (q * d) + d)
    (hodd : q % 2 = 1 → 2 * (q * d) < 2 * n + d ∧ 2 * n < 2 * (q * d) + d) (hd : 0 < d) :
    roundHalfEven n d = q := by
  have hdiv : n / d * d + n % d = n := Nat.div_add_mod' n d
  have hmod : n % d < d := Nat.mod_lt n hd
  -- the quotient is `q`, or one less
  have hle : n / d ≤ q := by
    by_contra h
    have : (q + 1) * d ≤ n / d * d := Nat.mul_le_mul_right d (by omega)
    rw [Nat.succ_mul] at this
    omega
  have hge : q ≤ n / d + 1 := by
    by_contra h
    have : (n / d + 2) * d ≤ q * d := Nat.mul_le_mul_right d (by omega)
    rw [Nat.add_mul] at this
    omega
  unfold roundHalfEven
  rcases Nat.le_succ_iff.mp hge with h | h
  · obtain rfl : n / d = q := Nat.le_antisymm hle h
    grind
  · obtain rfl : q = n / d + 1 := h
    rw [Nat.succ_mul] at hlow hhigh hodd
    grind

theorem roundHalfEven_bounds (n d : Nat) :
    n / d ≤ roundHalfEven n d ∧ roundHalfEven n d ≤ n / d + 1 := by
  unfold roundHalfEven
  grind

/-! ### The exponent -/

/-- How many steps of the least exponent make one. -/
def fineness : Nat := 2 ^ 1074

theorem pow_eq_fineness : Nat.pow 2 1074 = fineness := by
  delta fineness
  generalize 1074 = k
  rfl

theorem two_pow_mul_fineness (k : Nat) : 2 ^ k * fineness = 2 ^ (k + 1074) := by
  delta fineness
  exact (pow_add 2 k 1074).symm

theorem fineness_pos : 0 < fineness :=
  Nat.pos_of_mul_pos_left (Nat.lt_of_lt_of_eq (Nat.two_pow_pos _) (two_pow_mul_fineness 0).symm)

/-- The quotient is less than `2 ^ 53` in units of the exponent, and at least `2 ^ 52` unless the
exponent is the least one. -/
theorem exponentOf_bounds {num den : Nat} (hnum : 0 < num) (hden : 0 < den) :
    num * fineness < 2 ^ 53 * (den * 2 ^ exponentOf num den) ∧
      (exponentOf num den = 0 ∨
        2 ^ 52 * (den * 2 ^ exponentOf num den) ≤ num * fineness) := by
  have hlow : 2 ^ num.log2 ≤ num := Nat.log2_self_le hnum.ne'
  have hhigh : num < 2 ^ (num.log2 + 1) := Nat.lt_log2_self
  have hlow' : 2 ^ den.log2 ≤ den := Nat.log2_self_le hden.ne'
  have hhigh' : den < 2 ^ (den.log2 + 1) := Nat.lt_log2_self
  unfold exponentOf
  rw [pow_eq_fineness]
  generalize num.log2 = a at *
  generalize den.log2 = b at *
  have hbelow : ∀ e, a + 1074 ≤ b + 52 + e → num * fineness < 2 ^ 53 * (den * 2 ^ e) := by
    intro e he
    calc num * fineness
        < 2 ^ (a + 1) * fineness := Nat.mul_lt_mul_of_pos_right hhigh fineness_pos
      _ = 2 ^ (a + 1 + 1074) := two_pow_mul_fineness _
      _ ≤ 2 ^ (53 + (b + e)) := Nat.pow_le_pow_right (by decide) (by omega)
      _ = 2 ^ 53 * (2 ^ b * 2 ^ e) := by rw [pow_add 2 53, pow_add]
      _ ≤ 2 ^ 53 * (den * 2 ^ e) := Nat.mul_le_mul_left _ (Nat.mul_le_mul_right _ hlow')
  have habove : ∀ e, b + 53 + e ≤ a + 1074 → 2 ^ 52 * (den * 2 ^ e) ≤ num * fineness := by
    intro e he
    calc 2 ^ 52 * (den * 2 ^ e)
        ≤ 2 ^ 52 * (2 ^ (b + 1) * 2 ^ e) :=
          Nat.mul_le_mul_left _ (Nat.mul_le_mul_right _ hhigh'.le)
      _ = 2 ^ (52 + (b + 1 + e)) := by rw [pow_add 2 52, pow_add 2 (b + 1)]
      _ ≤ 2 ^ (a + 1074) := Nat.pow_le_pow_right (by decide) (by omega)
      _ = 2 ^ a * fineness := (two_pow_mul_fineness _).symm
      _ ≤ num * fineness := Nat.mul_le_mul_right _ hlow
  dsimp only
  split
  · next hguess => exact ⟨hbelow 0 (by omega), .inl rfl⟩
  · next hguess =>
    simp only [Nat.pow_eq]
    split
    · next hless =>
      obtain ⟨e, he⟩ : ∃ e, a + 1074 - (b + 52) = e + 1 := Nat.exists_eq_succ_of_ne_zero hguess
      rw [he, pow_succ 2 e] at hless
      rw [he, Nat.add_sub_cancel]
      exact ⟨by linarith, .inr (habove e (by omega))⟩
    · next hmore => exact ⟨hbelow _ (by omega), .inr (by linarith)⟩

/-- A significand that was rounded up to `2 ^ 53` is halved. -/
theorem carry_eq (negative : Bool) (significand exponent : Nat) :
    (let (mantissa, exponent) :=
      if significand = Nat.pow 2 53 then (Nat.pow 2 52, exponent + 1) else (significand, exponent)
    if 2045 < exponent then infinite negative else finite negative mantissa exponent) =
    if significand = 2 ^ 53 then
      if 2045 < exponent + 1 then infinite negative else finite negative (2 ^ 52) (exponent + 1)
    else if 2045 < exponent then infinite negative else finite negative significand exponent := by
  have hpow : ∀ k, Nat.pow 2 k = 2 ^ k := fun _ => rfl
  simp only [hpow]
  split
  · dsimp only
  · dsimp only

/-- The rounding of a quotient above zero, by the significand that the exponent leaves. -/
theorem ofRatio_eq (negative : Bool) {num den significand : Nat} (hnum : 0 < num) (hden : 0 < den)
    (h : roundHalfEven (num * fineness) (den * 2 ^ exponentOf num den) = significand) :
    ofRatio negative num den =
      if significand = 2 ^ 53 then
        if 2045 < exponentOf num den + 1 then infinite negative
        else finite negative (2 ^ 52) (exponentOf num den + 1)
      else if 2045 < exponentOf num den then infinite negative
      else finite negative significand (exponentOf num den) := by
  have hmantissa : roundHalfEven (num * Nat.pow 2 1074) (den * Nat.pow 2 (exponentOf num den)) =
      significand := by
    rw [pow_eq_fineness]
    exact h
  unfold ofRatio
  rw [if_neg hden.ne', if_neg hnum.ne']
  subst hmantissa
  exact carry_eq negative _ _

/-- Whatever is rounded is canonical. -/
theorem isCanonical_ofRatio (negative : Bool) (num den : Nat) :
    (ofRatio negative num den).IsCanonical := by
  rcases Nat.eq_zero_or_pos den with rfl | hden
  · trivial
  rcases Nat.eq_zero_or_pos num with rfl | hnum
  · simp [ofRatio, hden.ne', IsCanonical]
  obtain ⟨hhigh, hlow⟩ := exponentOf_bounds hnum hden
  obtain ⟨hfloor, hceil⟩ := roundHalfEven_bounds (num * fineness) (den * 2 ^ exponentOf num den)
  have hunit : 0 < den * 2 ^ exponentOf num den := by positivity
  have hlt : num * fineness / (den * 2 ^ exponentOf num den) < 2 ^ 53 :=
    (Nat.div_lt_iff_lt_mul hunit).mpr hhigh
  have hge : exponentOf num den = 0 ∨
      2 ^ 52 ≤ num * fineness / (den * 2 ^ exponentOf num den) :=
    hlow.imp_right (Nat.le_div_iff_mul_le hunit).mpr
  rw [ofRatio_eq negative hnum hden rfl]
  generalize roundHalfEven (num * fineness) (den * 2 ^ exponentOf num den) = significand at *
  split
  · split
    · trivial
    · exact ⟨by norm_num, .inr (le_refl _), by omega⟩
  · split
    · trivial
    · exact ⟨by omega, by omega, by omega⟩

/-! ### The interval around a number -/

/-- How far the interval of a number reaches below it, in fourths of its step. -/
def reach (mantissa exponent : Nat) : Nat := if mantissa = 2 ^ 52 ∧ 0 < exponent then 1 else 2

/-- The quotient of `n` and `d` lies in the interval of a number: between its ends, and on one of
them only if the mantissa is even. -/
structure RoundsTo (mantissa exponent n d : Nat) : Prop where
  low : (4 * mantissa - reach mantissa exponent) * (d * 2 ^ exponent) ≤ 4 * (n * fineness)
  high : 4 * (n * fineness) ≤ (4 * mantissa + 2) * (d * 2 ^ exponent)
  odd : mantissa % 2 = 1 →
    (4 * mantissa - reach mantissa exponent) * (d * 2 ^ exponent) < 4 * (n * fineness) ∧
      4 * (n * fineness) < (4 * mantissa + 2) * (d * 2 ^ exponent)

theorem exists_scale (mantissa exponent : Nat) : ∃ scale den, 0 < scale ∧ 0 < den ∧
    scale * (4 * fineness) = den * 2 ^ exponent ∧ interval mantissa exponent =
      ⟨(4 * mantissa - reach mantissa exponent) * scale, 4 * mantissa * scale,
        (4 * mantissa + 2) * scale, den, mantissa % 2 = 0⟩ := by
  have hfine : ∀ k, 2 ^ k * (4 * fineness) = 2 ^ (k + 1076) := by
    intro k
    calc 2 ^ k * (4 * fineness) = 2 ^ (k + 2) * fineness := by ring
      _ = 2 ^ (k + 2 + 1074) := two_pow_mul_fineness _
  have hreach : (if mantissa = Nat.pow 2 52 && 0 < exponent then 1 else 2) =
      reach mantissa exponent := by
    simp [reach]
  unfold interval
  by_cases h : 1076 ≤ exponent
  · refine ⟨2 ^ (exponent - 1076), 1, by positivity, by decide, ?_, ?_⟩
    · rw [hfine, Nat.sub_add_cancel h, Nat.one_mul]
    · simp only [h, ↓reduceIte, hreach, Nat.pow_eq]
  · refine ⟨1, 2 ^ (1076 - exponent), by decide, by positivity, ?_, ?_⟩
    · rw [← pow_zero 2, hfine, ← pow_add]
      congr 1
      omega
    · simp only [h, ↓reduceIte, hreach, Nat.pow_eq]

theorem le_iff_of_mul_eq {a b x y k d : Nat} (hk : 0 < k) (hd : 0 < d) (ha : a * k = x * d)
    (hb : b * k = y * d) : a ≤ b ↔ x ≤ y := by
  rw [← Nat.mul_le_mul_right_iff hk, ha, hb, Nat.mul_le_mul_right_iff hd]

theorem holds_iff {mantissa exponent n d : Nat} :
    (interval mantissa exponent).holds n d = true ↔ RoundsTo mantissa exponent n d := by
  obtain ⟨scale, den, -, hden, hscale, heq⟩ := exists_scale mantissa exponent
  have hfine : 0 < 4 * fineness := Nat.mul_pos (by decide) fineness_pos
  have hend : ∀ x, x * scale * d * (4 * fineness) = x * (d * 2 ^ exponent) * den := by
    intro x
    linear_combination x * d * hscale
  have hpoint : n * den * (4 * fineness) = 4 * (n * fineness) * den := by ring
  have hlow := le_iff_of_mul_eq hfine hden (hend (4 * mantissa - reach mantissa exponent)) hpoint
  have hlow' := le_iff_of_mul_eq hfine hden hpoint (hend (4 * mantissa - reach mantissa exponent))
  have hhigh := le_iff_of_mul_eq hfine hden hpoint (hend (4 * mantissa + 2))
  have hhigh' := le_iff_of_mul_eq hfine hden (hend (4 * mantissa + 2)) hpoint
  rw [heq]
  unfold Interval.holds
  constructor
  · intro h
    split at h
    · next heven =>
      simp only [Bool.and_eq_true, decide_eq_true_eq] at h heven
      exact ⟨hlow.mp h.1, hhigh.mp h.2, by omega⟩
    · next hodd =>
      simp only [Bool.and_eq_true, decide_eq_true_eq] at h
      have hstrict := And.imp (lt_iff_lt_of_le_iff_le hlow').mp (lt_iff_lt_of_le_iff_le hhigh').mp h
      exact ⟨hstrict.1.le, hstrict.2.le, fun _ => hstrict⟩
  · intro h
    split
    · next heven =>
      simp only [Bool.and_eq_true, decide_eq_true_eq]
      exact ⟨hlow.mpr h.low, hhigh.mpr h.high⟩
    · next hodd =>
      simp only [Bool.and_eq_true, decide_eq_true_eq] at hodd ⊢
      exact And.imp (lt_iff_lt_of_le_iff_le hlow').mpr (lt_iff_lt_of_le_iff_le hhigh').mpr
        (h.odd (by omega))

theorem RoundsTo.pos {mantissa exponent n d : Nat} (hmantissa : 0 < mantissa) (hd : 0 < d)
    (h : RoundsTo mantissa exponent n d) : 0 < n := by
  have hreach : reach mantissa exponent ≤ 2 := by
    unfold reach
    split <;> decide
  have hunit : 0 < d * 2 ^ exponent := by positivity
  have hlow : 0 < 4 * (n * fineness) := Nat.lt_of_lt_of_le (Nat.mul_pos (by omega) hunit) h.low
  exact Nat.pos_of_mul_pos_right (Nat.pos_of_mul_pos_left hlow)

theorem two_mul_step_le {d e e' : Nat} (h : e < e') : 2 * (d * 2 ^ e) ≤ d * 2 ^ e' := by
  calc 2 * (d * 2 ^ e) = d * 2 ^ (e + 1) := by ring
    _ ≤ d * 2 ^ e' := Nat.mul_le_mul_left d (Nat.pow_le_pow_right (by decide) h)

/-- What lies in the interval but has a smaller exponent lies below a power of two, and rounds up to
it. -/
theorem RoundsTo.carry {mantissa exponent n d : Nat} (hd : 0 < d) (hnormal : 2 ^ 52 ≤ mantissa)
    (habove : n * fineness < 2 ^ 53 * (d * 2 ^ exponentOf n d))
    (hless : exponentOf n d < exponent) (h : RoundsTo mantissa exponent n d) :
    mantissa = 2 ^ 52 ∧ exponent = exponentOf n d + 1 ∧
      roundHalfEven (n * fineness) (d * 2 ^ exponentOf n d) = 2 ^ 53 := by
  have hunit : 0 < d * 2 ^ exponentOf n d := by positivity
  have hstep := two_mul_step_le (d := d) hless
  have hlow := h.low
  have hmantissa : mantissa = 2 ^ 52 := by
    by_contra hne
    have hreach : 2 ^ 54 + 2 ≤ 4 * mantissa - reach mantissa exponent := by
      unfold reach
      rw [if_neg (by omega)]
      omega
    have := Nat.mul_le_mul_right (d * 2 ^ exponent) hreach
    omega
  rw [hmantissa, reach, if_pos ⟨rfl, Nat.zero_lt_of_lt hless⟩] at hlow
  have hexponent : exponent = exponentOf n d + 1 := by
    by_contra hne
    have hstep' := two_mul_step_le (d := d) (Nat.lt_add_one (exponentOf n d))
    have hmore := two_mul_step_le (d := d) (show exponentOf n d + 1 < exponent by omega)
    omega
  refine ⟨hmantissa, hexponent, roundHalfEven_eq (by omega) (by omega) ?_ hunit⟩
  exact fun h => absurd h (by decide)

/-- Whatever lies in the interval of a canonical number rounds to it. -/
theorem RoundsTo.ofRatio_eq {negative : Bool} {mantissa exponent n d : Nat}
    (hcanonical : (finite negative mantissa exponent).IsCanonical) (hmantissa : 0 < mantissa)
    (hd : 0 < d) (h : RoundsTo mantissa exponent n d) :
    ofRatio negative n d = finite negative mantissa exponent := by
  obtain ⟨hsmall, hnormal, hfinite⟩ := hcanonical
  have hn : 0 < n := h.pos hmantissa hd
  obtain ⟨habove, hbelow⟩ := exponentOf_bounds hn hd
  have hunit : 0 < d * 2 ^ exponent := by positivity
  rcases Nat.lt_trichotomy (exponentOf n d) exponent with hless | heq | hmore
  · obtain ⟨rfl, rfl, hround⟩ := h.carry hd (by omega) habove hless
    rw [Double.ofRatio_eq negative hn hd hround, if_pos rfl, if_neg (by omega)]
  · -- the exponent is the right one, and so is the significand
    obtain ⟨hlow, hhigh, hodd⟩ := h
    simp only [Nat.sub_mul, Nat.add_mul, Nat.mul_assoc] at hlow hhigh hodd
    have hround : roundHalfEven (n * fineness) (d * 2 ^ exponentOf n d) = mantissa := by
      rw [heq]
      have hreach : reach mantissa exponent * (d * 2 ^ exponent) ≤ 2 * (d * 2 ^ exponent) := by
        apply Nat.mul_le_mul_right
        unfold reach
        split <;> decide
      apply roundHalfEven_eq _ _ _ hunit
      · omega
      · omega
      · intro h
        have := hodd h
        omega
    rw [Double.ofRatio_eq negative hn hd hround, if_neg (by omega), if_neg (by omega), heq]
  · -- with a larger exponent the quotient would lie past the interval
    have hhigh := h.high
    have hstep := two_mul_step_le (d := d) hmore
    have hle : (4 * mantissa + 2) * (d * 2 ^ exponent) ≤ (2 ^ 55 - 2) * (d * 2 ^ exponent) :=
      Nat.mul_le_mul_right _ (by omega)
    omega

end PullGate.Double
