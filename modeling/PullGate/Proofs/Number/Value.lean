import Mathlib.Algebra.Order.Field.Power
import Mathlib.Data.EReal.Basic
import PullGate.Number.Double

/-! The number that a double stands for, and what its sign says of that number.  Not-a-number stands
for none, so it is neither positive nor at most zero. -/

namespace PullGate.Double

/-- The value of a double, on the line with both infinities. -/
noncomputable def value? : Double → Option EReal
  | .nan => none
  | .infinite negative => some (if negative then ⊥ else ⊤)
  | .finite negative mantissa exponent =>
    some (((if negative then -1 else 1) * mantissa * 2 ^ ((exponent : ℤ) - 1074) : ℝ) : EReal)

variable {d : Double}

theorem value?_eq_none_iff : d.value? = none ↔ d = .nan := by
  cases d <;> simp [value?]

theorem isPositive_iff : d.isPositive = true ↔ ∃ x, d.value? = some x ∧ 0 < x := by
  cases d with
  | nan => simp [isPositive, value?]
  | infinite negative => cases negative <;> simp [isPositive, value?]
  | finite negative mantissa exponent =>
    have hscale : (0 : ℝ) < 2 ^ ((exponent : ℤ) - 1074) := by positivity
    simp only [isPositive, value?, Option.some.injEq, exists_eq_left', EReal.coe_pos,
      mul_pos_iff_of_pos_right hscale]
    cases negative with
    | true => simp [Nat.cast_nonneg]
    | false => simp [Nat.pos_iff_ne_zero]

/-- Only not-a-number is neither. -/
theorem isAtMostZero_eq (h : d ≠ .nan) : d.isAtMostZero = !d.isPositive := by
  cases d with
  | nan => exact absurd rfl h
  | infinite negative => cases negative <;> rfl
  | finite negative mantissa exponent => cases negative <;> simp [isAtMostZero, isPositive]

theorem isAtMostZero_iff : d.isAtMostZero = true ↔ ∃ x, d.value? = some x ∧ x ≤ 0 := by
  cases hvalue : d.value? with
  | none =>
    obtain rfl := value?_eq_none_iff.mp hvalue
    simp [isAtMostZero]
  | some x =>
    have hnan : d ≠ .nan := fun h => by simp [value?_eq_none_iff.mpr h] at hvalue
    simp [isAtMostZero_eq hnan, ← Bool.not_eq_true, isPositive_iff, hvalue]

theorem isAtMostZero_eq_false_iff :
    d.isAtMostZero = false ↔ d = .nan ∨ ∃ x, d.value? = some x ∧ 0 < x := by
  by_cases h : d = .nan
  · simp [h, isAtMostZero]
  · simp [h, isAtMostZero_eq h, isPositive_iff]

end PullGate.Double
