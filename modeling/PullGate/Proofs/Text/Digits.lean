import Mathlib.Data.List.Basic
import Mathlib.Data.List.TakeDrop
import Mathlib.Data.List.TakeWhile
import Mathlib.Data.Nat.Init
import Mathlib.Tactic.Ring
import PullGate.Text.Decimal

/-! Decimal numerals.  The digits of a number are read back as that number, there are as many of
them as its size asks for, and the first is no zero unless it is the only one. -/

namespace PullGate

theorem CodePoint.toNat_ofDigit {d : Nat} (h : d < 10) :
    (CodePoint.ofDigit d).toNat = 0x30 + d := by
  revert d
  decide

theorem CodePoint.isDigit_ofDigit {d : Nat} (h : d < 10) :
    (CodePoint.ofDigit d).isDigit = true := by
  revert d
  decide

namespace Text

variable {s t : Text} {n width : Nat}

theorem natDigits_of_lt (h : n < 10) (rest : Text) :
    natDigits n rest = CodePoint.ofDigit n :: rest := by
  rw [natDigits, if_pos h]

theorem natDigits_of_le (h : 10 ≤ n) (rest : Text) :
    natDigits n rest = natDigits (n / 10) (CodePoint.ofDigit (n % 10) :: rest) := by
  rw [natDigits, if_neg (Nat.not_lt.mpr h)]

/-- From one digit, by appending further ones. -/
theorem ofNat_induction {P : Nat → Prop} (hdigit : ∀ n < 10, P n)
    (happend : ∀ n, 10 ≤ n → P (n / 10) → P n) (n : Nat) : P n := by
  induction n using Nat.strong_induction_on with
  | _ n ih =>
    rcases Nat.lt_or_ge n 10 with h | h
    · exact hdigit n h
    · exact happend n h (ih (n / 10) (Nat.div_lt_self (by omega) (by decide)))

theorem natDigits_append (n : Nat) (first rest : Text) :
    natDigits n (first ++ rest) = natDigits n first ++ rest := by
  induction n using ofNat_induction generalizing first with
  | hdigit n h => rw [natDigits_of_lt h, natDigits_of_lt h, List.cons_append]
  | happend n h ih => rw [natDigits_of_le h, natDigits_of_le h, ← List.cons_append, ih]

theorem ofNat_of_lt (h : n < 10) : ofNat n = [CodePoint.ofDigit n] := natDigits_of_lt h []

theorem ofNat_of_le (h : 10 ≤ n) : ofNat n = ofNat (n / 10) ++ [CodePoint.ofDigit (n % 10)] := by
  rw [ofNat, natDigits_of_le h]
  exact natDigits_append (n / 10) [] _

theorem all_isDigit_ofNat (n : Nat) : (ofNat n).all CodePoint.isDigit = true := by
  induction n using ofNat_induction with
  | hdigit n h => simp [ofNat_of_lt h, CodePoint.isDigit_ofDigit h]
  | happend n h ih =>
    simp [ofNat_of_le h, ih, CodePoint.isDigit_ofDigit (Nat.mod_lt n (by decide : 0 < 10))]

theorem not_mem_ofNat {c : CodePoint} (h : c.isDigit = false) (n : Nat) : c ∉ ofNat n := by
  intro hc
  rw [List.all_eq_true.mp (all_isDigit_ofNat n) c hc] at h
  cases h

theorem ofNat_ne_nil (n : Nat) : ofNat n ≠ [] := by
  rcases Nat.lt_or_ge n 10 with h | h
  · simp [ofNat_of_lt h]
  · simp [ofNat_of_le h]

theorem head?_ofNat (h : 0 < n) : (ofNat n).head? ≠ some (.scalar '0') := by
  induction n using ofNat_induction with
  | hdigit n hn =>
    have hne : ∀ d < 10, 0 < d → CodePoint.ofDigit d ≠ .scalar '0' := by decide
    simpa [ofNat_of_lt hn] using hne n hn h
  | happend n hn ih =>
    rw [ofNat_of_le hn, List.head?_append_of_ne_nil _ (ofNat_ne_nil _)]
    exact ih (Nat.div_pos hn (by decide))

theorem ofNat_zero : ofNat 0 = [.scalar '0'] := ofNat_of_lt (by decide)

theorem length_ofNat_le {k : Nat} (hk : 0 < k) : (ofNat n).length ≤ k ↔ n < 10 ^ k := by
  induction n using ofNat_induction generalizing k with
  | hdigit n h =>
    rw [ofNat_of_lt h]
    have := Nat.pow_le_pow_right (show 0 < 10 by decide) hk
    exact iff_of_true hk (by omega)
  | happend n h ih =>
    rw [ofNat_of_le h, List.length_append, List.length_singleton]
    obtain ⟨j, rfl⟩ : ∃ j, k = j + 1 := ⟨k - 1, by omega⟩
    rw [Nat.add_le_add_iff_right, pow_succ, ← Nat.div_lt_iff_lt_mul (by decide)]
    rcases Nat.eq_zero_or_pos j with rfl | hj
    · have hpos := List.length_pos_iff.mpr (ofNat_ne_nil (n / 10))
      have hpos' := Nat.div_pos h (by decide : 0 < 10)
      exact iff_of_false (by omega) (by omega)
    · exact ih hj

theorem lt_pow_length_ofNat (n : Nat) : n < 10 ^ (ofNat n).length :=
  (length_ofNat_le (List.length_pos_iff.mpr (ofNat_ne_nil n))).mp (le_refl _)

theorem pow_length_ofNat_le (h : 0 < n) : 10 ^ ((ofNat n).length - 1) ≤ n := by
  rcases Nat.lt_or_ge 1 (ofNat n).length with hlong | hshort
  · rw [← Nat.not_lt, ← length_ofNat_le (by omega)]
    omega
  · rwa [Nat.sub_eq_zero_of_le hshort]

/-! ### Values -/

theorem digitsValue_nil (value : Nat) : digitsValue value [] = value := rfl

theorem digitsValue_cons (value : Nat) (c : CodePoint) (t : Text) :
    digitsValue value (c :: t) = digitsValue (value * 10 + (c.toNat - 0x30)) t := by
  conv => lhs; unfold digitsValue

theorem digitsValue_append (value : Nat) (s t : Text) :
    digitsValue value (s ++ t) = digitsValue (digitsValue value s) t := by
  induction s generalizing value with
  | nil => rw [List.nil_append, digitsValue_nil]
  | cons c s ih => rw [List.cons_append, digitsValue_cons, digitsValue_cons, ih]

theorem digitsValue_ofDigit {value d : Nat} (h : d < 10) :
    digitsValue value [CodePoint.ofDigit d] = value * 10 + d := by
  rw [digitsValue_cons, digitsValue_nil, CodePoint.toNat_ofDigit h, Nat.add_sub_cancel_left]

@[simp] theorem digitsValue_ofNat (n : Nat) : digitsValue 0 (ofNat n) = n := by
  induction n using ofNat_induction with
  | hdigit n h => rw [ofNat_of_lt h, digitsValue_ofDigit h, Nat.zero_mul, Nat.zero_add]
  | happend n h ih =>
    rw [ofNat_of_le h, digitsValue_append, ih, digitsValue_ofDigit (Nat.mod_lt n (by decide)),
      Nat.div_add_mod']

theorem zeros_succ (count : Nat) : zeros (count + 1) = .scalar '0' :: zeros count := rfl

theorem digitsValue_zeros (value count : Nat) :
    digitsValue value (zeros count) = value * 10 ^ count := by
  induction count generalizing value with
  | zero => exact (Nat.mul_one value).symm
  | succ count ih =>
    have hzero : (CodePoint.scalar '0').toNat - 0x30 = 0 := rfl
    rw [zeros_succ, digitsValue_cons, ih, hzero, Nat.add_zero, Nat.mul_assoc, ← Nat.pow_succ']

theorem all_isDigit_zeros (count : Nat) : (zeros count).all CodePoint.isDigit = true := by
  rw [zeros, List.all_replicate]
  split <;> rfl

@[simp] theorem digitsValue_padNat (width n : Nat) : digitsValue 0 (padNat width n) = n := by
  rw [padNat, digitsValue_append, digitsValue_zeros, Nat.zero_mul, digitsValue_ofNat]

theorem all_isDigit_padNat (width n : Nat) : (padNat width n).all CodePoint.isDigit = true := by
  rw [padNat, List.all_append, all_isDigit_zeros, all_isDigit_ofNat]
  rfl

theorem padNat_ne_nil (width n : Nat) : padNat width n ≠ [] :=
  List.append_ne_nil_of_right_ne_nil _ (ofNat_ne_nil n)

theorem ofNat_injective {m n : Nat} (h : ofNat m = ofNat n) : m = n := by
  have hvalue := congrArg (digitsValue 0) h
  rwa [digitsValue_ofNat, digitsValue_ofNat] at hvalue

/-- A number is told by how it is written: only a negative one begins with a minus sign. -/
theorem ofInt_injective {m n : Int} (h : ofInt m = ofInt n) : m = n := by
  have hsign : ∀ m n : Nat, ofNat m ≠ .scalar '-' :: ofNat n := by
    intro m n heq
    have hdigits := all_isDigit_ofNat m
    rw [heq, List.all_cons, Bool.and_eq_true] at hdigits
    exact absurd hdigits.1 (by decide)
  cases m with
  | ofNat m =>
    cases n with
    | ofNat n => rw [ofNat_injective h]
    | negSucc n => exact absurd h (hsign m (n + 1))
  | negSucc m =>
    cases n with
    | ofNat n => exact absurd h.symm (hsign n (m + 1))
    | negSucc n => rw [Nat.succ_injective (ofNat_injective (List.cons.inj h).2)]

theorem digitsValue_lt (ht : t.all CodePoint.isDigit = true) (value : Nat) :
    digitsValue value t < (value + 1) * 10 ^ t.length := by
  induction t generalizing value with
  | nil => simp [digitsValue_nil]
  | cons c t ih =>
    obtain ⟨hc, ht⟩ := by simpa using ht
    have hnext := ih (by simpa using ht) (value * 10 + (c.toNat - 0x30))
    have hdigit : c.toNat - 0x30 ≤ 9 := by
      simp only [CodePoint.isDigit, Bool.and_eq_true, decide_eq_true_iff] at hc
      omega
    calc digitsValue value (c :: t) = digitsValue (value * 10 + (c.toNat - 0x30)) t := rfl
      _ < (value * 10 + (c.toNat - 0x30) + 1) * 10 ^ t.length := hnext
      _ ≤ (value + 1) * 10 * 10 ^ t.length := Nat.mul_le_mul_right _ (by omega)
      _ = (value + 1) * 10 ^ (c :: t).length := by
        rw [List.length_cons, pow_succ']
        ring

theorem toNat?_eq_some (h : t ≠ []) (ht : t.all CodePoint.isDigit = true) :
    toNat? t = some (digitsValue 0 t) := by
  simp [toNat?, h, ht]

theorem toNat?_ofNat (n : Nat) : toNat? (ofNat n) = some n := by
  rw [toNat?_eq_some (ofNat_ne_nil n) (all_isDigit_ofNat n), digitsValue_ofNat]

theorem not_mem_ofInt {c : CodePoint} (hdigit : c.isDigit = false) (hsign : c ≠ .scalar '-')
    (n : Int) : c ∉ ofInt n := by
  cases n with
  | ofNat n => exact not_mem_ofNat hdigit n
  | negSucc n => exact List.not_mem_cons_of_ne_of_not_mem hsign (not_mem_ofNat hdigit (n + 1))

/-- The integer that a decimal numeral stands for. -/
def toInt? : Text → Option Int
  | .scalar '-' :: t => (toNat? t).map fun n : Nat => -(n : Int)
  | t => (toNat? t).map Int.ofNat

theorem toInt?_ofInt (n : Int) : toInt? (ofInt n) = some n := by
  cases n with
  | ofNat n =>
    change toInt? (ofNat n) = some (Int.ofNat n)
    unfold toInt?
    split
    · next t ht => exact absurd (ht ▸ List.mem_cons_self) (not_mem_ofNat (c := .scalar '-') rfl n)
    · rw [toNat?_ofNat, Option.map_some]
  | negSucc n =>
    change (toNat? (ofNat (n + 1))).map (fun n : Nat => -(n : Int)) = some (Int.negSucc n)
    rw [toNat?_ofNat, Option.map_some, Int.negSucc_eq]
    rfl

theorem all_isDigit_spanDigits (t : Text) : (spanDigits t).1.all CodePoint.isDigit = true := by
  rw [spanDigits, List.span_eq_takeWhile_dropWhile, List.all_eq_true]
  exact fun c hc => List.mem_takeWhile_imp hc

/-- Digits are read up to what is none. -/
theorem spanDigits_append {rest : Text} (h : s.all CodePoint.isDigit = true)
    (hrest : ∀ c ∈ rest.head?, c.isDigit = false) : spanDigits (s ++ rest) = (s, rest) := by
  have htake : (s ++ rest).takeWhile CodePoint.isDigit = s := by
    rw [List.takeWhile_append_of_pos (List.all_eq_true.mp h)]
    cases rest with
    | nil => simp
    | cons c rest => simp [hrest c rfl]
  have hdrop : (s ++ rest).dropWhile CodePoint.isDigit = rest := by
    rw [List.dropWhile_append_of_pos (List.all_eq_true.mp h)]
    cases rest with
    | nil => rfl
    | cons c rest => simp [hrest c rfl]
  rw [spanDigits, List.span_eq_takeWhile_dropWhile, htake, hdrop]

end Text

end PullGate
