import Mathlib.Algebra.Order.Ring.Nat
import Mathlib.Tactic.GCongr
import Mathlib.Tactic.Ring
import PullGate.Proofs.Text.Joined
import PullGate.Text.Lines
import PullGate.Text.Utf8

/-! What is decoded from UTF-8.  Strict reading lets no surrogate through, and so gives text of
characters; to unify its line ends leaves it such. -/

namespace PullGate

theorem CodePoint.isSurrogate_ofNat {n : Nat} (h : n < 0xD800 ∨ 0xE000 ≤ n) :
    (ofNat n).isSurrogate = false := by
  by_cases hvalid : n.isValidChar
  · rw [ofNat, dif_pos hvalid]
    rfl
  · have hhalf : ¬n - 0xD800 < 0x800 := fun _ => hvalid (.inl (by omega))
    rw [ofNat, dif_neg hvalid, dif_neg hhalf]
    rfl

namespace Utf8

variable {count value width low high taken : Nat} {octets : Octets} {c : CodePoint}

/-- The number that continuation octets give: each of them adds six bits. -/
theorem follow_tail (h : follow count value width 0x80 0xBF octets = .char c taken) :
    ∃ n, c = CodePoint.ofNat n ∧ value * 64 ^ count ≤ n ∧ n < (value + 1) * 64 ^ count := by
  induction count generalizing value width octets with
  | zero =>
    cases h
    exact ⟨value, rfl, by simp, by simp⟩
  | succ count ih =>
    cases octets with
    | nil => cases h
    | cons b octets =>
      rw [follow] at h
      split at h
      · next hb =>
        simp only [Bool.and_eq_true, decide_eq_true_iff] at hb
        obtain ⟨n, hc, hlow, hhigh⟩ := ih h
        refine ⟨n, hc, ?_, ?_⟩
        · calc value * 64 ^ (count + 1) = value * 64 * 64 ^ count := by ring
            _ ≤ (value * 64 + (b.toNat - 0x80)) * 64 ^ count := by gcongr; omega
            _ ≤ n := hlow
        · calc n < (value * 64 + (b.toNat - 0x80) + 1) * 64 ^ count := hhigh
            _ ≤ (value + 1) * 64 * 64 ^ count := by gcongr; omega
            _ = (value + 1) * 64 ^ (count + 1) := by ring
      · cases h

/-- The number that a leading octet and those after it give, by the bounds of the first of these. -/
theorem follow_head
    (h : follow (count + 1) value width low high octets = .char c taken) :
    ∃ n, c = CodePoint.ofNat n ∧ (value * 64 + (low - 0x80)) * 64 ^ count ≤ n ∧
      n < (value * 64 + (high - 0x80) + 1) * 64 ^ count := by
  cases octets with
  | nil => cases h
  | cons b octets =>
    rw [follow] at h
    split at h
    · next hb =>
      simp only [Bool.and_eq_true, decide_eq_true_iff] at hb
      obtain ⟨n, hc, hle, hlt⟩ := follow_tail h
      refine ⟨n, hc, le_trans ?_ hle, lt_of_lt_of_le hlt ?_⟩
      · gcongr
        exact hb.1
      · gcongr
        exact hb.2
    · cases h

/-- The numbers that a leading octet opens lie on one side of the surrogates. -/
theorem lead_bounds {b : Nat} {lead : Lead} (h : lead? b = some lead) :
    lead.count = 0 ∧ lead.value < 0xD800 ∨ ∃ count, lead.count = count + 1 ∧
      ((lead.value * 64 + (lead.high - 0x80) + 1) * 64 ^ count ≤ 0xD800 ∨
        0xE000 ≤ (lead.value * 64 + (lead.low - 0x80)) * 64 ^ count) := by
  unfold lead? at h
  split at h
  · obtain rfl := Option.some.inj h
    exact .inl ⟨rfl, by simp only; omega⟩
  refine .inr ?_
  split at h
  · cases h
  split at h
  · obtain rfl := Option.some.inj h
    exact ⟨0, rfl, .inl (by simp only; omega)⟩
  split at h
  · obtain rfl := Option.some.inj h
    exact ⟨1, rfl, .inl (by decide)⟩
  split at h
  · obtain rfl := Option.some.inj h
    exact ⟨1, rfl, .inl (by decide)⟩
  split at h
  · obtain rfl := Option.some.inj h
    exact ⟨1, rfl, by simp only; omega⟩
  split at h
  · obtain rfl := Option.some.inj h
    exact ⟨2, rfl, .inr (by decide)⟩
  split at h
  · obtain rfl := Option.some.inj h
    exact ⟨2, rfl, .inr (by simp only; omega)⟩
  split at h
  · obtain rfl := Option.some.inj h
    exact ⟨2, rfl, .inr (by decide)⟩
  · cases h

theorem isSurrogate_of_step {b : UInt8} (h : step b octets = .char c taken) :
    c.isSurrogate = false := by
  unfold step at h
  split at h
  · cases h
  · next lead hlead =>
    rcases lead_bounds hlead with ⟨hcount, hvalue⟩ | ⟨count, hcount, hbounds⟩
    · rw [hcount] at h
      cases h
      exact CodePoint.isSurrogate_ofNat (.inl hvalue)
    · rw [hcount] at h
      obtain ⟨n, rfl, hlow, hhigh⟩ := follow_head h
      exact CodePoint.isSurrogate_ofNat (by omega)

/-- Strict reading gives text of characters. -/
theorem isUnicode_decodeFrom {skip position : Nat} {t : Text}
    (h : decodeFrom skip position octets = .ok t) : Text.isUnicode t = true := by
  induction octets generalizing skip position t with
  | nil =>
    cases h
    rfl
  | cons b octets ih =>
    cases skip with
    | succ skip => exact ih h
    | zero =>
      rw [decodeFrom] at h
      split at h
      · next c width hstep =>
        cases hrest : decodeFrom (width - 1) (position + 1) octets with
        | error fault => rw [hrest] at h; cases h
        | ok rest =>
          rw [hrest] at h
          cases h
          exact Text.isUnicode_cons.mpr ⟨isSurrogate_of_step hstep, ih hrest⟩
      · cases h

theorem isUnicode_decode {t : Text} (h : decode octets = .ok t) : Text.isUnicode t = true :=
  isUnicode_decodeFrom h

/-- ASCII is decoded octet by octet. -/
theorem decodeFrom_ascii (h : ∀ b ∈ octets, b.toNat < 0x80)
    (position : Nat) :
    decodeFrom 0 position octets = .ok (octets.map fun b => CodePoint.ofNat b.toNat) := by
  induction octets generalizing position with
  | nil => rfl
  | cons b octets ih =>
    obtain ⟨hb, hoctets⟩ := List.forall_mem_cons.mp h
    have hstep : step b octets = .char (CodePoint.ofNat b.toNat) 1 := by
      simp only [step, lead?, hb, if_true]
      rfl
    simp only [decodeFrom, hstep, ih hoctets]
    rfl

end Utf8

theorem Text.isUnicode_unifyLineEnds {t : Text} (h : isUnicode t = true) :
    isUnicode (unifyLineEnds t) = true := by
  fun_induction unifyLineEnds t
  case case1 => rfl
  case case2 t ih =>
    obtain ⟨-, h⟩ := isUnicode_cons.mp h
    exact isUnicode_cons.mpr ⟨rfl, ih (isUnicode_cons.mp h).2⟩
  case case3 c t hne ih =>
    obtain ⟨hc, h⟩ := isUnicode_cons.mp h
    refine isUnicode_cons.mpr ⟨?_, ih h⟩
    split
    · rfl
    · exact hc

theorem Text.unifyLineEnds_of_forall_ne {t : Text} (h : ∀ c ∈ t, c ≠ .scalar '\r') :
    unifyLineEnds t = t := by
  fun_induction unifyLineEnds t
  case case1 => rfl
  case case2 => exact absurd rfl (List.forall_mem_cons.mp h).1
  case case3 c t hne ih =>
    obtain ⟨hc, ht⟩ := List.forall_mem_cons.mp h
    rw [ih ht, if_neg hc]

end PullGate
