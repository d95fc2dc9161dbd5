import Mathlib.Data.List.Chain
import PullGate.Text.Basic

/-! Text without a surrogate pair in two halves.  Text of characters is such, and so is text where
every pair of halves was joined to the character that it names; only such text can come out of an
escaped form again. -/

namespace PullGate

namespace CodePoint

theorem toNat_lt (c : CodePoint) : c.toNat < 0x110000 := by
  cases c with
  | scalar c =>
    rcases c.valid with h | ⟨-, h⟩
    · exact Nat.lt_trans h (by decide)
    · exact h
  | surrogate half =>
    have := half.isLt
    simp only [toNat]
    omega

theorem toNat_scalar (c : Char) : (scalar c).toNat = c.toNat := rfl

theorem toNat_surrogate (half : Fin 0x800) : (surrogate half).toNat = 0xD800 + half.val := rfl

theorem ofNat_toNat (c : CodePoint) : ofNat c.toNat = c := by
  cases c with
  | scalar c =>
    have hvalid : c.toNat.isValidChar := c.valid
    rw [toNat_scalar, ofNat, dif_pos hvalid]
    rfl
  | surrogate half =>
    have hlt := half.isLt
    have hinvalid : ¬(0xD800 + half.val).isValidChar := by
      rintro (h | ⟨h, -⟩) <;> omega
    have hsub : 0xD800 + half.val - 0xD800 = half.val := Nat.add_sub_cancel_left _ _
    rw [toNat_surrogate, ofNat, dif_neg hinvalid, dif_pos (by rwa [hsub])]
    exact congrArg surrogate (Fin.ext hsub)

theorem toNat_injective {c d : CodePoint} (h : c.toNat = d.toNat) : c = d := by
  rw [← ofNat_toNat c, h, ofNat_toNat]

theorem toNat_ofNat_of_valid {n : Nat} (h : n.isValidChar) : (ofNat n).toNat = n := by
  rw [ofNat, dif_pos h]
  rfl

theorem toNat_ofNat_of_half {n : Nat} (hlow : 0xD800 ≤ n) (hhigh : n < 0xE000) :
    (ofNat n).toNat = n := by
  have hinvalid : ¬n.isValidChar := by
    rintro (h | ⟨h, -⟩) <;> omega
  rw [ofNat, dif_neg hinvalid, dif_pos (by omega), toNat_surrogate]
  exact Nat.add_sub_cancel' hlow

theorem toNat_scalar_valid (c : Char) : (scalar c).toNat < 0xD800 ∨ 0xDFFF < (scalar c).toNat :=
  c.valid.imp id And.left

theorem isHigh_scalar (c : Char) : (scalar c).isHigh = false := by
  have h := toNat_scalar_valid c
  simp only [isHigh, Bool.and_eq_false_iff, decide_eq_false_iff_not]
  omega

theorem isLow_scalar (c : Char) : (scalar c).isLow = false := by
  have h := toNat_scalar_valid c
  simp only [isLow, Bool.and_eq_false_iff, decide_eq_false_iff_not]
  omega

theorem isHigh_of_not_isSurrogate {c : CodePoint} (h : c.isSurrogate = false) :
    c.isHigh = false := by
  cases c with
  | scalar c => exact isHigh_scalar c
  | surrogate half => cases h

theorem isLow_of_not_isSurrogate {c : CodePoint} (h : c.isSurrogate = false) :
    c.isLow = false := by
  cases c with
  | scalar c => exact isLow_scalar c
  | surrogate half => cases h

/-- Two halves name a character past U+FFFF. -/
theorem toNat_ofPair {high low : CodePoint} (hhigh : high.isHigh = true)
    (hlow : low.isLow = true) : (ofPair high low).toNat =
      0x10000 + (high.toNat - 0xD800) * 0x400 + (low.toNat - 0xDC00) := by
  simp only [isHigh, isLow, Bool.and_eq_true, decide_eq_true_iff] at hhigh hlow
  exact toNat_ofNat_of_valid (.inr ⟨by omega, by omega⟩)

theorem isHigh_ofPair {high low : CodePoint} (hhigh : high.isHigh = true)
    (hlow : low.isLow = true) : (ofPair high low).isHigh = false := by
  simp only [isHigh, toNat_ofPair hhigh hlow, Bool.and_eq_false_iff, decide_eq_false_iff_not]
  omega

end CodePoint

namespace Text

variable {s t : Text} {c : CodePoint}

/-- No first half of a pair stands right before a second half. -/
def Joined (t : Text) : Prop := t.IsChain fun c d => (c.isHigh && d.isLow) = false

theorem joined_nil : Joined [] := .nil

theorem joined_append : Joined (s ++ t) ↔ Joined s ∧ Joined t ∧
    ∀ c ∈ s.getLast?, ∀ d ∈ t.head?, (c.isHigh && d.isLow) = false :=
  List.isChain_append

theorem isUnicode_cons :
    isUnicode (c :: t) = true ↔ c.isSurrogate = false ∧ isUnicode t = true := by
  simp [isUnicode]

theorem isUnicode_of_suffix (ht : isUnicode t = true) (h : s <:+ t) : isUnicode s = true :=
  List.all_eq_true.mpr fun c hc => List.all_eq_true.mp ht c (h.subset hc)

theorem Joined.cons (hc : c.isSurrogate = false) (h : Joined t) : Joined (c :: t) := by
  refine List.isChain_cons.mpr ⟨fun d _ => ?_, h⟩
  rw [CodePoint.isHigh_of_not_isSurrogate hc]
  rfl

/-- Text of characters can be put in front. -/
theorem Joined.prepend (hs : isUnicode s = true) (ht : Joined t) : Joined (s ++ t) := by
  induction s with
  | nil => exact ht
  | cons c s ih =>
    obtain ⟨hc, hs⟩ := isUnicode_cons.mp hs
    exact (ih hs).cons hc

theorem joined_of_isUnicode (h : isUnicode t = true) : Joined t := by
  rw [← List.append_nil t]
  exact joined_nil.prepend h

/-- Text that begins with a character can be put behind. -/
theorem Joined.append (hs : Joined s) (ht : Joined t)
    (hhead : ∀ c ∈ t.head?, c.isSurrogate = false) : Joined (s ++ t) := by
  refine joined_append.mpr ⟨hs, ht, fun c _ d hd => ?_⟩
  rw [CodePoint.isLow_of_not_isSurrogate (hhead d hd), Bool.and_false]

theorem Joined.append_isUnicode (hs : Joined s) (ht : isUnicode t = true) : Joined (s ++ t) := by
  refine hs.append (joined_of_isUnicode ht) fun c hc => ?_
  cases t with
  | nil => cases hc
  | cons d t =>
    obtain rfl := Option.some.inj hc
    exact (isUnicode_cons.mp ht).1

theorem Joined.trimRight (p : CodePoint → Bool) (h : Joined t) : Joined (trimRight p t) := by
  have hbegins : Text.trimRight p t <+: t := by
    unfold Text.trimRight
    rw [← List.reverse_reverse t, List.reverse_prefix, List.reverse_reverse]
    exact List.dropWhile_suffix p
  exact h.prefix hbegins

end Text

end PullGate
