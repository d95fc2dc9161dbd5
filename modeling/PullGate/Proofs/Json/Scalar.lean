import PullGate.Proofs.Json.Escape
import PullGate.Proofs.Number.Written

/-! Scalars that are read back.  What is written of a number or of one of the three words is read as
the same value, whatever comes after it, as long as that cannot continue a number. -/

namespace PullGate.Json

open Double (Numeral)

variable {t rest : Text} {negative : Bool} {x : Numeral}

/-- The text does not continue a number: it is at its end, at a mark that ends a value, or at the
end of a line. -/
def EndsValue (t : Text) : Prop :=
  ∀ c ∈ t.head?, c = .scalar ',' ∨ c = .scalar ']' ∨ c = .scalar '\x7d' ∨ c = .scalar '\n'

theorem EndsValue.head (h : EndsValue rest) : rest = [] ∨ ∃ c t, rest = c :: t ∧
    c.isDigit = false ∧ c ≠ .scalar '.' ∧ c ≠ .scalar 'e' ∧ c ≠ .scalar 'E' := by
  cases rest with
  | nil => exact .inl rfl
  | cons c t =>
    refine .inr ⟨c, t, rfl, ?_⟩
    rcases h c rfl with rfl | rfl | rfl | rfl <;> decide

/-! ### Numerals -/

theorem readFraction_of_ne (h : ∀ c ∈ t.head?, c ≠ .scalar '.') : readFraction t = ([], t) := by
  unfold readFraction
  split
  · exact absurd rfl (h _ rfl)
  · rfl

theorem readFraction_point {digits : Text} (hne : digits ≠ [])
    (hspan : Text.spanDigits t = (digits, rest)) :
    readFraction (.scalar '.' :: t) = (.scalar '.' :: digits, rest) := by
  unfold readFraction
  simp only [hspan]

theorem head_after_fraction (hrest : EndsValue rest) :
    ∀ c ∈ (x.exponentText ++ rest).head?, c.isDigit = false ∧ c ≠ .scalar '.' := by
  intro c hc
  rcases x.exponentText_cases with heq | ⟨t, heq⟩
  · rw [heq, List.nil_append] at hc
    rcases hrest c hc with rfl | rfl | rfl | rfl <;> decide
  · rw [heq] at hc
    obtain rfl := Option.some.inj hc
    decide

theorem readFraction_numeral (hx : x.WellFormed) (hrest : EndsValue rest) :
    readFraction (x.fractionText ++ (x.exponentText ++ rest)) =
      (x.fractionText, x.exponentText ++ rest) := by
  have hhead := head_after_fraction (x := x) hrest
  unfold Numeral.fractionText
  split
  · exact readFraction_of_ne fun c hc => (hhead c hc).2
  · next hne =>
    have hspan := Text.spanDigits_append hx.fraction fun c hc => (hhead c hc).1
    exact readFraction_point hne hspan

theorem readExponent_sign {sign : CodePoint} {digits : Text}
    (hsign : sign = .scalar '+' ∨ sign = .scalar '-') (hne : digits ≠ [])
    (hspan : Text.spanDigits t = (digits, rest)) :
    readExponent (.scalar 'e' :: sign :: t) = (.scalar 'e' :: sign :: digits, rest) := by
  unfold readExponent
  dsimp only
  rw [if_pos (by decide)]
  rcases hsign with rfl | rfl
  · simp only [hspan]
    rfl
  · simp only [hspan]
    rfl

theorem readExponent_numeral (hx : x.WellFormed) (hrest : EndsValue rest) :
    readExponent (x.exponentText ++ rest) = (x.exponentText, rest) := by
  have hdigit : ∀ c ∈ rest.head?, c.isDigit = false := by
    intro c hc
    rcases hrest c hc with rfl | rfl | rfl | rfl <;> rfl
  unfold Numeral.exponentText
  split
  · rcases hrest.head with rfl | ⟨c, t, rfl, -, -, hlower, hupper⟩
    · rfl
    · simp [readExponent, hlower, hupper]
  · next negative digits hexponent =>
    obtain ⟨hne, hdigits⟩ := hx.exponent negative digits hexponent
    have hspan := Text.spanDigits_append hdigits hdigit
    cases negative with
    | true => exact readExponent_sign (.inr rfl) hne hspan
    | false => exact readExponent_sign (.inl rfl) hne hspan

/-- A numeral is read whole: its digits before the point, the fraction, and the exponent. -/
theorem readNumber?_text (hx : x.WellFormed) (hrest : EndsValue rest) :
    readNumber? negative (x.text ++ rest) =
      if x.fractionText.isEmpty && x.exponentText.isEmpty then
        some (if digitLimit < x.whole.length then .error (.tooManyDigits x.whole.length)
          else .ok (.int (if negative then -(Text.digitsValue 0 x.whole : Int)
            else Text.digitsValue 0 x.whole), rest))
      else (Double.readMagnitude? negative x.text).map fun d => .ok (.double d, rest) := by
  have hfraction := readFraction_numeral hx hrest
  have hexponent := readExponent_numeral hx hrest
  have hspan := Text.spanDigits_append hx.whole
    (Numeral.head_after_whole fun c hc => (head_after_fraction (x := x) hrest c hc).1)
  have htext : x.text ++ rest = x.whole ++ (x.fractionText ++ (x.exponentText ++ rest)) := by
    rw [Numeral.text, List.append_assoc, List.append_assoc]
  have hne : x.whole.isEmpty = false := by simpa using hx.whole_ne_nil
  unfold readNumber?
  rw [htext]
  rcases hx.leading with heq | ⟨c, t, heq, hc⟩
  · rw [heq] at hne ⊢
    simp [hfraction, hexponent, Numeral.text, heq]
  · rw [heq, List.cons_append] at hspan
    rw [heq] at hne ⊢
    simp [hfraction, hexponent, Numeral.text, heq, hspan, hc]

/-! ### Numbers and words -/

theorem readScalar_minus {result : Read (Json × Text)} (h : readNumber? true t = some result) :
    readScalar (.scalar '-' :: t) = result := by
  unfold readScalar
  simp only [h]

theorem readScalar_of_ne {result : Read (Json × Text)}
    (hhead : ∀ c ∈ t.head?, c ≠ .scalar '-') (h : readNumber? false t = some result) :
    readScalar t = result := by
  unfold readScalar
  split
  · exact absurd rfl (hhead _ rfl)
  · simp only [h]

theorem head_text (hx : x.WellFormed) : ∃ c t, x.text = c :: t ∧ c.isDigit = true := by
  have hdigits := hx.whole
  cases hwhole : x.whole with
  | nil => exact absurd hwhole hx.whole_ne_nil
  | cons c t =>
    rw [hwhole, List.all_cons, Bool.and_eq_true] at hdigits
    exact ⟨c, _, by rw [Numeral.text, hwhole]; rfl, hdigits.1⟩

/-- A number is read with its sign. -/
theorem readScalar_signed (hx : x.WellFormed) {result : Read (Json × Text)}
    (h : readNumber? negative (x.text ++ rest) = some result) :
    readScalar ((if negative then ("-" : Text) else "") ++ (x.text ++ rest)) = result := by
  cases negative with
  | true => exact readScalar_minus h
  | false =>
    apply readScalar_of_ne _ h
    obtain ⟨c, t, heq, hdigit⟩ := head_text hx
    rintro d hd rfl
    have hhead : (x.text ++ rest).head? = some (.scalar '-') := hd
    rw [heq] at hhead
    obtain rfl := Option.some.inj hhead
    cases hdigit

/-- The numeral of an integer without its sign. -/
def integral (n : Nat) : Numeral := ⟨Text.ofNat n, [], none⟩

theorem wellFormed_integral (n : Nat) : (integral n).WellFormed where
  whole := Text.all_isDigit_ofNat n
  fraction := rfl
  leading := (Double.Decimal.ofNat_leading n).imp_left And.left
  exponent := fun _ _ h => by cases h

theorem text_integral (n : Nat) : (integral n).text = Text.ofNat n := by
  simp [integral, Numeral.text, Numeral.fractionText, Numeral.exponentText]

theorem readScalar_integral (negative : Bool) {n : Nat} (hn : n < 10 ^ digitLimit)
    (hrest : EndsValue rest) :
    readScalar ((if negative then ("-" : Text) else "") ++ (Text.ofNat n ++ rest)) =
      .ok (.int (if negative then -(n : Int) else n), rest) := by
  have hlength : ¬digitLimit < (Text.ofNat n).length :=
    Nat.not_lt.mpr ((Text.length_ofNat_le (by decide)).mpr hn)
  rw [← text_integral]
  apply readScalar_signed (wellFormed_integral n)
  rw [readNumber?_text (wellFormed_integral n) hrest]
  simp [integral, Numeral.fractionText, Numeral.exponentText, hlength]

/-- An integer is read back, if it does not have too many digits. -/
theorem readScalar_ofInt {n : Int} (hn : n.natAbs < 10 ^ digitLimit) (hrest : EndsValue rest) :
    readScalar (Text.ofInt n ++ rest) = .ok (.int n, rest) := by
  cases n with
  | ofNat n => exact readScalar_integral false hn hrest
  | negSucc n => exact readScalar_integral true hn hrest

theorem writeDouble_finite (negative : Bool) (mantissa exponent : Nat) :
    writeDouble (.finite negative mantissa exponent) =
      (if negative then ("-" : Text) else "") ++
        (Double.shortest mantissa exponent).numeral.text := by
  rw [← Double.Decimal.write_eq]
  cases negative <;> rfl

/-- A double is read back. -/
theorem readScalar_write {d : Double} (hd : d.IsCanonical) (hrest : EndsValue rest) :
    readScalar (writeDouble d ++ rest) = .ok (.double d, rest) := by
  cases d with
  | nan => rfl
  | infinite negative => cases negative <;> rfl
  | finite negative mantissa exponent =>
    obtain ⟨hwellFormed, hread⟩ := Double.readMagnitude?_shortest hd
    rw [writeDouble_finite, List.append_assoc]
    apply readScalar_signed hwellFormed
    rw [readNumber?_text hwellFormed hrest, hread, Double.Decimal.isEmpty_numeral]
    rfl

theorem readScalar_null : readScalar (("null" : Text) ++ rest) = .ok (.null, rest) := rfl

theorem readScalar_true : readScalar (("true" : Text) ++ rest) = .ok (.bool true, rest) := rfl

theorem readScalar_false : readScalar (("false" : Text) ++ rest) = .ok (.bool false, rest) := rfl

end PullGate.Json
