import PullGate.Json.Reader
import PullGate.Json.Writer
import PullGate.Proofs.Text.Joined

/-! Escaped strings.  Every code point is written in graphic characters of ASCII, in one or two
escapes if need be, and is read back from them; so is a string, unless it holds a surrogate pair in
two halves, as the reader joins these. -/

namespace PullGate

/-- An ASCII character that is no control character. -/
def CodePoint.isGraphic (c : CodePoint) : Bool := 0x20 ≤ c.toNat && c.toNat ≤ 0x7E

/-! ### Hexadecimal digits -/

namespace Text

def hexDigit (d : Nat) : CodePoint := .scalar (Nat.digitChar d)

theorem hexDigit?_hexDigit {d : Nat} (h : d < 16) : (hexDigit d).hexDigit? = some d := by
  revert d
  decide

theorem isGraphic_hexDigit {d : Nat} (h : d < 16) : (hexDigit d).isGraphic = true := by
  revert d
  decide

theorem padHex_one {n : Nat} (h : n < 16) : padHex 1 n = [hexDigit n] := by
  rw [padHex, Nat.toDigits_of_lt_base h]
  rfl

theorem padHex_succ {width : Nat} (hwidth : 0 < width) (n : Nat) :
    padHex (width + 1) n = padHex width (n / 16) ++ [hexDigit (n % 16)] := by
  rcases Nat.lt_or_ge n 16 with h | h
  · obtain ⟨k, rfl⟩ : ∃ k, width = k + 1 := ⟨width - 1, by omega⟩
    have hzero : padHex (k + 1) 0 = zeros (k + 1) := List.replicate_succ'.symm
    rw [Nat.div_eq_of_lt h, hzero, Nat.mod_eq_of_lt h, padHex, Nat.toDigits_of_lt_base h]
    rfl
  · unfold padHex
    rw [Nat.toDigits_of_base_le (by decide) h]
    simp [hexDigit]

theorem padHex_four {n : Nat} (h : n < 0x10000) : padHex 4 n =
    [hexDigit (n / 0x1000), hexDigit (n / 0x100 % 0x10), hexDigit (n / 0x10 % 0x10),
      hexDigit (n % 0x10)] := by
  rw [padHex_succ (by decide), padHex_succ (by decide), padHex_succ (by decide),
    padHex_one (by omega)]
  simp [Nat.div_div_eq_div_mul]

end Text

namespace Json

variable {s t rest : Text} {c : CodePoint} {start : Nat}

/-! ### Reading what was escaped -/

theorem unit?_hexDigit {n : Nat} (h : n < 0x10000) :
    unit? (Text.hexDigit (n / 0x1000)) (Text.hexDigit (n / 0x100 % 0x10))
      (Text.hexDigit (n / 0x10 % 0x10)) (Text.hexDigit (n % 0x10)) = some (CodePoint.ofNat n) := by
  unfold unit?
  rw [Text.hexDigit?_hexDigit (by omega), Text.hexDigit?_hexDigit (by omega),
    Text.hexDigit?_hexDigit (by omega), Text.hexDigit?_hexDigit (by omega)]
  have hvalue : n / 0x1000 * 0x1000 + n / 0x100 % 0x10 * 0x100 + n / 0x10 % 0x10 * 0x10 +
      n % 0x10 = n := by omega
  exact congrArg (fun n => some (CodePoint.ofNat n)) hvalue

theorem unitEscape_eq {n : Nat} (h : n < 0x10000) : unitEscape n =
    [.scalar '\\', .scalar 'u', Text.hexDigit (n / 0x1000), Text.hexDigit (n / 0x100 % 0x10),
      Text.hexDigit (n / 0x10 % 0x10), Text.hexDigit (n % 0x10)] := by
  rw [unitEscape, Text.padHex_four h]
  rfl

/-- A unit that was escaped is read, unless nothing comes after it. -/
theorem readString_unitEscape {n : Nat} (h : n < 0x10000) (ht : t ≠ []) :
    readString start (unitEscape n ++ t) =
      (readString start t).map fun (s, rest) => (consUnit (CodePoint.ofNat n) s, rest) := by
  rw [unitEscape_eq h]
  simp only [List.cons_append, List.nil_append]
  rw [readString.eq_def]
  have hcontrol : ¬(CodePoint.scalar '\\').toNat < 0x20 := by decide
  simp [unit?_hexDigit h, ht, hcontrol]

theorem readString_plain (hquote : c ≠ .scalar '"') (hcontrol : 0x20 ≤ c.toNat)
    (hslash : c ≠ .scalar '\\') :
    readString start (c :: t) = (readString start t).map fun (s, rest) => (c :: s, rest) := by
  rw [readString.eq_def]
  simp [hquote, hslash, Nat.not_lt.mpr hcontrol]

theorem readString_shortEscape {e : CodePoint} (he : shortEscape? e = some c) :
    readString start (.scalar '\\' :: e :: t) =
      (readString start t).map fun (s, rest) => (c :: s, rest) := by
  have hcontrol : ¬(CodePoint.scalar '\\').toNat < 0x20 := by decide
  have hunit : e ≠ .scalar 'u' := by
    rintro rfl
    cases he
  rw [readString.eq_def]
  dsimp only
  rw [if_neg (by decide), if_neg hcontrol, if_neg (by decide)]
  split
  · next heq => cases heq
  · next heq => exact absurd (List.cons.inj heq).1 hunit
  · next heq =>
    obtain ⟨rfl, rfl⟩ := List.cons.inj heq
    simp only [he]

/-- The four ways in which a code point is written. -/
inductive Escaped (c : CodePoint) : Text → Prop where
  | short (e : CodePoint) (hread : shortEscape? e = some c) (hgraphic : e.isGraphic = true)
    (hhigh : c.isHigh = false) : Escaped c [.scalar '\\', e]
  | plain (hquote : c ≠ .scalar '"') (hslash : c ≠ .scalar '\\') (hlow : 0x20 ≤ c.toNat)
    (hhigh : c.toNat ≤ 0x7E) : Escaped c [c]
  | unit (hsmall : c.toNat < 0x10000) : Escaped c (unitEscape c.toNat)
  | pair (high low : Nat) (hhigh : high < 0x10000) (hlow : low < 0x10000)
    (hjoin : ∀ s, consUnit (CodePoint.ofNat high) (consUnit (CodePoint.ofNat low) s) =
      consUnit c s) :
    Escaped c (unitEscape high ++ unitEscape low)

theorem consUnit_of_not_high (hc : c.isHigh = false) (s : Text) : consUnit c s = c :: s := by
  cases s <;> simp [consUnit, hc]

/-- The two halves of a character past U+FFFF are joined to it. -/
theorem consUnit_pair (hlarge : 0x10000 ≤ c.toNat) (s : Text) :
    consUnit (CodePoint.ofNat (0xD800 + (c.toNat - 0x10000) / 0x400))
      (consUnit (CodePoint.ofNat (0xDC00 + (c.toNat - 0x10000) % 0x400)) s) = consUnit c s := by
  have hlt := c.toNat_lt
  obtain ⟨offset, hoffset⟩ : ∃ offset, c.toNat - 0x10000 = offset := ⟨_, rfl⟩
  rw [hoffset]
  have hhigh := CodePoint.toNat_ofNat_of_half (n := 0xD800 + offset / 0x400) (by omega) (by omega)
  have hlow := CodePoint.toNat_ofNat_of_half (n := 0xDC00 + offset % 0x400) (by omega) (by omega)
  generalize CodePoint.ofNat (0xD800 + offset / 0x400) = high at *
  generalize CodePoint.ofNat (0xDC00 + offset % 0x400) = low at *
  have hisHigh : high.isHigh = true := by
    simp only [CodePoint.isHigh, Bool.and_eq_true, decide_eq_true_iff]
    omega
  have hisLow : low.isLow = true := by
    simp only [CodePoint.isLow, Bool.and_eq_true, decide_eq_true_iff]
    omega
  have hnotHigh : low.isHigh = false := by
    simp only [CodePoint.isHigh, Bool.and_eq_false_iff, decide_eq_false_iff_not]
    omega
  have hpair : CodePoint.ofPair high low = c := by
    apply CodePoint.toNat_injective
    rw [CodePoint.toNat_ofPair hisHigh hisLow]
    omega
  have hnot : c.isHigh = false := by
    simp only [CodePoint.isHigh, Bool.and_eq_false_iff, decide_eq_false_iff_not]
    omega
  rw [consUnit_of_not_high hnotHigh, consUnit_of_not_high hnot, consUnit, hisHigh, hisLow, hpair]
  rfl

theorem escaped_escape (c : CodePoint) : Escaped c (escape c) := by
  unfold escape
  dsimp only
  split
  · next h => exact .short '"' (by rw [h]; rfl) rfl (by rw [h]; rfl)
  split
  · next h => exact .short '\\' (by rw [h]; rfl) rfl (by rw [h]; rfl)
  split
  · next h => exact .short 'n' (by rw [h]; rfl) rfl (by rw [h]; rfl)
  split
  · next h => exact .short 'r' (by rw [h]; rfl) rfl (by rw [h]; rfl)
  split
  · next h => exact .short 't' (by rw [h]; rfl) rfl (by rw [h]; rfl)
  split
  · next h => exact .short 'b' (by rw [h]; rfl) rfl (by rw [h]; rfl)
  split
  · next h => exact .short 'f' (by rw [h]; rfl) rfl (by rw [h]; rfl)
  next hquote hslash _ _ _ _ _ =>
  split
  · next hprintable =>
    simp only [Bool.and_eq_true, decide_eq_true_iff] at hprintable
    exact .plain hquote hslash hprintable.1 hprintable.2
  · split
    · next hsmall => exact .unit hsmall
    · next hlarge =>
      have hlt := c.toNat_lt
      exact .pair _ _ (by omega) (by omega) (consUnit_pair (by omega))

/-- A code point is read back from its escape, and joined with what comes after it. -/
theorem readString_escape (c : CodePoint) (ht : t ≠ []) :
    readString start (escape c ++ t) =
      (readString start t).map fun (s, rest) => (consUnit c s, rest) := by
  have hescaped := escaped_escape c
  generalize escape c = u at hescaped
  cases hescaped with
  | short e hread _ hhigh =>
    simp only [List.cons_append, List.nil_append, readString_shortEscape hread,
      consUnit_of_not_high hhigh]
  | plain hquote hslash hlow hhigh =>
    have hnot : c.isHigh = false := by
      simp only [CodePoint.isHigh, Bool.and_eq_false_iff, decide_eq_false_iff_not]
      omega
    simp only [List.cons_append, List.nil_append, readString_plain hquote hlow hslash,
      consUnit_of_not_high hnot]
  | unit hsmall => rw [readString_unitEscape hsmall ht, CodePoint.ofNat_toNat]
  | pair high low hhigh hlow hjoin =>
    have hne : unitEscape low ++ t ≠ [] := List.append_ne_nil_of_right_ne_nil _ ht
    rw [List.append_assoc, readString_unitEscape hhigh hne, readString_unitEscape hlow ht]
    cases readString start t with
    | error e => rfl
    | ok result => simp only [Except.map, hjoin]

theorem consUnit_of_joined (h : Text.Joined (c :: t)) : consUnit c t = c :: t := by
  cases t with
  | nil => rfl
  | cons d t =>
    have hpair := (List.isChain_cons_cons.mp h).1
    rw [consUnit, hpair]
    rfl

/-- Joined text is read back from its escaped form. -/
theorem readString_flatMap (h : t.Joined) :
    readString start (t.flatMap escape ++ .scalar '"' :: rest) = .ok (t, rest) := by
  induction t with
  | nil => rw [List.flatMap_nil, List.nil_append, readString.eq_def]; rfl
  | cons c t ih =>
    rw [List.flatMap_cons, List.append_assoc, readString_escape c (by simp), ih h.tail]
    simp only [Except.map, consUnit_of_joined h]

/-! ### Halves of pairs -/

/-- Text in which every surrogate pair in two halves is the character that it names. -/
def joinHalves (t : Text) : Text := t.foldr consUnit []

theorem joinHalves_cons (c : CodePoint) (t : Text) :
    joinHalves (c :: t) = consUnit c (joinHalves t) := rfl

/-- A code point in front of text stays as it is, or is the first half of a pair. -/
theorem consUnit_cases (c : CodePoint) (t : Text) :
    (consUnit c t = c :: t ∧ ∀ d ∈ t.head?, (c.isHigh && d.isLow) = false) ∨
      ∃ low u, t = low :: u ∧ c.isHigh = true ∧ low.isLow = true ∧
        consUnit c t = CodePoint.ofPair c low :: u := by
  cases t with
  | nil => exact .inl ⟨rfl, fun d hd => nomatch hd⟩
  | cons d t =>
    cases hpair : c.isHigh && d.isLow with
    | false =>
      refine .inl ⟨by simp [consUnit, hpair], fun e he => ?_⟩
      obtain rfl := Option.some.inj he
      exact hpair
    | true =>
      rw [Bool.and_eq_true] at hpair
      exact .inr ⟨d, t, rfl, hpair.1, hpair.2, by simp [consUnit, hpair]⟩

theorem joined_joinHalves (t : Text) : (joinHalves t).Joined := by
  induction t with
  | nil => exact Text.joined_nil
  | cons c t ih =>
    rw [joinHalves_cons]
    rcases consUnit_cases c (joinHalves t) with ⟨heq, hpair⟩ | ⟨low, u, hjoined, hhigh, hlow, heq⟩
    · rw [heq]
      exact List.isChain_cons.mpr ⟨hpair, ih⟩
    · rw [hjoined] at ih
      rw [heq]
      refine List.isChain_cons.mpr ⟨fun d _ => ?_, ih.tail⟩
      rw [CodePoint.isHigh_ofPair hhigh hlow, Bool.false_and]

theorem joinHalves_of_joined (h : t.Joined) : joinHalves t = t := by
  induction t with
  | nil => rfl
  | cons c t ih => rw [joinHalves_cons, ih h.tail, consUnit_of_joined h]

theorem joinHalves_append (hs : Text.isUnicode s = true) (t : Text) :
    joinHalves (s ++ t) = s ++ joinHalves t := by
  induction s with
  | nil => rfl
  | cons c s ih =>
    obtain ⟨hc, hs⟩ := Text.isUnicode_cons.mp hs
    rw [List.cons_append, joinHalves_cons, ih hs,
      consUnit_of_not_high (CodePoint.isHigh_of_not_isSurrogate hc)]
    rfl

/-- Past ASCII everything is written in units. -/
theorem escape_of_large (h : 0x80 ≤ c.toNat) : escape c = if c.toNat < 0x10000
    then unitEscape c.toNat
    else unitEscape (0xD800 + (c.toNat - 0x10000) / 0x400) ++
      unitEscape (0xDC00 + (c.toNat - 0x10000) % 0x400) := by
  have hne : ∀ d : CodePoint, d.toNat < 0x80 → c ≠ d := by
    rintro d hd rfl
    omega
  have hprintable : (0x20 ≤ c.toNat && c.toNat ≤ 0x7E) = false := by
    simp only [Bool.and_eq_false_iff, decide_eq_false_iff_not]
    omega
  unfold escape
  simp only [hne '"' (by decide), hne '\\' (by decide), hne '\n' (by decide),
    hne '\r' (by decide), hne '\t' (by decide), hne '\x08' (by decide), hne '\x0c' (by decide),
    hprintable, if_false, Bool.false_eq_true]

/-- A character past U+FFFF is written as its halves are. -/
theorem escape_ofPair {high low : CodePoint} (hhigh : high.isHigh = true)
    (hlow : low.isLow = true) :
    escape (CodePoint.ofPair high low) = escape high ++ escape low := by
  have hpair := CodePoint.toNat_ofPair hhigh hlow
  simp only [CodePoint.isHigh, CodePoint.isLow, Bool.and_eq_true, decide_eq_true_iff] at hhigh hlow
  have hfirst : 0xD800 + ((CodePoint.ofPair high low).toNat - 0x10000) / 0x400 = high.toNat := by
    omega
  have hsecond : 0xDC00 + ((CodePoint.ofPair high low).toNat - 0x10000) % 0x400 = low.toNat := by
    omega
  rw [escape_of_large (c := high) (by omega), if_pos (by omega),
    escape_of_large (c := low) (by omega), if_pos (by omega), escape_of_large (by omega),
    if_neg (by omega), hfirst, hsecond]

/-- What is written does not tell whether halves were joined. -/
theorem flatMap_escape_joinHalves (t : Text) :
    (joinHalves t).flatMap escape = t.flatMap escape := by
  induction t with
  | nil => rfl
  | cons c t ih =>
    rw [joinHalves_cons, List.flatMap_cons, ← ih]
    rcases consUnit_cases c (joinHalves t) with ⟨heq, -⟩ | ⟨low, u, hjoined, hhigh, hlow, heq⟩
    · rw [heq, List.flatMap_cons]
    · rw [heq, hjoined, List.flatMap_cons, List.flatMap_cons, escape_ofPair hhigh hlow,
        List.append_assoc]

/-! ### Graphic characters -/

theorem isGraphic_unitEscape {n : Nat} (h : n < 0x10000) :
    (unitEscape n).all CodePoint.isGraphic = true := by
  rw [unitEscape_eq h]
  have hslash : (CodePoint.scalar '\\').isGraphic = true := rfl
  have hletter : (CodePoint.scalar 'u').isGraphic = true := rfl
  have hdigit : ∀ d < 16, (Text.hexDigit d).isGraphic = true :=
    fun _ => Text.isGraphic_hexDigit
  simp only [List.all_cons, List.all_nil, hslash, hletter, hdigit _ (Nat.mod_lt _ (by decide)),
    hdigit (n / 0x1000) (by omega), Bool.and_self]

theorem isGraphic_escape (c : CodePoint) : (escape c).all CodePoint.isGraphic = true := by
  have hescaped := escaped_escape c
  generalize escape c = u at hescaped
  cases hescaped with
  | short e _ hgraphic _ => simp [hgraphic]; rfl
  | plain _ _ hlow hhigh => simpa [CodePoint.isGraphic] using ⟨hlow, hhigh⟩
  | unit hsmall => exact isGraphic_unitEscape hsmall
  | pair high low hhigh hlow _ =>
    rw [List.all_append, isGraphic_unitEscape hhigh, isGraphic_unitEscape hlow]
    rfl

end Json

end PullGate
