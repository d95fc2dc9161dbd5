import PullGate.Http.Percent
import PullGate.Proofs.Text.Cut

/-! Percent-encoding in pieces: escapes are found again where a text is put together, so what is
done to the front of an address does not depend on what follows it. -/

namespace PullGate.Percent

/-- Every percent sign has at least so much behind it that an escape would fit. -/
def Closed (t : Text) : Prop := ∀ a b : Text, t = a ++ CodePoint.scalar '%' :: b → 2 ≤ b.length

/-- Every percent sign opens an escape. -/
def Escaped (t : Text) : Prop := ∀ a b : Text, t = a ++ CodePoint.scalar '%' :: b →
  ∃ x y r, b = x :: y :: r ∧ x.isHexDigit = true ∧ y.isHexDigit = true

variable {s t : Text} {c : CodePoint}

theorem Escaped.closed (h : Escaped t) : Closed t := by
  intro a b hb
  obtain ⟨x, y, r, rfl, -, -⟩ := h a b hb
  simp

theorem Escaped.of_not_mem (h : CodePoint.scalar '%' ∉ t) : Escaped t := by
  rintro a b rfl
  simp at h

theorem append_eq_mark {a b : Text} (h : s ++ t = a ++ c :: b) :
    (∃ b', s = a ++ c :: b' ∧ b = b' ++ t) ∨ ∃ a', t = a' ++ c :: b := by
  rcases List.append_eq_append_iff.mp h with ⟨m, ha, ht⟩ | ⟨m, hs, hb⟩
  · exact .inr ⟨m, ht⟩
  · cases m with
    | nil => exact .inr ⟨[], by simpa using hb.symm⟩
    | cons d m =>
      obtain ⟨rfl, rfl⟩ := List.cons.inj hb
      exact .inl ⟨m, hs, rfl⟩

theorem Closed.append (hs : Closed s) (ht : Closed t) : Closed (s ++ t) := by
  intro a b h
  rcases append_eq_mark h with ⟨b', rfl, rfl⟩ | ⟨a', rfl⟩
  · have := hs a b' rfl
    rw [List.length_append]
    omega
  · exact ht a' b rfl

theorem Escaped.append (hs : Escaped s) (ht : Escaped t) : Escaped (s ++ t) := by
  intro a b h
  rcases append_eq_mark h with ⟨b', rfl, rfl⟩ | ⟨a', rfl⟩
  · obtain ⟨x, y, r, rfl, hx, hy⟩ := hs a b' rfl
    exact ⟨x, y, r ++ t, rfl, hx, hy⟩
  · exact ht a' b rfl

theorem Closed.mark (h : Closed t) (hlong : 2 ≤ t.length) : Closed (CodePoint.scalar '%' :: t) := by
  intro a b hab
  cases a with
  | nil =>
    obtain ⟨-, rfl⟩ := List.cons.inj hab
    exact hlong
  | cons d a => exact h a b (List.cons.inj hab).2

theorem Closed.of_append (h : Closed (s ++ t)) : Closed t := by
  rintro a b rfl
  exact h (s ++ a) b (by simp)

theorem Escaped.of_append (h : Escaped (s ++ t)) : Escaped t := by
  rintro a b rfl
  exact h (s ++ a) b (by simp)

/-- No escape goes on past a character that is no digit of one. -/
theorem Escaped.of_append_left (h : Escaped (s ++ t)) (ht : ∀ c ∈ t.head?, c.isHexDigit = false) :
    Escaped s := by
  rintro a b rfl
  obtain ⟨x, y, r, hb, hx, hy⟩ := h a (b ++ t) (by simp)
  match b with
  | [] =>
    obtain rfl : t = x :: y :: r := hb
    rw [ht x rfl] at hx
    cases hx
  | [d] =>
    obtain ⟨rfl, rfl⟩ := List.cons.inj hb
    rw [ht y rfl] at hy
    cases hy
  | d :: e :: b =>
    simp only [List.cons_append, List.cons.injEq] at hb
    obtain ⟨rfl, rfl, -⟩ := hb
    exact ⟨d, e, b, rfl, hx, hy⟩

theorem Escaped.cons (h : Escaped t) (hc : c ≠ CodePoint.scalar '%') : Escaped (c :: t) :=
  Escaped.append (s := [c]) (.of_not_mem (by simpa using hc.symm)) h

theorem wellEscaped_iff : wellEscaped t = true ↔ Escaped t := by
  induction t using wellEscaped.induct with
  | case1 => exact ⟨fun _ => .of_not_mem List.not_mem_nil, fun _ => rfl⟩
  | case2 x y t ih =>
    rw [wellEscaped, Bool.and_eq_true, Bool.and_eq_true, ih]
    constructor
    · rintro ⟨⟨hx, hy⟩, h⟩ a b hab
      cases a with
      | nil =>
        obtain ⟨-, rfl⟩ := List.cons.inj hab
        exact ⟨x, y, t, rfl, hx, hy⟩
      | cons d a => exact h a b (List.cons.inj hab).2
    · intro h
      obtain ⟨x', y', r, heq, hx, hy⟩ := h [] _ rfl
      obtain ⟨rfl, rfl, -⟩ : x = x' ∧ y = y' ∧ t = r := by simpa using heq
      exact ⟨⟨hx, hy⟩, Escaped.of_append (s := [CodePoint.scalar '%']) h⟩
  | case3 d t h ih =>
    have hstep : wellEscaped (d :: t) = (d ≠ '%' && wellEscaped t) := by
      rw [wellEscaped]
      exact h
    rw [hstep, Bool.and_eq_true, ih, decide_eq_true_iff]
    constructor
    · rintro ⟨hd, hescaped⟩
      exact hescaped.cons hd
    · intro hescaped
      refine ⟨?_, Escaped.of_append (s := [d]) hescaped⟩
      rintro rfl
      obtain ⟨x, y, r, heq, -, -⟩ := hescaped [] t rfl
      exact h x y r rfl heq

/-! ### Hexadecimal digits -/

theorem isHexDigit_iff {c : CodePoint} : c.isHexDigit = true ↔
    (0x30 ≤ c.toNat ∧ c.toNat ≤ 0x39) ∨ (0x41 ≤ c.toNat ∧ c.toNat ≤ 0x46) ∨
      (0x61 ≤ c.toNat ∧ c.toNat ≤ 0x66) := by
  unfold CodePoint.isHexDigit CodePoint.hexDigit?
  simp only [Bool.and_eq_true, decide_eq_true_iff]
  split
  · simp
    omega
  · split
    · simp
      omega
    · split
      · simp
        omega
      · simp
        omega

theorem ne_mark_of_isHexDigit {c : CodePoint} (h : c.isHexDigit = true) :
    c ≠ CodePoint.scalar '%' := by
  rintro rfl
  revert h
  decide

theorem toNat_ofNat {n : Nat} (h : n < 0xD800) : (CodePoint.ofNat n).toNat = n := by
  have hvalid : n.isValidChar := .inl h
  unfold CodePoint.ofNat
  rw [dif_pos hvalid]
  rfl

theorem upperHex_isHexDigit {c : CodePoint} (h : c.isHexDigit = true) :
    (upperHex c).isHexDigit = true := by
  unfold upperHex
  split
  · next hlower =>
    simp only [CodePoint.isLowerAscii, Bool.and_eq_true, decide_eq_true_iff] at hlower
    rw [isHexDigit_iff] at h ⊢
    rw [toNat_ofNat (by omega)]
    omega
  · exact h

theorem Escaped.mark {x y : CodePoint} (hx : x.isHexDigit = true) (hy : y.isHexDigit = true)
    (h : Escaped t) : Escaped (CodePoint.scalar '%' :: x :: y :: t) := by
  intro a b hab
  cases a with
  | nil =>
    obtain ⟨-, rfl⟩ := List.cons.inj hab
    exact ⟨x, y, t, rfl, hx, hy⟩
  | cons d a =>
    have hrest := (h.cons (ne_mark_of_isHexDigit hy)).cons (ne_mark_of_isHexDigit hx)
    exact hrest a b (List.cons.inj hab).2

/-- The small letter of a capital is 0x20 behind it; every other character stays as it is. -/
theorem lowerAscii_cases (c : CodePoint) :
    0x41 ≤ c.toNat ∧ c.toNat ≤ 0x5A ∧ c.lowerAscii.toNat = c.toNat + 0x20 ∨
      c.lowerAscii = c := by
  unfold CodePoint.lowerAscii
  split
  · next hupper =>
    simp only [CodePoint.isUpperAscii, Bool.and_eq_true, decide_eq_true_iff] at hupper
    exact .inl ⟨hupper.1, hupper.2, toNat_ofNat (by omega)⟩
  · exact .inr rfl

theorem lowerAscii_eq_mark {c : CodePoint} : c.lowerAscii = '%' ↔ c = '%' := by
  constructor
  · intro h
    rcases lowerAscii_cases c with ⟨hlow, -, hnat⟩ | hsame
    · have hmark : (CodePoint.scalar '%').toNat = 0x25 := rfl
      rw [h, hmark] at hnat
      omega
    · exact hsame.symm.trans h
  · rintro rfl
    decide

theorem Closed.lowerAscii (h : Closed t) : Closed (Text.lowerAscii t) := by
  intro a b hab
  obtain ⟨a', l, rfl, -, hl⟩ := List.map_eq_append_iff.mp hab
  obtain ⟨c, b', rfl, hc, rfl⟩ := List.map_eq_cons_iff.mp hl
  obtain rfl := lowerAscii_eq_mark.mp hc
  rw [List.length_map]
  exact h a' b' rfl

theorem mark_not_mem_lowerAscii (h : CodePoint.scalar '%' ∉ t) :
    CodePoint.scalar '%' ∉ Text.lowerAscii t := by
  intro hmem
  obtain ⟨c, hc, heq⟩ := List.mem_map.mp hmem
  obtain rfl := lowerAscii_eq_mark.mp heq
  exact h hc

/-! ### Encoding -/

def isPair : Text → Bool
  | [x, y] => x.isHexDigit && y.isHexDigit
  | _ => false

theorem isPair_padHex : ∀ n < 256, isPair ((Text.padHex 2 n).map upperHex) = true := by
  decide +kernel

theorem escape_escaped (b : UInt8) : Escaped (escape b) := by
  have hpair := isPair_padHex b.toNat b.toNat_lt
  rw [← wellEscaped_iff, escape]
  generalize (Text.padHex 2 b.toNat).map upperHex = pair at hpair
  unfold isPair at hpair
  split at hpair
  · next x y =>
    rw [Bool.and_eq_true] at hpair
    exact wellEscaped_iff.mpr (.mark hpair.1 hpair.2 (.of_not_mem List.not_mem_nil))
  · cases hpair

theorem escapeChar_escaped (c : CodePoint) : Escaped (escapeChar c) := by
  unfold escapeChar
  generalize c.utf8 = octets
  induction octets with
  | nil => exact .of_not_mem List.not_mem_nil
  | cons b octets ih =>
    rw [List.flatMap_cons]
    exact (escape_escaped b).append ih

theorem encode_append (plain : CodePoint → Bool) (s t : Text) :
    encode plain (s ++ t) = encode plain s ++ encode plain t := List.flatMap_append

theorem encode_of_all {plain : CodePoint → Bool} (h : ∀ c ∈ t, plain c = true) :
    encode plain t = t := by
  induction t with
  | nil => rfl
  | cons c t ih =>
    have hc := h c (.head _)
    have ht := ih fun d hd => h d (.tail _ hd)
    unfold encode at ht ⊢
    rw [List.flatMap_cons, if_pos hc, ht]
    rfl

theorem encode_char_escaped (plain : CodePoint → Bool) (h : plain c = true → c ≠ '%') :
    Escaped (encode plain [c]) := by
  by_cases hc : plain c = true
  · rw [encode_of_all (by simpa using hc)]
    apply Escaped.of_not_mem
    rw [List.mem_singleton]
    exact (h hc).symm
  · simpa [encode, hc] using escapeChar_escaped c

theorem encode_escaped {plain : CodePoint → Bool} (h : plain '%' = false) (t : Text) :
    Escaped (encode plain t) := by
  induction t with
  | nil => exact .of_not_mem List.not_mem_nil
  | cons c t ih =>
    rw [← List.singleton_append, encode_append]
    refine (encode_char_escaped plain fun hc => ?_).append ih
    rintro rfl
    rw [h] at hc
    cases hc

theorem encode_singleton {plain : CodePoint → Bool} {c : CodePoint} (h : plain c = true)
    (t : Text) : encode plain (c :: t) = c :: encode plain t := by
  simp [encode, h]

theorem encode_upperEscapes_escaped {plain : CodePoint → Bool}
    (hhex : ∀ c : CodePoint, c.isHexDigit = true → plain c = true)
    (hmark : plain '%' = true) (h : Escaped t) :
    Escaped (encode plain (upperEscapes t)) := by
  induction t using upperEscapes.induct with
  | case1 => exact .of_not_mem List.not_mem_nil
  | case2 x y t hxy ih =>
    rw [Bool.and_eq_true] at hxy
    obtain ⟨hx, hy⟩ := hxy
    have hx' := upperHex_isHexDigit hx
    have hy' := upperHex_isHexDigit hy
    have hrest : Escaped t :=
      Escaped.of_append (s := [CodePoint.scalar '%', x, y]) h
    rw [upperEscapes, if_pos (by simp [hx, hy]), encode_singleton hmark,
      encode_singleton (hhex _ hx'), encode_singleton (hhex _ hy')]
    exact (ih hrest).mark hx' hy'
  | case3 x y t hxy ih =>
    obtain ⟨x', y', r, heq, hx, hy⟩ := h [] _ rfl
    obtain ⟨rfl, rfl, -⟩ : x = x' ∧ y = y' ∧ t = r := by simpa using heq
    exact absurd (by simp [hx, hy]) hxy
  | case4 c t hc ih =>
    have hne : c ≠ CodePoint.scalar '%' := by
      rintro rfl
      obtain ⟨x, y, r, rfl, -, -⟩ := h [] t rfl
      exact hc x y r rfl rfl
    have hrest : Escaped t := Escaped.of_append (s := [c]) h
    rw [upperEscapes]
    · rw [← List.singleton_append, encode_append]
      exact (encode_char_escaped plain fun _ => hne).append (ih hrest)
    · exact hc

theorem normalize_escaped {plain : CodePoint → Bool} (h : plain '%' = false)
    (hhex : ∀ c : CodePoint, c.isHexDigit = true → plain c = true) (t : Text) :
    Escaped (normalize plain t) := by
  unfold normalize
  cases hkept : wellEscaped t with
  | false => exact encode_escaped (by simp [h]) _
  | true =>
    refine encode_upperEscapes_escaped ?_ ?_ (wellEscaped_iff.mp hkept)
    · intro c hc
      simp [hhex c hc]
    · simp

theorem isUnreserved_ne_mark (h : isUnreserved c = true) : c ≠ CodePoint.scalar '%' := by
  rintro rfl
  revert h
  decide

theorem encodeForm_escaped (t : Text) : Escaped (encodeForm t) := by
  induction t with
  | nil => exact .of_not_mem List.not_mem_nil
  | cons c t ih =>
    unfold encodeForm at ih ⊢
    rw [List.flatMap_cons]
    refine Escaped.append ?_ ih
    split
    · exact .of_not_mem (by decide)
    · split
      · next h => exact .of_not_mem (by simpa using (isUnreserved_ne_mark h).symm)
      · exact escapeChar_escaped c

theorem join_escaped {sep : Text} {pieces : List Text} (hsep : Escaped sep)
    (h : ∀ piece ∈ pieces, Escaped piece) : Escaped (Text.join sep pieces) :=
  Text.join_induction (.of_not_mem List.not_mem_nil)
    (fun _ _ ha hb => (ha.append hsep).append hb) h

theorem encodePairs_escaped (pairs : List (Text × Text)) : Escaped (encodePairs pairs) := by
  apply join_escaped (.of_not_mem (by decide))
  intro piece hpiece
  obtain ⟨⟨name, value⟩, -, rfl⟩ := List.mem_map.mp hpiece
  exact (encodeForm_escaped name).append ((encodeForm_escaped value).cons (by decide))

theorem escapeChar_ne_nil (c : CodePoint) : escapeChar c ≠ [] := by
  have hutf8 : c.utf8 ≠ [] := by
    unfold CodePoint.utf8
    simp only
    split
    · simp
    · split
      · simp
      · split <;> simp
  cases h : c.utf8 with
  | nil => exact absurd h hutf8
  | cons b octets => simp [escapeChar, h, escape]

theorem normalize_ne_nil (plain : CodePoint → Bool) (h : t ≠ []) : normalize plain t ≠ [] := by
  have hupper : upperEscapes t ≠ [] := by
    fun_cases upperEscapes t <;> simp_all
  unfold normalize
  cases hu : upperEscapes t with
  | nil => exact absurd hu hupper
  | cons c u =>
    unfold encode
    rw [List.flatMap_cons]
    split
    · simp
    · simp [escapeChar_ne_nil]

/-! ### Decoding -/

theorem decodeUnreserved?_cons (hc : c ≠ CodePoint.scalar '%') (t : Text) :
    decodeUnreserved? (c :: t) = (decodeUnreserved? t).map (c :: ·) := by
  obtain ⟨first, parts, h⟩ := Text.exists_split '%' t
  simp [decodeUnreserved?, h, Text.split_cons hc h, Function.comp_def]

theorem decodeUnreserved?_append_of_not_mem (hs : CodePoint.scalar '%' ∉ s) (t : Text) :
    decodeUnreserved? (s ++ t) = (decodeUnreserved? t).map (s ++ ·) := by
  obtain ⟨first, parts, h⟩ := Text.exists_split '%' t
  simp [decodeUnreserved?, h, Text.split_append hs h, Function.comp_def]

/-- The text behind a percent sign, up to the next one, is decoded on its own. -/
theorem decodeUnreserved?_mark {piece rest : Text} (hpiece : CodePoint.scalar '%' ∉ piece)
    (hrest : rest = [] ∨ ∃ t, rest = CodePoint.scalar '%' :: t) :
    decodeUnreserved? (CodePoint.scalar '%' :: (piece ++ rest)) =
      (decodePart piece).bind fun part => (decodeUnreserved? rest).map (part ++ ·) := by
  have hsplit : ∃ parts, Text.split '%' rest = [] :: parts := by
    rcases hrest with rfl | ⟨t, rfl⟩
    · exact ⟨[], rfl⟩
    · exact ⟨_, Text.split_cons_sep _ t⟩
  obtain ⟨parts, hparts⟩ := hsplit
  have hwhole := Text.split_append hpiece hparts
  unfold decodeUnreserved?
  rw [Text.split_cons_sep, hwhole, hparts, List.append_nil]
  simp only [List.mapM_cons]
  cases decodePart piece with
  | none => simp
  | some part => cases parts.mapM decodePart <;> simp

theorem exists_piece (t : Text) : ∃ piece rest, t = piece ++ rest ∧ CodePoint.scalar '%' ∉ piece ∧
    (rest = [] ∨ ∃ r, rest = CodePoint.scalar '%' :: r) := by
  cases hcut : Text.cut? '%' t with
  | none => exact ⟨t, [], by simp, Text.cut?_eq_none.mp hcut, .inl rfl⟩
  | some cut =>
    obtain ⟨heq, hnot⟩ := Text.cut?_eq_some hcut
    exact ⟨cut.1, _ :: cut.2, heq, hnot, .inr ⟨cut.2, rfl⟩⟩

theorem mark_cases (t : Text) : t = [] ∨ (∃ c r, t = c :: r ∧ c ≠ CodePoint.scalar '%') ∨
    ∃ piece rest, t = CodePoint.scalar '%' :: (piece ++ rest) ∧ CodePoint.scalar '%' ∉ piece ∧
      (rest = [] ∨ ∃ r, rest = CodePoint.scalar '%' :: r) := by
  cases t with
  | nil => exact .inl rfl
  | cons c t =>
    right
    by_cases hc : c = CodePoint.scalar '%'
    · obtain ⟨piece, rest, rfl, hpiece, hrest⟩ := exists_piece t
      exact .inr ⟨piece, rest, by rw [hc], hpiece, hrest⟩
    · exact .inl ⟨c, t, rfl, hc⟩

theorem decodePart_append {piece : Text} (h : 2 ≤ piece.length) (more : Text) :
    decodePart (piece ++ more) = (decodePart piece).map (· ++ more) := by
  match piece, h with
  | a :: b :: rest, _ =>
    simp only [List.cons_append, decodePart]
    split
    · cases a.hexDigit? with
      | none => rfl
      | some x =>
        cases b.hexDigit? with
        | none => rfl
        | some y =>
          simp only [Option.map_some, Option.some.injEq]
          split <;> rfl
    · rfl

/-- A last escape is decoded alike when text without one follows. -/
theorem decodeUnreserved?_piece_append {piece : Text} (hpiece : CodePoint.scalar '%' ∉ piece)
    (hlong : 2 ≤ piece.length) (t : Text) :
    decodeUnreserved? (CodePoint.scalar '%' :: piece ++ t) =
      (decodeUnreserved? (CodePoint.scalar '%' :: piece)).bind fun front =>
        (decodeUnreserved? t).map (front ++ ·) := by
  obtain ⟨more, rest, rfl, hmore, hrest⟩ := exists_piece t
  have hjoined : CodePoint.scalar '%' ∉ piece ++ more := by simp [hpiece, hmore]
  have hlast := decodeUnreserved?_mark hpiece (.inl rfl : ([] : Text) = [] ∨ _)
  rw [List.append_nil] at hlast
  rw [List.cons_append, ← List.append_assoc, decodeUnreserved?_mark hjoined hrest,
    decodePart_append hlong, decodeUnreserved?_append_of_not_mem hmore, hlast]
  cases decodePart piece with
  | none => rfl
  | some part => cases decodeUnreserved? rest <;> simp [decodeUnreserved?, Text.split]

/-- What is decoded in front does not depend on what follows. -/
theorem decodeUnreserved?_append (hs : Closed s) (t : Text) :
    decodeUnreserved? (s ++ t) =
      (decodeUnreserved? s).bind fun front => (decodeUnreserved? t).map (front ++ ·) := by
  -- a piece up to the next percent sign is taken off at a time, so the induction is on the length
  obtain ⟨n, hn⟩ : ∃ n, s.length ≤ n := ⟨_, Nat.le_refl _⟩
  induction n generalizing s with
  | zero =>
    obtain rfl : s = [] := List.eq_nil_of_length_eq_zero (by omega)
    simp [decodeUnreserved?, Text.split]
  | succ n ih =>
    rcases mark_cases s with rfl | ⟨c, r, rfl, hc⟩ | ⟨piece, rest, rfl, hpiece, hrest⟩
    · simp [decodeUnreserved?, Text.split]
    · have hr := ih (Closed.of_append (s := [c]) hs) (by simpa using hn)
      rw [List.cons_append, decodeUnreserved?_cons hc, decodeUnreserved?_cons hc, hr]
      cases decodeUnreserved? r <;> simp [Function.comp_def]
    · rcases hrest with rfl | ⟨r, rfl⟩
      · have hlong : 2 ≤ piece.length := hs [] piece (by simp)
        rw [List.append_nil]
        exact decodeUnreserved?_piece_append hpiece hlong t
      · have hclosed : Closed (CodePoint.scalar '%' :: r) :=
          Closed.of_append (s := CodePoint.scalar '%' :: piece) hs
        have hshort : (CodePoint.scalar '%' :: r).length ≤ n := by
          simp at hn ⊢
          omega
        have hmark : CodePoint.scalar '%' :: r ++ t = [] ∨
            ∃ u, CodePoint.scalar '%' :: r ++ t = CodePoint.scalar '%' :: u :=
          .inr ⟨r ++ t, rfl⟩
        rw [List.cons_append, List.append_assoc, decodeUnreserved?_mark hpiece (.inr ⟨r, rfl⟩),
          decodeUnreserved?_mark hpiece hmark, ih hclosed hshort]
        cases decodePart piece with
        | none => rfl
        | some part =>
          cases decodeUnreserved? (CodePoint.scalar '%' :: r) with
          | none => rfl
          | some front => cases decodeUnreserved? t <;> simp

theorem exists_decodePart {x y : CodePoint} (hx : x.isHexDigit = true) (hy : y.isHexDigit = true)
    (r : Text) : ∃ part, decodePart (x :: y :: r) = some part := by
  obtain ⟨m, hm⟩ := Option.isSome_iff_exists.mp hx
  obtain ⟨n, hn⟩ := Option.isSome_iff_exists.mp hy
  unfold decodePart
  simp only [hm, hn]
  split <;> exact ⟨_, rfl⟩

theorem Escaped.exists_decoded (h : Escaped t) : ∃ u, decodeUnreserved? t = some u := by
  induction t using wellEscaped.induct with
  | case1 => exact ⟨[], rfl⟩
  | case2 x y t ih =>
    obtain ⟨x', y', r, heq, hx, hy⟩ := h [] _ rfl
    obtain ⟨rfl, rfl, -⟩ : x = x' ∧ y = y' ∧ t = r := by simpa using heq
    obtain ⟨u, hu⟩ := ih (Escaped.of_append (s := [CodePoint.scalar '%']) h)
    obtain ⟨more, rest, rfl, hmore, hrest⟩ := exists_piece t
    obtain ⟨part, hpart⟩ := exists_decodePart hx hy more
    have hpiece : CodePoint.scalar '%' ∉ x :: y :: more := by
      simp [hmore, (ne_mark_of_isHexDigit hx).symm, (ne_mark_of_isHexDigit hy).symm]
    have hjoined : x :: y :: (more ++ rest) = (x :: y :: more) ++ rest := rfl
    rw [hjoined, decodeUnreserved?_append_of_not_mem hpiece, Option.map_eq_some_iff] at hu
    obtain ⟨v, hv, -⟩ := hu
    rw [hjoined, decodeUnreserved?_mark hpiece hrest, hpart, hv]
    exact ⟨part ++ v, rfl⟩
  | case3 c t hc ih =>
    have hne : c ≠ CodePoint.scalar '%' := by
      rintro rfl
      obtain ⟨x, y, r, rfl, -, -⟩ := h [] t rfl
      exact hc x y r rfl rfl
    obtain ⟨u, hu⟩ := ih (Escaped.of_append (s := [c]) h)
    exact ⟨c :: u, by rw [decodeUnreserved?_cons hne, hu]; rfl⟩

/-! ### Whole addresses -/

/-- What is finished in front does not depend on the path that follows. -/
theorem exists_finish_append (hs : Closed s) (ht : Escaped t) :
    ∃ u, finish (s ++ CodePoint.scalar '/' :: t) = finish s ++ CodePoint.scalar '/' :: u := by
  obtain ⟨v, hv⟩ := ht.exists_decoded
  have hslash : decodeUnreserved? (CodePoint.scalar '/' :: t) =
      some (CodePoint.scalar '/' :: v) := by
    rw [decodeUnreserved?_cons (by decide), hv]
    rfl
  unfold finish
  rw [decodeUnreserved?_append hs, hslash]
  cases decodeUnreserved? s with
  | none =>
    refine ⟨encode isAddress t, ?_⟩
    simp only [Option.bind_none]
    rw [encode_append, encode_singleton (by decide)]
  | some front =>
    refine ⟨encode (fun c => isAddress c || c = '%') v, ?_⟩
    simp only [Option.bind_some, Option.map_some]
    rw [encode_append, encode_singleton (by decide)]

theorem finish_append_of_all (hs : ∀ c ∈ s, isAddress c = true ∧ c ≠ '%') (t : Text) :
    finish (s ++ t) = s ++ finish t := by
  have hmark : CodePoint.scalar '%' ∉ s := fun h => (hs _ h).2 rfl
  unfold finish
  rw [decodeUnreserved?_append_of_not_mem hmark]
  cases decodeUnreserved? t with
  | none => rw [Option.map_none, encode_append, encode_of_all fun c hc => (hs c hc).1]
  | some u =>
    rw [Option.map_some, encode_append]
    simp only
    rw [encode_append, encode_of_all]
    intro c hc
    simp [(hs c hc).1]

end PullGate.Percent
