import PullGate.Proofs.Address.Site

/-! Pieces of an address in the form in which they are sent.  A piece is finished on its own, as
long as each percent sign of the others opens an escape; and neither normalizing nor finishing puts
in anything but unreserved characters and escapes. -/

namespace PullGate

namespace Percent

variable {s t u : Text} {c : CodePoint} {plain : CodePoint → Bool} {decodes : Bool}

/-! ### What is put in -/

theorem mem_escapeChar {d : CodePoint} (h : c ∈ escapeChar d) :
    c = '%' ∨ c.isHexDigit = true := by
  obtain ⟨b, -, hb⟩ := List.mem_flatMap.mp h
  have hpair := isPair_padHex b.toNat b.toNat_lt
  rw [escape, List.mem_cons] at hb
  generalize (Text.padHex 2 b.toNat).map upperHex = pair at hpair hb
  unfold isPair at hpair
  split at hpair
  · next x y =>
    rw [Bool.and_eq_true] at hpair
    rcases hb with rfl | hb
    · exact .inl rfl
    · rcases List.mem_cons.mp hb with rfl | hb
      · exact .inr hpair.1
      · rw [List.mem_singleton.mp hb]
        exact .inr hpair.2
  · cases hpair

theorem mem_encode (h : c ∈ encode plain t) :
    (c ∈ t ∧ plain c = true) ∨ c = '%' ∨ c.isHexDigit = true := by
  obtain ⟨d, hd, hc⟩ := List.mem_flatMap.mp h
  split at hc
  · next hplain =>
    rw [List.mem_singleton.mp hc]
    exact .inl ⟨hd, hplain⟩
  · exact .inr (mem_escapeChar hc)

theorem mem_normalize (h : c ∈ normalize plain t) :
    plain c = true ∨ c = '%' ∨ c.isHexDigit = true := by
  rcases mem_encode h with ⟨-, hplain⟩ | h
  · rw [Bool.or_eq_true, Bool.and_eq_true, decide_eq_true_iff] at hplain
    rcases hplain with hplain | ⟨-, hmark⟩
    · exact .inl hplain
    · exact .inr (.inl hmark)
  · exact .inr h

theorem mem_decodePart {part : Text} (hu : decodePart part = some u) (h : c ∈ u) :
    c ∈ part ∨ isUnreserved c = true ∨ c = '%' := by
  have hmarked : ∀ {rest : Text}, c ∈ CodePoint.scalar '%' :: rest →
      c ∈ rest ∨ isUnreserved c = true ∨ c = '%' := by
    intro rest hc
    rcases List.mem_cons.mp hc with rfl | hc
    · exact .inr (.inr rfl)
    · exact .inl hc
  unfold decodePart at hu
  split at hu
  · next a b rest =>
    split at hu
    · split at hu
      · dsimp only at hu
        split at hu
        · next hunreserved =>
          obtain rfl := Option.some.inj hu
          rcases List.mem_cons.mp h with rfl | h
          · exact .inr (.inl hunreserved)
          · exact .inl (.tail _ (.tail _ h))
        · obtain rfl := Option.some.inj hu
          exact hmarked h
      · cases hu
    · obtain rfl := Option.some.inj hu
      exact hmarked h
  · obtain rfl := Option.some.inj hu
    exact hmarked h

theorem mem_decodeUnreserved? (hu : decodeUnreserved? t = some u) (h : c ∈ u) :
    c ∈ t ∨ isUnreserved c = true ∨ c = '%' := by
  obtain ⟨first, parts, hsplit⟩ := Text.exists_split '%' t
  simp only [decodeUnreserved?, hsplit, Option.map_eq_some_iff] at hu
  obtain ⟨decoded, hdecoded, rfl⟩ := hu
  rcases List.mem_append.mp h with h | h
  · exact .inl (Text.mem_of_mem_split (hsplit ▸ List.mem_cons_self) h)
  · obtain ⟨piece, hpiece, hc⟩ := List.mem_flatten.mp h
    obtain ⟨part, hpart, hpart'⟩ := exists_mem_of_mapM hdecoded hpiece
    rcases mem_decodePart hpart' hc with hc | hc
    · exact .inl (Text.mem_of_mem_split (hsplit ▸ List.mem_cons_of_mem _ hpart) hc)
    · exact .inr hc

/-! ### Pieces -/

/-- A piece of an address in the form in which it is sent: its escapes of unreserved characters are
decoded, unless a false escape in another piece keeps the whole address from it. -/
def recode (decodes : Bool) (t : Text) : Text := if decodes then finish t else encode isAddress t

theorem finish_append (hs : Closed s) (ht : Escaped t) :
    finish (s ++ t) = finish s ++ recode (decodeUnreserved? s).isSome t := by
  obtain ⟨v, hv⟩ := ht.exists_decoded
  unfold recode finish
  rw [decodeUnreserved?_append hs, hv]
  cases decodeUnreserved? s with
  | none => exact encode_append isAddress s t
  | some front => exact encode_append _ front v

theorem recode_append (hs : Escaped s) (ht : Escaped t) :
    recode decodes (s ++ t) = recode decodes s ++ recode decodes t := by
  cases decodes with
  | false => exact encode_append isAddress s t
  | true =>
    obtain ⟨v, hv⟩ := hs.exists_decoded
    show finish (s ++ t) = finish s ++ finish t
    rw [finish_append hs.closed ht, hv]
    rfl

theorem recode_of_all (h : ∀ c ∈ t, isAddress c = true ∧ c ≠ '%') : recode decodes t = t := by
  cases decodes with
  | false => exact encode_of_all fun c hc => (h c hc).1
  | true =>
    have hfinish := finish_append_of_all h []
    rwa [List.append_nil, show finish [] = [] from rfl, List.append_nil] at hfinish

theorem mem_recode (h : c ∈ recode decodes t) : c ∈ t ∨ isUnreserved c = true ∨ c = '%' := by
  have hencoded : ∀ {plain : CodePoint → Bool} {u : Text}, c ∈ encode plain u →
      c ∈ u ∨ isUnreserved c = true ∨ c = '%' := by
    intro plain u hc
    rcases mem_encode hc with ⟨hc, -⟩ | rfl | hhex
    · exact .inl hc
    · exact .inr (.inr rfl)
    · exact .inr (.inl (Url.isUnreserved_of_isHexDigit hhex))
  unfold recode finish at h
  split at h
  · split at h
    · next u hu =>
      rcases hencoded h with hc | hc
      · exact mem_decodeUnreserved? hu hc
      · exact .inr hc
    · exact hencoded h
  · exact hencoded h

/-! ### Normalizing in pieces -/

theorem upperEscapes_of_not_mem (h : CodePoint.scalar '%' ∉ t) : upperEscapes t = t := by
  fun_induction upperEscapes t
  case case1 => rfl
  case case2 => simp at h
  case case3 => simp at h
  case case4 c t _ ih => rw [ih fun ht => h (.tail _ ht)]

theorem upperEscapes_append_left (hs : CodePoint.scalar '%' ∉ s) (t : Text) :
    upperEscapes (s ++ t) = s ++ upperEscapes t := by
  induction s with
  | nil => rfl
  | cons c s ih =>
    rw [List.mem_cons, not_or] at hs
    rw [List.cons_append, upperEscapes, ih hs.2, List.cons_append]
    rintro a b rest rfl
    exact absurd rfl hs.1

theorem upperEscapes_mark (h : ∀ a b r, t = a :: b :: r →
    a.isHexDigit = false ∨ b.isHexDigit = false) :
    upperEscapes (CodePoint.scalar '%' :: t) = CodePoint.scalar '%' :: upperEscapes t := by
  match t, h with
  | [], _ => rfl
  | [_], _ => rfl
  | a :: b :: r, h =>
    rw [upperEscapes, if_neg]
    rcases h a b r rfl with ha | hb
    · simp [ha]
    · simp [hb]

theorem isHexDigit_slash : CodePoint.isHexDigit '/' = false := by decide

/-- A slash ends an escape before it is complete. -/
theorem upperEscapes_append_slash (t : Text) (hu : CodePoint.scalar '%' ∉ u) :
    upperEscapes (t ++ CodePoint.scalar '/' :: u) =
      upperEscapes t ++ CodePoint.scalar '/' :: u := by
  induction t using upperEscapes.induct with
  | case1 => exact upperEscapes_of_not_mem (by simpa using hu)
  | case2 x y t hxy ih =>
    simp only [List.cons_append]
    rw [upperEscapes, if_pos hxy, ih, upperEscapes, if_pos hxy]
    rfl
  | case3 x y t hxy ih =>
    simp only [List.cons_append] at ih ⊢
    rw [upperEscapes, if_neg hxy, ih, upperEscapes, if_neg hxy]
    rfl
  | case4 c t hc ih =>
    have hright : upperEscapes (c :: t) = c :: upperEscapes t := by
      rw [upperEscapes]
      exact hc
    rw [List.cons_append, hright, List.cons_append, ← ih]
    by_cases hmark : c = CodePoint.scalar '%'
    · subst hmark
      apply upperEscapes_mark
      intro a b r heq
      cases t with
      | nil =>
        obtain ⟨rfl, -⟩ := List.cons.inj heq
        exact .inl isHexDigit_slash
      | cons x t =>
        cases t with
        | nil =>
          obtain ⟨rfl, -⟩ := List.cons.inj (List.cons.inj heq).2
          exact .inr isHexDigit_slash
        | cons y t => exact absurd rfl (hc x y t rfl)
    · rw [upperEscapes]
      rintro a b r rfl
      exact absurd rfl hmark

theorem Escaped.of_append_slash (h : Escaped (t ++ CodePoint.scalar '/' :: u)) : Escaped t := by
  rintro a b rfl
  obtain ⟨x, y, r, heq, hx, hy⟩ := h a (b ++ CodePoint.scalar '/' :: u) (by simp)
  match b with
  | [] =>
    obtain ⟨rfl, -⟩ := List.cons.inj heq
    rw [isHexDigit_slash] at hx
    cases hx
  | [z] =>
    obtain ⟨rfl, -⟩ := List.cons.inj (List.cons.inj heq).2
    rw [isHexDigit_slash] at hy
    cases hy
  | z :: z' :: b =>
    simp only [List.cons_append, List.cons.injEq] at heq
    obtain ⟨rfl, rfl, -⟩ := heq
    exact ⟨z, z', b, rfl, hx, hy⟩

theorem wellEscaped_append_left (hs : CodePoint.scalar '%' ∉ s) (t : Text) :
    wellEscaped (s ++ t) = wellEscaped t := by
  rw [Bool.eq_iff_iff, wellEscaped_iff, wellEscaped_iff]
  exact ⟨Escaped.of_append, (Escaped.of_not_mem hs).append⟩

theorem wellEscaped_append_slash (t : Text) (hu : CodePoint.scalar '%' ∉ u) :
    wellEscaped (t ++ CodePoint.scalar '/' :: u) = wellEscaped t := by
  have hplain : Escaped (CodePoint.scalar '/' :: u) := .of_not_mem (by simpa using hu)
  rw [Bool.eq_iff_iff, wellEscaped_iff, wellEscaped_iff]
  exact ⟨Escaped.of_append_slash, fun h => h.append hplain⟩

section Normalize

variable (hmark : plain '%' = false)
include hmark

theorem mark_not_mem_of_all (h : ∀ c ∈ t, plain c = true) : CodePoint.scalar '%' ∉ t := by
  intro hmem
  rw [h _ hmem] at hmark
  cases hmark

theorem normalize_append_left (hs : ∀ c ∈ s, plain c = true) (t : Text) :
    normalize plain (s ++ t) = s ++ normalize plain t := by
  have hnot := mark_not_mem_of_all hmark hs
  unfold normalize
  rw [upperEscapes_append_left hnot, wellEscaped_append_left hnot, encode_append]
  dsimp only
  rw [encode_of_all]
  intro c hc
  rw [hs c hc, Bool.true_or]

theorem normalize_append_slash (t : Text) (hslash : plain '/' = true)
    (hu : ∀ c ∈ u, plain c = true) : normalize plain (t ++ CodePoint.scalar '/' :: u) =
      normalize plain t ++ CodePoint.scalar '/' :: u := by
  have hnot := mark_not_mem_of_all hmark hu
  have hall : ∀ c ∈ CodePoint.scalar '/' :: u, plain c = true :=
    List.forall_mem_cons.mpr ⟨hslash, hu⟩
  unfold normalize
  rw [upperEscapes_append_slash t hnot, wellEscaped_append_slash t hnot, encode_append]
  dsimp only
  rw [encode_of_all (t := CodePoint.scalar '/' :: u)]
  intro c hc
  rw [hall c hc, Bool.true_or]

end Normalize

end Percent

end PullGate
