import PullGate.Http.Url
import PullGate.Proofs.Address.Percent

/-! Hosts.  A host is put into normal form as a whole or label by label; what holds of its labels
and of those that are written in their place, and is kept in lower case, holds of the result. -/

namespace PullGate

theorem exists_mem_of_mapM {α β : Type} {f : α → Option β} {xs : List α} {ys : List β} {y : β}
    (h : xs.mapM f = some ys) (hy : y ∈ ys) : ∃ x ∈ xs, f x = some y := by
  induction xs generalizing ys with
  | nil =>
    obtain rfl := Option.some.inj h
    cases hy
  | cons x xs ih =>
    rw [List.mapM_cons] at h
    obtain ⟨z, hz, h⟩ := Option.bind_eq_some_iff.mp h
    obtain ⟨zs, hzs, h⟩ := Option.bind_eq_some_iff.mp h
    obtain rfl := Option.some.inj h
    rcases List.mem_cons.mp hy with rfl | hy
    · exact ⟨x, .head _, hz⟩
    · obtain ⟨x', hx', hf⟩ := ih hzs hy
      exact ⟨x', .tail _ hx', hf⟩

namespace Url

variable {t : Text} {idna : Idna}

/-! ### Escapes in a host -/

theorem isUnreserved_of_isHexDigit {c : CodePoint} (h : c.isHexDigit = true) :
    Percent.isUnreserved c = true := by
  rw [Percent.isHexDigit_iff] at h
  simp only [Percent.isUnreserved, CodePoint.isAlphaAscii, CodePoint.isUpperAscii,
    CodePoint.isLowerAscii, CodePoint.isDigit, Bool.or_eq_true, Bool.and_eq_true,
    decide_eq_true_iff]
  omega

theorem normalZone_escaped {zone z : Text} (h : normalZone zone = some z) :
    Percent.Escaped z ∧ z ≠ [] := by
  unfold normalZone at h
  simp only at h
  rw [Option.ite_none_left_eq_some, Option.some.injEq] at h
  obtain ⟨hvalid, rfl⟩ := h
  refine ⟨Percent.normalize_escaped (by decide) (fun _ => isUnreserved_of_isHexDigit) _,
    Percent.normalize_ne_nil _ fun hnil => hvalid ?_⟩
  rw [hnil]
  rfl

theorem bracketed?_closed {host rest : Text} (h : bracketed? t = some (host, rest)) :
    Percent.Closed host := by
  unfold bracketed? at h
  simp only [Option.bind_eq_bind, Option.bind_eq_some_iff] at h
  obtain ⟨⟨inner, after⟩, -, h⟩ := h
  have hopen : CodePoint.scalar '%' ∉ [CodePoint.scalar '['] := by decide
  have hclose : CodePoint.scalar '%' ∉ Text.ofString "]" := by decide
  cases hcut : Text.cut? '%' inner with
  | none =>
    rw [hcut] at h
    simp only [Option.ite_none_right_eq_some, Option.some.injEq, Prod.mk.injEq] at h
    obtain ⟨-, rfl, -⟩ := h
    have hinner := Text.cut?_eq_none.mp hcut
    refine (Percent.Escaped.of_not_mem ?_).closed
    simpa [hinner] using hclose
  | some cut =>
    rw [hcut] at h
    simp only [Option.bind_eq_some_iff, Option.ite_none_right_eq_some, Option.some.injEq,
      Prod.mk.injEq] at h
    obtain ⟨z, hz, -, rfl, -⟩ := h
    obtain ⟨hescaped, hne⟩ := normalZone_escaped hz
    have haddress := Percent.mark_not_mem_lowerAscii (Text.cut?_eq_some hcut).2
    have hfront : Percent.Closed (CodePoint.scalar '[' :: Text.lowerAscii cut.1) :=
      (Percent.Escaped.of_not_mem (by simpa using haddress)).closed
    have hlong : 2 ≤ (z ++ Text.ofString "]").length := by
      have hpos := List.length_pos_iff.mpr hne
      rw [List.length_append]
      change 2 ≤ z.length + 1
      omega
    have hback := (hescaped.append (.of_not_mem hclose)).closed.mark hlong
    simpa using hfront.append hback

theorem head?_bracketed? {host rest : Text} (h : bracketed? t = some (host, rest)) :
    host.head? = some (CodePoint.scalar '[') := by
  unfold bracketed? at h
  simp only [Option.bind_eq_bind, Option.bind_eq_some_iff] at h
  obtain ⟨⟨inner, after⟩, -, h⟩ := h
  split at h
  · simp only [Option.ite_none_right_eq_some, Option.some.injEq, Prod.mk.injEq] at h
    obtain ⟨-, rfl, -⟩ := h
    rfl
  · simp only [Option.bind_eq_some_iff, Option.ite_none_right_eq_some, Option.some.injEq,
      Prod.mk.injEq] at h
    obtain ⟨zone, -, -, rfl, -⟩ := h
    rfl

theorem isName_escaped (h : isName t = true) : Percent.Escaped t := by
  unfold isName at h
  rw [Bool.and_eq_true] at h
  exact Percent.wellEscaped_iff.mp h.2

theorem host?_cases {host : Text} {port : Option Nat} (h : host? t = some (host, port)) :
    (∃ inner rest, t = CodePoint.scalar '[' :: inner ∧ bracketed? inner = some (host, rest)) ∨
      host = (upTo (· = ':') t).1 ∧ Percent.Escaped host := by
  unfold host? at h
  split at h
  · next inner =>
    simp only [Option.bind_eq_bind, Option.bind_eq_some_iff, Option.some.injEq, Prod.mk.injEq] at h
    obtain ⟨⟨host', rest⟩, hbracketed, port', -, rfl, -⟩ := h
    exact .inl ⟨inner, rest, rfl, hbracketed⟩
  · simp only [Option.bind_eq_bind, Option.bind_eq_some_iff, Option.ite_none_right_eq_some,
      Option.some.injEq, Prod.mk.injEq] at h
    obtain ⟨port', -, hname, rfl, -⟩ := h
    exact .inr ⟨rfl, isName_escaped hname⟩

theorem isHexDigit_lowerAscii {c : CodePoint} (h : c.isHexDigit = true) :
    c.lowerAscii.isHexDigit = true := by
  rcases Percent.lowerAscii_cases c with ⟨hlow, hhigh, hnat⟩ | hsame
  · rw [Percent.isHexDigit_iff] at h ⊢
    omega
  · rwa [hsame]

theorem escaped_lowerAscii (h : Percent.Escaped t) : Percent.Escaped (Text.lowerAscii t) := by
  intro a b hab
  obtain ⟨a', l, rfl, -, hl⟩ := List.map_eq_append_iff.mp hab
  obtain ⟨c, b', rfl, hc, rfl⟩ := List.map_eq_cons_iff.mp hl
  obtain rfl := Percent.lowerAscii_eq_mark.mp hc
  obtain ⟨x, y, r, rfl, hx, hy⟩ := h a' b' rfl
  exact ⟨_, _, _, rfl, isHexDigit_lowerAscii hx, isHexDigit_lowerAscii hy⟩

/-! ### Normal form -/

namespace Idna

/-- What can be told of a host by its labels, and does not depend on the case of letters. -/
structure Keeps (P : Text → Prop) : Prop where
  lower : ∀ t, P t → P (Text.lowerAscii t)
  plain : ∀ t : Text, (∀ c ∈ t, (c.isLowerAscii || c.isDigit || c = '-') = true) → P t
  label : ∀ t, P t → ∀ label ∈ Text.split '.' t, P label
  join : ∀ labels, (∀ label ∈ labels, P label) → P (Text.join "." labels)

variable {P : Text → Prop} {host written : Text}

theorem Keeps.write? (h : Keeps P) {label : Text} (hlabel : P label)
    (hw : idna.write? label = some written) : P written := by
  unfold Idna.write? at hw
  split at hw
  · obtain rfl := Option.some.inj hw
    exact h.lower label hlabel
  · exact h.plain written (idna.plain label written hw)

theorem Keeps.host? (h : Keeps P) (hhost : P host) (hw : idna.host? host = some written) :
    P written := by
  unfold Idna.host? at hw
  split at hw
  · obtain rfl := Option.some.inj hw
    split
    · exact hhost
    · exact h.lower host hhost
  · obtain ⟨labels, hlabels, rfl⟩ := Option.map_eq_some_iff.mp hw
    apply h.join
    intro label hlabel
    obtain ⟨source, hsource, hwrite⟩ := exists_mem_of_mapM hlabels hlabel
    exact h.write? (h.label host hhost source hsource) hwrite

theorem keeps_escaped : Keeps Percent.Escaped where
  lower _ := escaped_lowerAscii
  plain _ h := .of_not_mem fun hmem => absurd (h _ hmem) (by decide)
  label t ht label hlabel := by
    obtain ⟨before, after, rfl, hafter⟩ := Text.exists_of_mem_split hlabel
    refine ht.of_append.of_append_left fun c hc => ?_
    rcases hafter with rfl | ⟨rest, rfl⟩
    · cases hc
    · obtain rfl := Option.some.inj hc
      decide
  join _ := Percent.join_escaped (.of_not_mem (by decide))

theorem closed_host? {port : Option Nat} (h : Url.host? t = some (host, port))
    (hw : idna.host? host = some written) : Percent.Closed written := by
  rcases host?_cases h with ⟨inner, rest, -, hbracketed⟩ | ⟨-, hescaped⟩
  · have hclosed := bracketed?_closed hbracketed
    unfold Idna.host? at hw
    rw [if_pos (head?_bracketed? hbracketed)] at hw
    obtain rfl := Option.some.inj hw
    split
    · exact hclosed
    · exact hclosed.lowerAscii
  · exact (keeps_escaped.host? hescaped hw).closed

end Idna

end Url

end PullGate
