import Mathlib.Data.List.TakeWhile
import PullGate.Proofs.Address.Prepared
import PullGate.Proofs.Address.Recode

/-! The marks between the parts of an address.  A query, a fragment and a path begin at marks of
their own; so a front without marks goes in front of all of them, and an authority, which has none,
keeps none when it is normalized or finished. -/

namespace PullGate.Url

variable {s t p rest : Text} {idna : Idna}

/-! ### Query and fragment -/

/-- Neither a query nor a fragment begins in the text. -/
def Unmarked (t : Text) : Prop := CodePoint.scalar '?' ∉ t ∧ CodePoint.scalar '#' ∉ t

theorem Unmarked.append (hs : Unmarked s) (ht : Unmarked t) : Unmarked (s ++ t) := by
  unfold Unmarked at *
  simp [hs, ht]

theorem cut?_append_left {mark : CodePoint} (h : mark ∉ s) (t : Text) :
    Text.cut? mark (s ++ t) = (Text.cut? mark t).map fun (a, b) => (s ++ a, b) := by
  rw [Text.cut?_append, Text.cut?_eq_none.mpr h]

theorem splitFragment_append_left (h : CodePoint.scalar '#' ∉ s) (t : Text) :
    splitFragment (s ++ t) = (s ++ (splitFragment t).1, (splitFragment t).2) := by
  unfold splitFragment
  rw [cut?_append_left h]
  cases Text.cut? '#' t <;> rfl

theorem splitQuery_append_left (h : CodePoint.scalar '?' ∉ s) (t : Text) :
    splitQuery (s ++ t) = (s ++ (splitQuery t).1, (splitQuery t).2) := by
  unfold splitQuery
  rw [cut?_append_left h]
  cases Text.cut? '?' t <;> rfl

theorem strip_append_left (hs : Unmarked s) (t : Text) : strip (s ++ t) = s ++ strip t := by
  unfold strip
  rw [splitFragment_append_left hs.2, splitQuery_append_left hs.1]

theorem strip_unmarked (h : Unmarked t) : strip t = t := by
  have hstrip := strip_append_left h []
  rwa [List.append_nil, show strip [] = [] from rfl, List.append_nil] at hstrip

/-- The query of an address, if it has one. -/
def query? (url : Text) : Option Text := (splitQuery (splitFragment url).1).2

theorem query?_append_left (hs : Unmarked s) (t : Text) : query? (s ++ t) = query? t := by
  unfold query?
  rw [splitFragment_append_left hs.2, splitQuery_append_left hs.1]

theorem query?_unmarked (h : Unmarked t) : query? t = none := by
  have hquery := query?_append_left h []
  rwa [List.append_nil] at hquery

/-! ### Scheme, authority and path -/

/-- What ends an authority. -/
def isDelimiter (c : CodePoint) : Bool := c = '\\' || c = '/' || c = '?' || c = '#'

/-- The path of an address. -/
def path (url : Text) : Text := (splitAuthority (strip url)).2.2

theorem upTo_append_slash (stop : CodePoint → Bool) (hstop : stop '/' = true) (t p : Text) :
    upTo stop (t ++ CodePoint.scalar '/' :: p) =
      ((upTo stop t).1, (upTo stop t).2 ++ CodePoint.scalar '/' :: p) := by
  refine Prod.ext (upTo_append stop hstop t p) ?_
  simp only [upTo, List.span_eq_takeWhile_dropWhile]
  rw [List.dropWhile_append]
  split
  · next hnil =>
    rw [List.isEmpty_iff.mp hnil, List.dropWhile_cons_of_neg (by simp [hstop])]
    rfl
  · rfl

theorem splitAuthority_front {scheme : Text}
    (h : splitScheme? isSchemeChar t =
      some (scheme, CodePoint.scalar '/' :: CodePoint.scalar '/' :: rest)) (p : Text) :
    splitAuthority (t ++ CodePoint.scalar '/' :: p) =
      (some scheme, (upTo isDelimiter rest).1,
        (upTo isDelimiter rest).2 ++ CodePoint.scalar '/' :: p) := by
  unfold splitAuthority
  rw [splitScheme?_append (by decide), h]
  show (some scheme, (upTo isDelimiter (rest ++ CodePoint.scalar '/' :: p)).1,
    (upTo isDelimiter (rest ++ CodePoint.scalar '/' :: p)).2) = _
  rw [upTo_append_slash isDelimiter rfl]

theorem parse?_eq_assemble (url : Text) : parse? idna url =
    assemble idna (site (strip (markAuthority url))).1 (site (strip (markAuthority url))).2
      (path (markAuthority url)) (query? (markAuthority url))
      (splitFragment (markAuthority url)).2 := rfl

theorem markAuthority_front {cut : Text × Text} (h : splitScheme? isSchemeStart t = some cut)
    (p : Text) :
    markAuthority (t ++ CodePoint.scalar '/' :: p) = t ++ CodePoint.scalar '/' :: p := by
  unfold markAuthority
  rw [splitScheme?_append (by decide), h]
  simp

theorem unmarked_slash : Unmarked [CodePoint.scalar '/'] := ⟨by decide, by decide⟩

theorem strip_front (h : Unmarked t) (p : Text) :
    strip (t ++ CodePoint.scalar '/' :: p) = t ++ CodePoint.scalar '/' :: strip p := by
  have hstrip := strip_append_left (h.append unmarked_slash) p
  simpa using hstrip

theorem isSchemeChar_of_isSchemeStart {cut : Text × Text}
    (h : splitScheme? isSchemeStart t = some cut) : splitScheme? isSchemeChar t = some cut :=
  splitScheme?_mono (fun c hc => by simp [isSchemeChar, hc]) h

/-- What an address behind a front is parsed into. -/
theorem parse?_front {scheme : Text} (hmarks : Unmarked t)
    (h : splitScheme? isSchemeStart t =
      some (scheme, CodePoint.scalar '/' :: CodePoint.scalar '/' :: rest)) (p : Text) :
    parse? idna (t ++ CodePoint.scalar '/' :: p) =
      assemble idna (some scheme) (upTo isDelimiter rest).1
        ((upTo isDelimiter rest).2 ++ CodePoint.scalar '/' :: strip p) (query? p)
        (splitFragment p).2 := by
  have hfront : Unmarked (t ++ [CodePoint.scalar '/']) := hmarks.append unmarked_slash
  have hassoc : t ++ CodePoint.scalar '/' :: p = t ++ [CodePoint.scalar '/'] ++ p := by simp
  rw [parse?_eq_assemble, markAuthority_front h, path, site, strip_front hmarks,
    splitAuthority_front (isSchemeChar_of_isSchemeStart h), hassoc, query?_append_left hfront,
    splitFragment_append_left hfront.2]

/-! ### Delimiters -/

/-- No character of the text ends an authority. -/
def Undelimited (t : Text) : Prop := ∀ c ∈ t, isDelimiter c = false

/-- A class of characters that leaves out all four delimiters has none in it. -/
theorem isDelimiter_eq_false {keep : CodePoint → Bool} {c : CodePoint}
    (hkeep : (Text.ofString "\\/?#").any keep = false) (h : keep c = true) :
    isDelimiter c = false := by
  rw [Bool.eq_false_iff]
  intro hc
  have hmem : c ∈ Text.ofString "\\/?#" := by simpa [isDelimiter, Text.ofString, or_assoc] using hc
  rw [List.any_eq_true.mpr ⟨c, hmem, h⟩] at hkeep
  cases hkeep

theorem isDelimiter_isUnreserved {c : CodePoint} (h : Percent.isUnreserved c = true) :
    isDelimiter c = false := isDelimiter_eq_false (by decide) h

theorem isDelimiter_isUserInfo {c : CodePoint} (h : Percent.isUserInfo c = true) :
    isDelimiter c = false := isDelimiter_eq_false (by decide) h

theorem isDelimiter_lowerAscii {c : CodePoint} (h : isDelimiter c = false) :
    isDelimiter c.lowerAscii = false := by
  rcases Percent.lowerAscii_cases c with ⟨hlow, hhigh, hnat⟩ | hsame
  · apply isDelimiter_isUnreserved
    simp only [Percent.isUnreserved, CodePoint.isAlphaAscii, CodePoint.isLowerAscii, hnat]
    simp
    omega
  · rwa [hsame]

namespace Undelimited

theorem append (hs : Undelimited s) (ht : Undelimited t) : Undelimited (s ++ t) :=
  fun c hc => (List.mem_append.mp hc).elim (hs c) (ht c)

theorem of_subset (ht : Undelimited t) (h : s ⊆ t) : Undelimited s := fun c hc => ht c (h hc)

theorem lowerAscii (h : Undelimited t) : Undelimited (Text.lowerAscii t) := by
  intro c hc
  obtain ⟨d, hd, rfl⟩ := List.mem_map.mp hc
  exact isDelimiter_lowerAscii (h d hd)

theorem normalize {plain : CodePoint → Bool} (h : ∀ c, plain c = true → isDelimiter c = false)
    (t : Text) : Undelimited (Percent.normalize plain t) := by
  intro c hc
  rcases Percent.mem_normalize hc with hplain | rfl | hhex
  · exact h c hplain
  · rfl
  · exact isDelimiter_isUnreserved (isUnreserved_of_isHexDigit hhex)

theorem recode (h : Undelimited t) (decodes : Bool) : Undelimited (Percent.recode decodes t) := by
  intro c hc
  rcases Percent.mem_recode hc with hc | hunreserved | rfl
  · exact h c hc
  · exact isDelimiter_isUnreserved hunreserved
  · rfl

theorem natDigits (n : Nat) (h : Undelimited t) : Undelimited (Text.natDigits n t) := by
  have hdigit : ∀ d < 10, isDelimiter (CodePoint.ofDigit d) = false := by decide
  induction n, t using Text.natDigits.induct with
  | case1 n t hn =>
    rw [Text.natDigits, if_pos hn]
    exact List.forall_mem_cons.mpr ⟨hdigit n hn, h⟩
  | case2 n t hn ih =>
    rw [Text.natDigits, if_neg hn]
    exact ih (List.forall_mem_cons.mpr ⟨hdigit _ (Nat.mod_lt n (by decide)), h⟩)

end Undelimited

theorem prefix_upTo (stop : CodePoint → Bool) (t : Text) : (upTo stop t).1 <+: t := by
  rw [upTo, List.span_eq_takeWhile_dropWhile]
  exact List.takeWhile_prefix _

theorem upTo_undelimited (t : Text) : Undelimited (upTo isDelimiter t).1 := by
  intro c hc
  rw [upTo, List.span_eq_takeWhile_dropWhile] at hc
  simpa using List.mem_takeWhile_imp hc

theorem userHost_subset (authority : Text) : (userHost authority).2 ⊆ authority := by
  unfold userHost
  cases hcut : Text.cutLast? '@' authority with
  | none => exact List.Subset.refl _
  | some cut =>
    obtain ⟨found, hfound, rfl⟩ := Option.map_eq_some_iff.mp hcut
    obtain ⟨heq, -⟩ := Text.cut?_eq_some hfound
    intro c hc
    rw [← List.mem_reverse, heq]
    exact List.mem_append_left _ (List.mem_reverse.mp hc)

theorem normalZone_undelimited {zone z : Text} (h : normalZone zone = some z) : Undelimited z := by
  unfold normalZone at h
  simp only at h
  rw [Option.ite_none_left_eq_some, Option.some.injEq] at h
  obtain ⟨-, rfl⟩ := h
  exact .normalize (fun _ => isDelimiter_isUnreserved) _

theorem host?_undelimited {host : Text} {port : Option Nat} (ht : Undelimited t)
    (h : host? t = some (host, port)) : Undelimited host := by
  have hbracket : Undelimited (Text.ofString "]") := by
    intro c hc
    rw [List.mem_singleton.mp hc]
    rfl
  have hopen : Undelimited [CodePoint.scalar '['] := by
    intro c hc
    rw [List.mem_singleton.mp hc]
    rfl
  rcases host?_cases h with ⟨t, rest, rfl, hbracketed⟩ | ⟨rfl, -⟩
  · unfold bracketed? at hbracketed
    simp only [Option.bind_eq_bind, Option.bind_eq_some_iff] at hbracketed
    obtain ⟨⟨inner, after⟩, hinner, hbracketed⟩ := hbracketed
    obtain ⟨rfl, -⟩ := Text.cut?_eq_some hinner
    have hin : Undelimited (CodePoint.scalar '[' :: inner) :=
      ht.of_subset (List.cons_subset_cons _ (List.subset_append_left _ _))
    cases hcut : Text.cut? '%' inner with
    | none =>
      rw [hcut] at hbracketed
      simp only [Option.ite_none_right_eq_some, Option.some.injEq, Prod.mk.injEq] at hbracketed
      obtain ⟨-, rfl, -⟩ := hbracketed
      exact hin.append hbracket
    | some cut =>
      rw [hcut] at hbracketed
      simp only [Option.bind_eq_some_iff, Option.ite_none_right_eq_some, Option.some.injEq,
        Prod.mk.injEq] at hbracketed
      obtain ⟨z, hz, -, rfl, -⟩ := hbracketed
      obtain ⟨rfl, -⟩ := Text.cut?_eq_some hcut
      have haddress : Undelimited cut.1 := hin.of_subset fun c hc => by simp [hc]
      have hzone : Undelimited (CodePoint.scalar '%' :: z) :=
        List.forall_mem_cons.mpr ⟨rfl, normalZone_undelimited hz⟩
      simpa using (hopen.append haddress.lowerAscii).append (hzone.append hbracket)
  · exact ht.of_subset (prefix_upTo _ _).subset

theorem keeps_undelimited : Idna.Keeps Undelimited where
  lower _ := Undelimited.lowerAscii
  plain t h c hc := by
    refine isDelimiter_isUnreserved ?_
    have hplain := h c hc
    simp only [Bool.or_eq_true] at hplain
    rcases hplain with (hlower | hdigit) | hhyphen
    · simp [Percent.isUnreserved, CodePoint.isAlphaAscii, hlower]
    · simp [Percent.isUnreserved, hdigit]
    · simp [Percent.isUnreserved, hhyphen]
  label _ ht _ hlabel _ hc := ht _ (Text.mem_of_mem_split hlabel hc)
  join labels h := by
    have hpoint : Undelimited (Text.ofString ".") := by
      intro c hc
      rw [List.mem_singleton.mp hc]
      rfl
    exact Text.join_induction (List.forall_mem_nil _)
      (fun _ _ ha hb => (ha.append hpoint).append hb) h

/-- The host of an address and its port, as they are written. -/
def hostPort (url : Text) : Text := (userHost (splitAuthority url).2.1).2

/-- There is no host in brackets, or no percent sign that could mark a zone in them. -/
def Unscoped (t : Text) : Prop := CodePoint.scalar '[' ∉ t ∨ CodePoint.scalar '%' ∉ t

theorem bracketed?_escaped {host : Text} (ht : CodePoint.scalar '%' ∉ t)
    (h : bracketed? t = some (host, rest)) : Percent.Escaped host := by
  unfold bracketed? at h
  simp only [Option.bind_eq_bind, Option.bind_eq_some_iff] at h
  obtain ⟨⟨inner, after⟩, hinner, h⟩ := h
  obtain ⟨rfl, -⟩ := Text.cut?_eq_some hinner
  rw [List.mem_append, not_or] at ht
  rw [Text.cut?_eq_none.mpr ht.1] at h
  simp only [Option.ite_none_right_eq_some, Option.some.injEq, Prod.mk.injEq] at h
  obtain ⟨-, rfl, -⟩ := h
  apply Percent.Escaped.of_not_mem
  simp [ht.1, Text.ofString]

/-- Only the mark of a zone is no escape. -/
theorem host?_escaped {host : Text} {port : Option Nat} (ht : Unscoped t)
    (h : host? t = some (host, port)) : Percent.Escaped host := by
  rcases host?_cases h with ⟨inner, rest, rfl, hbracketed⟩ | ⟨-, hescaped⟩
  · have hmark := ht.resolve_left fun hnot => hnot (.head _)
    exact bracketed?_escaped (fun hmem => hmark (.tail _ hmem)) hbracketed
  · exact hescaped

end PullGate.Url
