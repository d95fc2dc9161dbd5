import PullGate.Proofs.Address.Site

/-! Prepared addresses.  An address that is prepared keeps its site in front of its path; so two
addresses that differ behind a common front are prepared alike up to there, and what decides whether
and with which credentials they are sent is the same. -/

namespace PullGate.Url

variable {t : Text} {idna : Idna}

/-! ### Schemes -/

theorem before_slash (mark : CodePoint) (hmark : mark ≠ CodePoint.scalar '/') (t : Text) :
    ∃ r, before mark (CodePoint.scalar '/' :: t) = CodePoint.scalar '/' :: r := by
  unfold before
  rw [Text.cut?, if_neg hmark.symm]
  cases Text.cut? mark t with
  | none => exact ⟨t, rfl⟩
  | some cut => exact ⟨cut.1, rfl⟩

theorem site_slash (t : Text) : (site (strip (CodePoint.scalar '/' :: t))).1 = none := by
  rw [strip_eq_before]
  obtain ⟨r, hr⟩ := before_slash '#' (by decide) t
  obtain ⟨r', hr'⟩ := before_slash '?' (by decide) r
  rw [hr, hr']
  have hslash : CodePoint.isAlphaAscii '/' = false := by decide
  have hscheme : splitScheme? isSchemeChar (CodePoint.scalar '/' :: r') = none := by
    cases h : Text.cut? ':' r' with
    | none => simp [splitScheme?, Text.cut?, h]
    | some cut => simp [splitScheme?, Text.cut?, h, hslash]
  unfold site splitAuthority
  rw [hscheme]
  simp only
  split <;> rfl

theorem splitScheme?_mono {inner outer : CodePoint → Bool}
    (hle : ∀ c, inner c = true → outer c = true) {cut : Text × Text}
    (h : splitScheme? inner t = some cut) : splitScheme? outer t = some cut := by
  unfold splitScheme? at h ⊢
  cases hcut : Text.cut? ':' t with
  | none => simp [hcut] at h
  | some found =>
    obtain ⟨a, b⟩ := found
    cases a with
    | nil => simp [hcut] at h
    | cons c scheme =>
      simp only [hcut, Option.ite_none_right_eq_some, Bool.and_eq_true, List.all_eq_true] at h ⊢
      exact ⟨⟨h.1.1, fun d hd => hle d (h.1.2 d hd)⟩, h.2⟩

/-- The scheme of an address stands at its front, not behind a slash. -/
theorem exists_scheme {p scheme : Text}
    (h : (site (strip (markAuthority (t ++ CodePoint.scalar '/' :: p)))).1 = some scheme) :
    ∃ cut, splitScheme? isSchemeStart t = some cut := by
  cases hs : splitScheme? isSchemeStart t with
  | some cut => exact ⟨cut, rfl⟩
  | none =>
    have hwhole : splitScheme? isSchemeStart (t ++ CodePoint.scalar '/' :: p) = none := by
      rw [splitScheme?_append (by decide), hs]
      rfl
    have hnone : (site (strip (markAuthority (t ++ CodePoint.scalar '/' :: p)))).1 = none := by
      unfold markAuthority
      rw [hwhole]
      split
      · next hhead =>
        cases t with
        | nil => exact site_slash p
        | cons c t =>
          obtain rfl : c = CodePoint.scalar '/' := by simpa using hhead
          exact site_slash _
      · exact site_slash _
    rw [hnone] at h
    cases h

/-- A front of addresses: the scheme in it, if it has one, is not at its very end. -/
def IsFront (t : Text) : Prop :=
  ∀ cut, splitScheme? isSchemeStart t = some cut → 2 ≤ cut.2.length

theorem site_markAuthority {p scheme : Text} (ht : IsFront t)
    (h : (site (strip (markAuthority (t ++ CodePoint.scalar '/' :: p)))).1 = some scheme)
    (p' : Text) : site (strip (markAuthority (t ++ CodePoint.scalar '/' :: p'))) =
      site (strip (markAuthority (t ++ CodePoint.scalar '/' :: p))) := by
  obtain ⟨⟨scheme, rest⟩, hstart⟩ := exists_scheme h
  have hmark : ∀ r, markAuthority (t ++ CodePoint.scalar '/' :: r) =
      t ++ CodePoint.scalar '/' :: r := by
    intro r
    unfold markAuthority
    rw [splitScheme?_append (by decide), hstart]
    simp
  have hchar : splitScheme? isSchemeChar t = some (scheme, rest) :=
    splitScheme?_mono (fun c hc => by simp [isSchemeChar, hc]) hstart
  rw [hmark, hmark]
  exact site_strip_append hchar (ht _ hstart) p' p

/-- Addresses under a common front are parsed alike, if they have a scheme. -/
theorem parse?_sameSite {p scheme : Text} {parts : Parts} (ht : IsFront t)
    (h : parse? idna (t ++ CodePoint.scalar '/' :: p) = some parts)
    (hscheme : parts.scheme = some scheme) (p' : Text) :
    ∃ parts', parse? idna (t ++ CodePoint.scalar '/' :: p') = some parts' ∧
      parts.SameSite parts' := by
  obtain ⟨path, query, fragment, heq⟩ := parse?_eq (t ++ CodePoint.scalar '/' :: p)
  obtain ⟨path', query', fragment', heq'⟩ := parse?_eq (t ++ CodePoint.scalar '/' :: p')
  rw [heq] at h
  have hlower := (assemble_tidy h).1
  rw [hscheme] at hlower
  obtain ⟨named, hnamed, -⟩ := Option.map_eq_some_iff.mp hlower.symm
  rw [heq', site_markAuthority ht hnamed p']
  exact assemble_sameSite h

theorem parse?_tidy {url : Text} {parts : Parts} (h : parse? idna url = some parts)
    (hnormal : isNormalizable parts.scheme = true) : parts.Tidy := by
  obtain ⟨path, query, fragment, heq⟩ := parse?_eq url
  rw [heq] at h
  exact (assemble_tidy h).2 hnormal

def IsLowerScheme (c : CodePoint) : Prop := isSchemeChar c = true ∧ c.lowerAscii = c

theorem isLowerScheme_lowerAscii {c : CodePoint} (h : isSchemeChar c = true) :
    IsLowerScheme c.lowerAscii := by
  rcases Percent.lowerAscii_cases c with ⟨hlow, hhigh, hnat⟩ | hsame
  · constructor
    · simp only [isSchemeChar, isSchemeStart, CodePoint.isAlphaAscii, CodePoint.isLowerAscii, hnat]
      simp
      omega
    · exact (Percent.lowerAscii_cases c.lowerAscii).resolve_left (by omega)
  · rw [hsame]
    exact ⟨h, hsame⟩

theorem IsLowerScheme.isAddress {c : CodePoint} (h : IsLowerScheme c) :
    Percent.isAddress c = true ∧ c ≠ '%' := by
  obtain ⟨h, -⟩ := h
  simp only [isSchemeChar, isSchemeStart, Bool.or_eq_true, decide_eq_true_iff] at h
  constructor
  · rcases h with (((h | h) | h) | h) | h
    · simp [Percent.isAddress, Percent.isQuery, Percent.isPath, Percent.isUserInfo,
        Percent.isUnreserved, h]
    · simp [Percent.isAddress, Percent.isQuery, Percent.isPath, Percent.isUserInfo,
        Percent.isUnreserved, h]
    · subst h
      decide
    · subst h
      decide
    · subst h
      decide
  · rintro rfl
    revert h
    decide

theorem site_scheme {scheme : Text} (h : (site t).1 = some scheme) :
    ∀ c ∈ scheme, isSchemeChar c = true := by
  have hsite : (site t).1 = (splitScheme? isSchemeChar t).map Prod.fst := by
    unfold site splitAuthority
    cases splitScheme? isSchemeChar t with
    | none => simp only; split <;> rfl
    | some cut => simp only; split <;> rfl
  rw [hsite, Option.map_eq_some_iff] at h
  obtain ⟨⟨scheme, rest⟩, hcut, rfl⟩ := h
  unfold splitScheme? at hcut
  cases hcolon : Text.cut? ':' t with
  | none => simp [hcolon] at hcut
  | some found =>
    obtain ⟨a, b⟩ := found
    cases a with
    | nil => simp [hcolon] at hcut
    | cons c inner =>
      simp only [hcolon, Option.ite_none_right_eq_some, Bool.and_eq_true, List.all_eq_true,
        Option.some.injEq, Prod.mk.injEq] at hcut
      obtain ⟨⟨hfirst, hinner⟩, rfl, -⟩ := hcut
      intro d hd
      rcases List.mem_cons.mp hd with rfl | hd
      · simp [isSchemeChar, isSchemeStart, hfirst]
      · exact hinner d hd

theorem parse?_scheme {url scheme : Text} {parts : Parts} (h : parse? idna url = some parts)
    (hscheme : parts.scheme = some scheme) : ∀ c ∈ scheme, IsLowerScheme c := by
  obtain ⟨path, query, fragment, heq⟩ := parse?_eq url
  rw [heq] at h
  have hlower := (assemble_tidy h).1
  rw [hscheme] at hlower
  obtain ⟨named, hnamed, rfl⟩ := Option.map_eq_some_iff.mp hlower.symm
  intro c hc
  obtain ⟨d, hd, rfl⟩ := List.mem_map.mp hc
  exact isLowerScheme_lowerAscii (site_scheme hnamed d hd)

/-! ### Preparing -/

def IsWeb (scheme : Text) : Prop := scheme = "http" ∨ scheme = "https"

theorem isSendable_iff {url : Text} : isSendable url = true ↔
    ∃ scheme rest, IsWeb scheme ∧ Text.lowerAscii url = scheme ++ ("://" ++ rest) := by
  unfold isSendable
  simp only [Bool.or_eq_true, Text.dropPrefix?_isSome]
  constructor
  · rintro (⟨rest, h⟩ | ⟨rest, h⟩)
    · exact ⟨"https", rest, .inr rfl, h.symm⟩
    · exact ⟨"http", rest, .inl rfl, h.symm⟩
  · rintro ⟨scheme, rest, rfl | rfl, h⟩
    · exact .inr ⟨rest, h.symm⟩
    · exact .inl ⟨rest, h.symm⟩

theorem not_isForeign {url scheme rest : Text} (hweb : IsWeb scheme)
    (h : Text.lowerAscii url = scheme ++ rest) : isForeign url = false := by
  have hprefix : (Text.dropPrefix? "http" (Text.lowerAscii url)).isSome = true := by
    rw [Text.dropPrefix?_isSome, h]
    rcases hweb with rfl | rfl
    · exact ⟨rest, rfl⟩
    · exact ⟨.scalar 's' :: rest, rfl⟩
  unfold isForeign
  rw [Bool.and_eq_false_iff]
  exact .inr (by simpa using hprefix)

/-- Preparing an address that has no blanks in front. -/
def prepareTrimmed (idna : Idna) (url : Text) (pairs : List (Text × Text)) : Except Fault Text :=
  if isForeign url then .ok url
  else match parse? idna url with
    | none => .error (.unparsable url)
    | some parts =>
      match parts.scheme with
      | none => .error (.noScheme url)
      | some scheme =>
        match parts.host with
        | [] => .error (.noHost url)
        | c :: _ =>
          if c = '*' || c = '.' then .error .badLabel
          else .ok (Percent.finish
            (Parts.write { parts with query := addPairs parts.query pairs } scheme))

theorem prepare_eq_trimmed (url : Text) (pairs : List (Text × Text)) :
    prepare idna url pairs = prepareTrimmed idna (Text.trimLeft CodePoint.isSpacing url) pairs :=
  rfl

theorem prepareTrimmed_cases {url prepared : Text} {pairs : List (Text × Text)}
    (h : prepareTrimmed idna url pairs = .ok prepared) (hs : isSendable prepared = true) :
    ∃ parts scheme c host, isForeign url = false ∧ parse? idna url = some parts ∧
      parts.scheme = some scheme ∧ parts.host = c :: host ∧ c ≠ '*' ∧ c ≠ '.' ∧
      prepared =
        Percent.finish (Parts.write { parts with query := addPairs parts.query pairs } scheme) := by
  unfold prepareTrimmed at h
  cases hforeign : isForeign url with
  | true =>
    rw [hforeign, if_pos rfl] at h
    obtain rfl := Except.ok.inj h
    obtain ⟨scheme, rest, hweb, hlower⟩ := isSendable_iff.mp hs
    rw [not_isForeign hweb hlower] at hforeign
    cases hforeign
  | false =>
    rw [hforeign] at h
    simp only [Bool.false_eq_true, ↓reduceIte] at h
    cases hparse : parse? idna url with
    | none => simp [hparse] at h
    | some parts =>
      cases hscheme : parts.scheme with
      | none => simp [hparse, hscheme] at h
      | some scheme =>
        cases hhost : parts.host with
        | nil => simp [hparse, hscheme, hhost] at h
        | cons c host =>
          simp only [hparse, hscheme, hhost] at h
          split at h
          · cases h
          · next hlabel =>
            rw [Bool.or_eq_true, not_or, decide_eq_true_iff, decide_eq_true_iff] at hlabel
            refine ⟨parts, scheme, c, host, rfl, rfl, hscheme, hhost, hlabel.1, hlabel.2, ?_⟩
            rw [hscheme, hhost]
            exact (Except.ok.inj h).symm

theorem lowerAscii_append (a b : Text) :
    Text.lowerAscii (a ++ b) = Text.lowerAscii a ++ Text.lowerAscii b := List.map_append

theorem lowerAscii_of_lowerScheme {scheme : Text} (h : ∀ c ∈ scheme, IsLowerScheme c) :
    Text.lowerAscii scheme = scheme := by
  unfold Text.lowerAscii
  rw [List.map_congr_left fun c hc => (h c hc).2, List.map_id']

theorem eq_of_append_colon {a b x y : Text} (ha : CodePoint.scalar ':' ∉ a)
    (hb : CodePoint.scalar ':' ∉ b) (h : a ++ ("://" ++ x) = b ++ ("://" ++ y)) : a = b := by
  have hcut := congrArg (Text.cut? ':') h
  have hfirst : ∀ c z : Text, CodePoint.scalar ':' ∉ c →
      Text.cut? ':' (c ++ (Text.ofString "://" ++ z)) = some (c, Text.ofString "//" ++ z) :=
    fun c z hc => Text.cut?_append_cons hc _
  rw [hfirst a x ha, hfirst b y hb] at hcut
  simpa using congrArg (Option.map Prod.fst) hcut

theorem colon_not_mem {scheme : Text} (h : ∀ c ∈ scheme, IsLowerScheme c) :
    CodePoint.scalar ':' ∉ scheme := by
  intro hmem
  have := (h _ hmem).1
  revert this
  decide

theorem finish_scheme {scheme : Text} (h : ∀ c ∈ scheme, IsLowerScheme c) (rest : Text) :
    Percent.finish (scheme ++ ("://" ++ rest)) = scheme ++ ("://" ++ Percent.finish rest) := by
  rw [Percent.finish_append_of_all fun c hc => (h c hc).isAddress,
    Percent.finish_append_of_all (by decide)]

/-- A finished address with its scheme in lower case can be sent to only if that is a web scheme. -/
theorem isWeb_of_isSendable {scheme rest : Text} (h : ∀ c ∈ scheme, IsLowerScheme c)
    (hs : isSendable (scheme ++ ("://" ++ rest)) = true) : IsWeb scheme := by
  obtain ⟨web, rest', hweb, heq⟩ := isSendable_iff.mp hs
  have hcolon : CodePoint.scalar ':' ∉ web := by
    rcases hweb with rfl | rfl <;> decide
  rw [lowerAscii_append, lowerAscii_append, lowerAscii_of_lowerScheme h] at heq
  rwa [eq_of_append_colon (colon_not_mem h) hcolon heq]

theorem prefix_of_prefix_append {s a r : Text} {c : CodePoint} (hc : c ∉ s)
    (h : s <+: a ++ c :: r) : s <+: a := by
  induction s generalizing a with
  | nil => exact List.nil_prefix
  | cons d s ih =>
    rw [List.mem_cons, not_or] at hc
    cases a with
    | nil =>
      rw [List.nil_append, List.cons_prefix_cons] at h
      exact absurd h.1.symm hc.1
    | cons e a =>
      rw [List.cons_append, List.cons_prefix_cons] at h
      obtain ⟨rfl, h⟩ := h
      exact List.cons_prefix_cons.mpr ⟨rfl, ih hc.2 h⟩

theorem cut?_of_splitScheme? {inner : CodePoint → Bool} {cut : Text × Text}
    (h : splitScheme? inner t = some cut) : Text.cut? ':' t = some cut := by
  unfold splitScheme? at h
  split at h
  · next c scheme rest hcut =>
    rw [Option.ite_none_right_eq_some] at h
    rw [hcut, ← h.2]
  · cases h

theorem isForeign_append {p : Text} {cut : Text × Text}
    (hcut : splitScheme? isSchemeStart t = some cut)
    (h : isForeign (t ++ CodePoint.scalar '/' :: p) = false) (p' : Text) :
    isForeign (t ++ CodePoint.scalar '/' :: p') = false := by
  obtain ⟨rfl, -⟩ := Text.cut?_eq_some (cut?_of_splitScheme? hcut)
  obtain ⟨named, rest⟩ := cut
  have hlower : ∀ r, Text.lowerAscii (named ++ CodePoint.scalar ':' :: rest ++ r) =
      Text.lowerAscii named ++ CodePoint.scalar ':' ::
        (Text.lowerAscii rest ++ Text.lowerAscii r) := by
    intro r
    simp [Text.lowerAscii, CodePoint.lowerAscii, CodePoint.isUpperAscii]
    decide
  unfold isForeign at h ⊢
  rw [Bool.and_eq_false_iff] at h ⊢
  have hprefix : Text.ofString "http" <+: Text.lowerAscii named := by
    rcases h with h | h
    · simp at h
    · rw [Option.isNone_eq_false_iff, Text.dropPrefix?_isSome, hlower] at h
      exact prefix_of_prefix_append (by decide) h
  right
  rw [Option.isNone_eq_false_iff, Text.dropPrefix?_isSome, hlower]
  exact hprefix.trans (List.prefix_append _ _)

theorem write_scheme (p : Parts) (scheme : Text) :
    ∃ rest, p.write scheme = scheme ++ ("://" ++ rest) := by
  simp only [Parts.write, List.append_assoc]
  exact ⟨_, rfl⟩

theorem front_scheme (p : Parts) (scheme : Text) :
    ∃ rest, p.front scheme = scheme ++ ("://" ++ rest) := ⟨_, rfl⟩

/-- An address that can be sent to once it is finished has a web scheme. -/
theorem isWeb_of_finish_write {p : Parts} {scheme : Text} (h : ∀ c ∈ scheme, IsLowerScheme c)
    (hs : isSendable (Percent.finish (p.write scheme)) = true) : IsWeb scheme := by
  obtain ⟨rest, hrest⟩ := write_scheme p scheme
  rw [hrest, finish_scheme h] at hs
  exact isWeb_of_isSendable h hs

theorem IsWeb.isNormalizable {scheme : Text} (h : IsWeb scheme) :
    isNormalizable (some scheme) = true := by
  rcases h with rfl | rfl <;> rfl

/-- Whatever the path and the query are, a tidy address begins with its finished front. -/
theorem exists_finish_write {p : Parts} {scheme : Text} (hp : p.Tidy)
    (hscheme : ∀ c ∈ scheme, IsLowerScheme c) (pairs : List (Text × Text)) :
    ∃ w, Percent.finish (Parts.write { p with query := addPairs p.query pairs } scheme) =
      Percent.finish (p.front scheme) ++ CodePoint.scalar '/' :: w := by
  obtain ⟨rest, hrest, hwrite⟩ := write_eq { p with query := addPairs p.query pairs } scheme
    hp.path (addPairs_escaped pairs hp.query) hp.fragment
  have hmark : CodePoint.scalar '%' ∉ scheme := fun h => (hscheme _ h).isAddress.2 rfl
  have hfront : ({ p with query := addPairs p.query pairs } : Parts).front scheme =
      p.front scheme := rfl
  rw [hwrite, hfront]
  exact Percent.exists_finish_append (front_closed hmark hp.user hp.host) hrest

/-- Addresses under a common front are prepared alike up to their paths. -/
theorem exists_prepared_front {p prepared : Text} {pairs : List (Text × Text)} (ht : IsFront t)
    (h : prepareTrimmed idna (t ++ CodePoint.scalar '/' :: p) pairs = .ok prepared)
    (hs : isSendable prepared = true) :
    ∃ scheme rest, IsWeb scheme ∧
      (∃ w, prepared = scheme ++ ("://" ++ rest) ++ CodePoint.scalar '/' :: w) ∧
      ∀ p' pairs', ∃ w, prepareTrimmed idna (t ++ CodePoint.scalar '/' :: p') pairs' =
        .ok (scheme ++ ("://" ++ rest) ++ CodePoint.scalar '/' :: w) := by
  obtain ⟨parts, scheme, c, host, hforeign, hparse, hscheme, hhost, hstar, hdot, rfl⟩ :=
    prepareTrimmed_cases h hs
  have hlower := parse?_scheme hparse hscheme
  have hweb := isWeb_of_finish_write hlower hs
  obtain ⟨behind, hbehind⟩ := front_scheme parts scheme
  have hfront : Percent.finish (parts.front scheme) =
      scheme ++ ("://" ++ Percent.finish behind) := by
    rw [hbehind, finish_scheme hlower]
  refine ⟨scheme, Percent.finish behind, hweb, ?_, fun p' pairs' => ?_⟩
  · rw [← hfront]
    exact exists_finish_write (parse?_tidy hparse (hscheme ▸ hweb.isNormalizable)) hlower pairs
  · obtain ⟨parts', hparse', hsame⟩ := parse?_sameSite ht hparse hscheme p'
    have hscheme' : parts'.scheme = some scheme := by rw [hsame.scheme, hscheme]
    have htidy := parse?_tidy hparse' (hscheme' ▸ hweb.isNormalizable)
    obtain ⟨w, hw⟩ := exists_finish_write htidy hlower pairs'
    have hfront' : parts'.front scheme = parts.front scheme := by
      unfold Parts.front
      rw [hsame.user, hsame.host, hsame.port]
    refine ⟨w, ?_⟩
    rw [← hfront, ← hfront', ← hw]
    -- the scheme stands in front of the path, so the other address is not foreign either
    obtain ⟨path, query, fragment, heq⟩ := parse?_eq (t ++ CodePoint.scalar '/' :: p)
    have hsite := (assemble_tidy (heq ▸ hparse)).1
    rw [hscheme] at hsite
    obtain ⟨named, hnamed, -⟩ := Option.map_eq_some_iff.mp hsite.symm
    obtain ⟨cut, hcut⟩ := exists_scheme hnamed
    unfold prepareTrimmed
    rw [isForeign_append hcut hforeign p', hparse']
    simp [hscheme', hsame.host, hhost, hstar, hdot]

theorem splitScheme?_web {scheme : Text} (h : IsWeb scheme) (rest : Text) :
    splitScheme? isSchemeChar (scheme ++ ("://" ++ rest)) =
      some (scheme, Text.ofString "//" ++ rest) := by
  have hcolon : CodePoint.scalar ':' ∉ scheme := by
    rcases h with rfl | rfl <;> decide
  have hcut : Text.cut? ':' (scheme ++ (Text.ofString "://" ++ rest)) =
      some (scheme, Text.ofString "//" ++ rest) := Text.cut?_append_cons hcolon _
  unfold splitScheme?
  rw [hcut]
  rcases h with rfl | rfl <;> rfl

theorem isSendable_web {scheme : Text} (h : IsWeb scheme) (rest : Text) :
    isSendable (scheme ++ ("://" ++ rest)) = true := by
  rw [isSendable_iff]
  refine ⟨scheme, Text.lowerAscii rest, h, ?_⟩
  rcases h with rfl | rfl <;> rfl

end PullGate.Url
