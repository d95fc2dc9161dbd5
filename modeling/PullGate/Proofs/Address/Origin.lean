import PullGate.Proofs.Address.Path

/-! Paths under an origin.  Where a service is named by scheme and host alone, the path of each
request can be read off its resource; and what goes on behind a directory of plain names stays
there, unless it goes back. -/

namespace PullGate

/-- A letter followed by letters, digits, plus signs, minus signs and points. -/
def Url.IsScheme (t : Text) : Prop :=
  ∃ c rest, t = c :: rest ∧ c.isAlphaAscii = true ∧ rest.all isSchemeChar = true

/-- A scheme and a host, with a user or a port in it or not. -/
def Url.IsOrigin (url : Text) : Prop :=
  ∃ scheme host, IsScheme scheme ∧ Undelimited host ∧ url = scheme ++ ("://" ++ host)

/-- One or more letters, digits, minus signs and underscores. -/
def Text.IsPlainName (t : Text) : Prop :=
  t ≠ [] ∧ ∀ c ∈ t, (c.isAlphaAscii || c.isDigit || c = '-' || c = '_') = true

namespace Url

variable {base s t u : Text} {decodes : Bool}

/-! ### Origins -/

theorem isSchemeChar_of_isAlphaAscii {c : CodePoint} (h : c.isAlphaAscii = true) :
    isSchemeChar c = true := by
  simp [isSchemeChar, isSchemeStart, h]

theorem IsScheme.all {scheme : Text} (h : IsScheme scheme) :
    ∀ c ∈ scheme, isSchemeChar c = true := by
  obtain ⟨c, rest, rfl, hc, hrest⟩ := h
  exact List.forall_mem_cons.mpr ⟨isSchemeChar_of_isAlphaAscii hc, List.all_eq_true.mp hrest⟩

theorem IsScheme.not_mem {scheme : Text} {c : CodePoint} (h : IsScheme scheme)
    (hc : isSchemeChar c = false) : c ∉ scheme := by
  intro hmem
  rw [h.all c hmem] at hc
  cases hc

theorem isSpacing_of_isAlphaAscii {c : CodePoint} (h : c.isAlphaAscii = true) :
    c.isSpacing = false := by
  simp only [CodePoint.isAlphaAscii, CodePoint.isUpperAscii, CodePoint.isLowerAscii,
    Bool.or_eq_true, Bool.and_eq_true, decide_eq_true_iff] at h
  simp only [CodePoint.isSpacing, CodePoint.isWhiteSpace, CodePoint.inRanges,
    CodePoint.whiteSpaceRanges, List.any_cons, List.any_nil, Bool.or_false, Bool.or_eq_false_iff,
    Bool.and_eq_false_iff, decide_eq_false_iff_not]
  omega

theorem IsOrigin.trimLeft (h : IsOrigin base) : Text.trimLeft CodePoint.isSpacing base = base := by
  obtain ⟨-, host, ⟨c, rest, rfl, hc, -⟩, -, rfl⟩ := h
  exact List.dropWhile_cons_of_neg (by rw [isSpacing_of_isAlphaAscii hc]; decide)

theorem IsOrigin.unmarked (h : IsOrigin base) : Unmarked base := by
  obtain ⟨scheme, host, hscheme, hhost, rfl⟩ := h
  exact Unmarked.append ⟨hscheme.not_mem (by decide), hscheme.not_mem (by decide)⟩
    (Unmarked.append ⟨by decide, by decide⟩ hhost.unmarked)

theorem IsScheme.splitScheme? {scheme : Text} (h : IsScheme scheme) (rest : Text) :
    Url.splitScheme? isSchemeChar (scheme ++ CodePoint.scalar ':' :: rest) =
      some (scheme, rest) := by
  have hcut := Text.cut?_append_cons (h.not_mem (c := ':') (by decide)) rest
  obtain ⟨c, inner, rfl, hc, hinner⟩ := h
  unfold Url.splitScheme?
  rw [hcut]
  simp [hc, hinner]

/-- An origin adds only the version to the paths of its service. -/
theorem IsOrigin.basePath (h : IsOrigin base) : basePath (base ++ "/2.0") = "/2.0" := by
  obtain ⟨scheme, host, hscheme, hhost, rfl⟩ := h
  have hsplit : Url.splitScheme? isSchemeChar (scheme ++ (Text.ofString "://" ++ host) ++ "/2.0") =
      some (scheme, CodePoint.scalar '/' :: CodePoint.scalar '/' ::
        (host ++ CodePoint.scalar '/' :: Text.ofString "2.0")) := by
    rw [List.append_assoc]
    exact hscheme.splitScheme? _
  unfold Url.basePath splitAuthority
  rw [hsplit]
  show (upTo isDelimiter (host ++ CodePoint.scalar '/' :: Text.ofString "2.0")).2 = _
  rw [upTo_append_slash isDelimiter rfl, upTo_of_undelimited hhost]
  rfl

/-! ### Paths behind a directory -/

/-- A piece of a path in the form in which it is sent. -/
def sentAs (decodes : Bool) (t : Text) : Text :=
  Percent.recode decodes (Percent.normalize Percent.isPath t)

theorem isAddress_of_isPath {c : CodePoint} (h : Percent.isPath c = true) :
    Percent.isAddress c = true ∧ c ≠ '%' := by
  constructor
  · simp [Percent.isAddress, Percent.isQuery, h]
  · rintro rfl
    revert h
    decide

theorem escaped_of_isPath (h : ∀ c ∈ t, Percent.isPath c = true) : Percent.Escaped t :=
  .of_not_mem fun hmem => (isAddress_of_isPath (h _ hmem)).2 rfl

theorem normalize_isPath_escaped (t : Text) :
    Percent.Escaped (Percent.normalize Percent.isPath t) :=
  Percent.normalize_escaped (by decide) (fun _ => isPath_of_isHexDigit) t

theorem recode_of_isPath (h : ∀ c ∈ t, Percent.isPath c = true) : Percent.recode decodes t = t :=
  Percent.recode_of_all fun c hc => isAddress_of_isPath (h c hc)

theorem sentAs_append_left (decodes : Bool) (hs : ∀ c ∈ s, Percent.isPath c = true) (t : Text) :
    sentAs decodes (s ++ t) = s ++ sentAs decodes t := by
  unfold sentAs
  rw [Percent.normalize_append_left (by decide) hs, Percent.recode_append (escaped_of_isPath hs)
    (normalize_isPath_escaped t), recode_of_isPath hs]

theorem sentAs_append_slash (t : Text) (hu : ∀ c ∈ u, Percent.isPath c = true) :
    sentAs decodes (t ++ CodePoint.scalar '/' :: u) =
      sentAs decodes t ++ CodePoint.scalar '/' :: u := by
  have hslash : ∀ c ∈ CodePoint.scalar '/' :: u, Percent.isPath c = true :=
    List.forall_mem_cons.mpr ⟨by decide, hu⟩
  unfold sentAs
  rw [Percent.normalize_append_slash (by decide) t (by decide) hu, Percent.recode_append
    (normalize_isPath_escaped t) (escaped_of_isPath hslash), recode_of_isPath hslash]

theorem unmarked_of_isPath (h : ∀ c ∈ t, Percent.isPath c = true) : Unmarked t :=
  ⟨fun hmem => absurd (h _ hmem) (by decide), fun hmem => absurd (h _ hmem) (by decide)⟩

theorem before_of_mem {mark : CodePoint} (h : mark ∈ s) (t : Text) :
    before mark (s ++ t) = before mark s := by
  unfold before
  rw [Text.cut?_append]
  cases hcut : Text.cut? mark s with
  | none => exact absurd h (Text.cut?_eq_none.mp hcut)
  | some cut => rfl

theorem before_of_not_mem {mark : CodePoint} (h : mark ∉ s) (t : Text) :
    before mark (s ++ t) = s ++ before mark t := by
  unfold before
  rw [cut?_append_left h]
  cases Text.cut? mark t <;> rfl

/-- What follows a query or a fragment is part of it. -/
theorem strip_append_of_marked (h : ¬Unmarked s) (t : Text) : strip (s ++ t) = strip s := by
  simp only [strip_eq_before]
  by_cases hfragment : CodePoint.scalar '#' ∈ s
  · rw [before_of_mem hfragment]
  · have hquery : CodePoint.scalar '?' ∈ s := by
      by_contra hquery
      exact h ⟨hquery, hfragment⟩
    have hself := before_of_not_mem hfragment []
    rw [List.append_nil, show before '#' [] = [] from rfl, List.append_nil] at hself
    rw [before_of_not_mem hfragment, before_of_mem hquery, hself]

/-- A directory of so many segments is one from which as many steps back can be taken. -/
theorem stays_append_left {depth : Nat} {front : List Text}
    (h : ∀ segment ∈ front, isDot segment = false) (segments : List Text) :
    stays depth (front ++ segments) = stays (depth + front.length) segments := by
  induction front generalizing depth with
  | nil => rfl
  | cons segment front ih =>
    obtain ⟨hsegment, hfront⟩ := List.forall_mem_cons.mp h
    rw [List.cons_append, stays_cons hsegment, ih hfront, List.length_cons]
    congr 1
    omega

theorem stays_strip_append {depth : Nat} (h : stays depth (Text.split '/' (strip t)) = true)
    (hmarks : Unmarked u) (hdots : DotFree u) :
    stays depth (Text.split '/' (strip (t ++ CodePoint.scalar '/' :: u))) = true := by
  by_cases ht : Unmarked t
  · rw [strip_unmarked ht] at h
    rw [strip_front ht, strip_unmarked hmarks, Text.split_append_sep]
    exact stays_append h hdots
  · rwa [strip_append_of_marked ht]

theorem stays_behind {front : Text} (hmarks : Unmarked front) (hdots : DotFree front)
    (h : stays (Text.split '/' front).length (Text.split '/' (strip t)) = true) :
    stays 0 (Text.split '/' (strip (front ++ CodePoint.scalar '/' :: t))) = true := by
  rw [strip_front hmarks, Text.split_append_sep, stays_append_left hdots, Nat.zero_add]
  exact h

theorem dotFree_version {front : Text} (h : DotFree front) : DotFree ("/2.0/" ++ front) := by
  have hversion : DotFree (Text.ofString "/2.0") := by decide
  exact dotFree_append.mpr ⟨hversion, h⟩

/-- What goes on behind a directory and does not go back past it is sent to behind it. -/
theorem pathUnder_front {front : Text} (hbase : IsOrigin base)
    (hplain : ∀ c ∈ front, Percent.isPath c = true) (hfront : DotFree front) {rest : Text}
    (hstays : stays 0 (Text.split '/' (strip rest)) = true) :
    pathUnder base decodes (front ++ CodePoint.scalar '/' :: rest) =
      "/2.0/" ++ front ++ CodePoint.scalar '/' :: sentAs decodes (resolve (strip rest)) := by
  have hversion : ∀ c ∈ Text.ofString "/2.0/", Percent.isPath c = true := by decide
  have hdirectory : ∀ c ∈ Text.ofString "/2.0/" ++ front ++ [CodePoint.scalar '/'],
      Percent.isPath c = true :=
    List.forall_mem_append.mpr ⟨List.forall_mem_append.mpr ⟨hversion, hplain⟩, by decide⟩
  have hjoined : Text.ofString "/2.0" ++ CodePoint.scalar '/' :: (front ++ CodePoint.scalar '/' ::
      strip rest) = Text.ofString "/2.0/" ++ front ++ CodePoint.scalar '/' :: strip rest := by
    simp [Text.ofString]
  have hassoc : ∀ r : Text, Text.ofString "/2.0/" ++ front ++ CodePoint.scalar '/' :: r =
      Text.ofString "/2.0/" ++ front ++ [CodePoint.scalar '/'] ++ r := by simp
  have hsent := sentAs_append_left decodes hdirectory (resolve (strip rest))
  unfold sentAs at hsent
  rw [Percent.normalize_append_left (by decide) hdirectory] at hsent
  unfold pathUnder
  rw [hbase.trimLeft, hbase.basePath, strip_front (unmarked_of_isPath hplain), hjoined,
    removeDots_front rfl (dotFree_version hfront) hstays, hassoc (resolve _), hassoc (sentAs _ _),
    Percent.normalize_append_left (by decide) hdirectory]
  exact hsent

/-- What is free of marks and dot segments is sent to as it goes on behind a directory. -/
theorem pathUnder_dotFree {front : Text} (hbase : IsOrigin base)
    (hplain : ∀ c ∈ front, Percent.isPath c = true) (hfront : DotFree front)
    (hmarks : Unmarked t) (hdots : DotFree t) :
    pathUnder base decodes (front ++ CodePoint.scalar '/' :: t) =
      "/2.0/" ++ front ++ CodePoint.scalar '/' :: sentAs decodes t := by
  have hstrip := strip_unmarked hmarks
  rw [pathUnder_front hbase hplain hfront (hstrip.symm ▸ stays_dotFree hdots), hstrip,
    resolve_of_dotFree hdots]

theorem rooted_append (h : s ≠ []) (t : Text) : rooted (s ++ t) = rooted s ++ t := by
  cases s with
  | nil => exact absurd rfl h
  | cons c s =>
    by_cases hc : c = '/'
    · rw [hc]
      rfl
    · have hrooted : ∀ r : Text, rooted (c :: r) = CodePoint.scalar '/' :: c :: r := by
        intro r
        unfold rooted
        split
        · next heq => exact absurd (List.cons.inj heq).1 hc
        · rfl
      rw [List.cons_append, hrooted, hrooted]
      rfl

/-- A segment of its own that follows a resource follows its path. -/
theorem pathUnder_concat {front last next : Text}
    (hmarks : Unmarked (front ++ CodePoint.scalar '/' :: last))
    (hlast : CodePoint.scalar '/' ∉ last) (hdot : isDot last = false) (hsome : last ≠ [])
    (hplain : ∀ c ∈ next, Percent.isPath c = true)
    (hnext : CodePoint.scalar '/' ∉ next) (hdot' : isDot next = false) :
    pathUnder base decodes (front ++ CodePoint.scalar '/' :: last ++ CodePoint.scalar '/' :: next) =
      pathUnder base decodes (front ++ CodePoint.scalar '/' :: last) ++
        CodePoint.scalar '/' :: next := by
  have hslash : ∀ c ∈ CodePoint.scalar '/' :: next, Percent.isPath c = true :=
    List.forall_mem_cons.mpr ⟨by decide, hplain⟩
  unfold pathUnder
  generalize basePath (Text.trimLeft CodePoint.isSpacing base ++ Text.ofString "/2.0") = before
  have hassoc : ∀ r : Text, before ++ CodePoint.scalar '/' :: (front ++ CodePoint.scalar '/' ::
      last ++ r) =
        before ++ CodePoint.scalar '/' :: front ++ CodePoint.scalar '/' :: last ++ r := by
    simp
  have hresource := hassoc []
  rw [List.append_nil, List.append_nil] at hresource
  have hpath : Percent.normalize Percent.isPath (removeDots
      (before ++ CodePoint.scalar '/' :: front ++ CodePoint.scalar '/' :: last)) ≠ [] :=
    Percent.normalize_ne_nil _ (removeDots_ne_nil hlast hdot hsome)
  rw [strip_front hmarks, strip_unmarked (unmarked_of_isPath hplain), strip_unmarked hmarks,
    hassoc, hresource, removeDots_concat hlast hdot hnext hdot',
    Percent.normalize_append_slash (by decide) _ (by decide) hplain, rooted_append hpath,
    Percent.recode_append ?_ (escaped_of_isPath hslash), recode_of_isPath hslash]
  obtain ⟨root, hroot, hescaped⟩ := rooted_escaped (normalize_isPath_escaped
    (removeDots (before ++ CodePoint.scalar '/' :: front ++ CodePoint.scalar '/' :: last)))
  rw [hroot]
  exact hescaped.cons (by decide)

theorem queryUnder_unmarked (h : Unmarked t) : queryUnder decodes t [] = none := by
  unfold queryUnder
  rw [query?_unmarked h]
  rfl

end Url

namespace Text.IsPlainName

variable {t : Text}

theorem isPath (h : t.IsPlainName) : ∀ c ∈ t, Percent.isPath c = true := by
  intro c hc
  have hplain := h.2 c hc
  simp only [Bool.or_eq_true, decide_eq_true_iff] at hplain
  simp only [Percent.isPath, Percent.isUserInfo, Percent.isUnreserved, Bool.or_eq_true,
    decide_eq_true_iff]
  tauto

theorem not_mem {c : CodePoint} (h : t.IsPlainName)
    (hc : (c.isAlphaAscii || c.isDigit || c = '-' || c = '_') = false) : c ∉ t := by
  intro hmem
  rw [h.2 c hmem] at hc
  cases hc

theorem not_isDot (h : t.IsPlainName) : Url.isDot t = false := by
  have hdot : CodePoint.scalar '.' ∉ t := h.not_mem (by decide)
  rw [Url.isDot, Bool.or_eq_false_iff, decide_eq_false_iff_not, decide_eq_false_iff_not]
  constructor
  · rintro rfl
    exact hdot (.head _)
  · rintro rfl
    exact hdot (.head _)

theorem dotFree (h : t.IsPlainName) : Url.DotFree t := by
  unfold Url.DotFree
  rw [Text.split_of_not_mem (h.not_mem (by decide)), List.forall_mem_singleton]
  exact h.not_isDot

end Text.IsPlainName

end PullGate
