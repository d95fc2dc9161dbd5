import PullGate.Proofs.Address.Dots
import PullGate.Proofs.Address.Marks
import PullGate.Proofs.Address.Reach

/-! Prepared addresses in full.  Behind a front without query and fragment an address is sent with
the path that the front and the resource make, normalized piece by piece, and with its own query; so
the path of the request can be told from the resource. -/

namespace PullGate.Url

variable {s t p rest : Text} {idna : Idna}

/-! ### Addresses behind a front -/

/-- What a front without query and fragment adds to the paths of the addresses behind it. -/
def basePath (t : Text) : Text := (splitAuthority t).2.2

/-- Parts of an address behind a front, in normal form. -/
structure Parts.Behind (parts : Parts) (t p : Text) : Prop where
  path : parts.path = Percent.normalize Percent.isPath
    (removeDots (basePath t ++ CodePoint.scalar '/' :: strip p))
  query : parts.query = (query? p).map (Percent.normalize Percent.isQuery)
  fragment : parts.fragment = (splitFragment p).2.map (Percent.normalize Percent.isQuery)
  user : ∀ user, parts.user = some user → Undelimited user
  host : Undelimited parts.host
  escaped : Unscoped (hostPort t) → Percent.Escaped parts.host

theorem parse?_behind {parts : Parts} {scheme : Text} (hmarks : Unmarked t)
    (hcut : splitScheme? isSchemeStart t =
      some (scheme, CodePoint.scalar '/' :: CodePoint.scalar '/' :: rest))
    (hparse : parse? idna (t ++ CodePoint.scalar '/' :: p) = some parts)
    (hnormal : isNormalizable parts.scheme = true) : parts.Behind t p := by
  have hsplit : splitAuthority t = (some scheme, upTo isDelimiter rest) := by
    unfold splitAuthority
    rw [isSchemeChar_of_isSchemeStart hcut]
    rfl
  rw [parse?_front hmarks hcut] at hparse
  have hscheme := (assemble_tidy hparse).1
  obtain ⟨host, port, hhost, h⟩ := assemble_eq_some.mp hparse
  rw [if_pos (hscheme ▸ hnormal)] at h
  obtain ⟨written, hwritten, rfl⟩ := h
  have hundelimited := host?_undelimited
    ((upTo_undelimited rest).of_subset (userHost_subset _)) hhost
  refine ⟨?_, rfl, rfl, ?_, ?_, ?_⟩
  · rw [basePath, hsplit]
    rfl
  · intro user huser
    obtain ⟨v, -, rfl⟩ := Option.map_eq_some_iff.mp huser
    exact .normalize (fun _ => isDelimiter_isUserInfo) v
  · exact keeps_undelimited.host? hundelimited hwritten
  · intro hunscoped
    rw [hostPort, hsplit] at hunscoped
    exact Idna.keeps_escaped.host? (host?_escaped hunscoped hhost) hwritten

theorem front_undelimited {parts : Parts}
    (huser : ∀ user, parts.user = some user → Undelimited user) (hhost : Undelimited parts.host)
    (scheme : Text) :
    ∃ authority, Undelimited authority ∧ parts.front scheme = scheme ++ ("://" ++ authority) := by
  have hnil : Undelimited [] := fun c hc => nomatch hc
  refine ⟨_, ?_, rfl⟩
  refine Undelimited.append (Undelimited.append ?_ hhost) ?_
  · split
    · next user heq =>
      refine (huser user heq).append fun c hc => ?_
      rw [List.mem_singleton.mp hc]
      rfl
    · exact hnil
  · split
    · split
      · exact hnil
      · exact List.forall_mem_cons.mpr ⟨rfl, Undelimited.natDigits _ hnil⟩
    · exact hnil

/-- A part that is shown in an address: one that is not empty. -/
def shown (part : Option Text) : Option Text := part.filter fun t => !t.isEmpty

/-- A part behind its mark. -/
def behind (mark : CodePoint) (part : Option Text) : Text := (part.map (mark :: ·)).getD []

theorem marked_eq (mark : CodePoint) (part : Option Text) :
    marked mark part = behind mark (shown part) := by
  match part with
  | none => rfl
  | some [] => rfl
  | some (c :: t) => rfl

theorem splitFragment_behind (h : CodePoint.scalar '#' ∉ t) (fragment : Option Text) :
    splitFragment (t ++ behind '#' fragment) = (t, fragment) := by
  rw [splitFragment_append_left h]
  cases fragment with
  | none => simp [behind, splitFragment, Text.cut?]
  | some f => simp [behind, splitFragment, Text.cut?]

theorem splitQuery_behind (h : CodePoint.scalar '?' ∉ t) (query : Option Text) :
    splitQuery (t ++ behind '?' query) = (t, query) := by
  rw [splitQuery_append_left h]
  cases query with
  | none => simp [behind, splitQuery, Text.cut?]
  | some q => simp [behind, splitQuery, Text.cut?]

theorem Undelimited.unmarked (h : Undelimited t) : Unmarked t :=
  ⟨fun hmem => absurd (h _ hmem) (by decide), fun hmem => absurd (h _ hmem) (by decide)⟩

theorem upTo_of_undelimited (h : Undelimited t) : upTo isDelimiter t = (t, []) := by
  have hall : ∀ c ∈ t, (!isDelimiter c) = true := fun c hc => by rw [h c hc]; rfl
  rw [upTo, List.span_eq_takeWhile_dropWhile, List.takeWhile_eq_self_iff.mpr hall,
    List.dropWhile_eq_nil_iff.mpr hall]

theorem front_unmarked {scheme authority : Text} (hweb : IsWeb scheme) (h : Undelimited authority) :
    Unmarked (scheme ++ ("://" ++ authority)) := by
  refine Unmarked.append ?_ (Unmarked.append ⟨by decide, by decide⟩ h.unmarked)
  rcases hweb with rfl | rfl
  · exact ⟨by decide, by decide⟩
  · exact ⟨by decide, by decide⟩

/-- Path and query of an address in its written form. -/
theorem path_of_written {scheme authority root : Text} {query : Option Text}
    (hweb : IsWeb scheme) (hauthority : Undelimited authority)
    (hroot : Unmarked (CodePoint.scalar '/' :: root))
    (hquery : ∀ q, query = some q → CodePoint.scalar '#' ∉ q) (fragment : Option Text) :
    path (scheme ++ ("://" ++ authority) ++ (CodePoint.scalar '/' :: root ++
        (behind '?' query ++ behind '#' fragment))) = CodePoint.scalar '/' :: root ∧
      query? (scheme ++ ("://" ++ authority) ++ (CodePoint.scalar '/' :: root ++
        (behind '?' query ++ behind '#' fragment))) = query := by
  have hfront := (front_unmarked hweb hauthority).append hroot
  have hbehind : CodePoint.scalar '#' ∉ behind '?' query := by
    cases query with
    | none => exact List.not_mem_nil
    | some q => simpa [behind] using hquery q rfl
  have hhash : CodePoint.scalar '#' ∉ scheme ++ (Text.ofString "://" ++ authority) ++
      CodePoint.scalar '/' :: root ++ behind '?' query := by
    rw [List.mem_append, not_or]
    exact ⟨hfront.2, hbehind⟩
  have hfragment := splitFragment_behind hhash fragment
  have hscheme : splitScheme? isSchemeChar (scheme ++ (Text.ofString "://" ++ authority)) =
      some (scheme, CodePoint.scalar '/' :: CodePoint.scalar '/' :: authority) :=
    splitScheme?_web hweb authority
  simp only [← List.append_assoc] at hfragment hfront hscheme ⊢
  constructor
  · unfold path strip
    rw [hfragment, splitQuery_behind hfront.1, splitAuthority_front hscheme,
      upTo_of_undelimited hauthority]
    rfl
  · unfold query?
    rw [hfragment, splitQuery_behind hfront.1]

/-! ### Preparing in pieces -/

theorem recode_behind {mark : CodePoint} {part : Option Text} {decodes : Bool}
    (hmark : Percent.isAddress mark = true ∧ mark ≠ '%')
    (h : ∀ u, part = some u → Percent.Escaped u) :
    Percent.recode decodes (behind mark part) =
      behind mark (part.map (Percent.recode decodes)) := by
  cases part with
  | none =>
    show Percent.recode decodes [] = []
    exact Percent.recode_of_all (fun c hc => nomatch hc)
  | some u =>
    have hne : CodePoint.scalar '%' ∉ [mark] := by simpa using Ne.symm hmark.2
    show Percent.recode decodes ([mark] ++ u) = [mark] ++ Percent.recode decodes u
    rw [Percent.recode_append (.of_not_mem hne) (h u rfl), Percent.recode_of_all (t := [mark])]
    intro c hc
    rw [List.mem_singleton.mp hc]
    exact hmark

theorem shown_eq_some {part : Option Text} {u : Text} (h : shown part = some u) :
    part = some u := by
  unfold shown at h
  rw [Option.filter_eq_some_iff] at h
  exact h.1

theorem site_eq_nil {named : Text} {x y : CodePoint} (h : ¬(x = '/' ∧ y = '/'))
    (hcut : splitScheme? isSchemeChar t = some (named, x :: y :: rest)) : (site t).2 = [] := by
  unfold site splitAuthority
  rw [hcut]
  simp only
  split
  · next heq =>
    simp only [List.cons.injEq] at heq
    exact absurd ⟨heq.1, heq.2.1⟩ h
  · rfl

/-- A scheme that is followed by no authority leaves an address without a host. -/
theorem exists_authority {parts : Parts} {scheme : Text} (ht : IsFront t) (hmarks : Unmarked t)
    (hparse : parse? idna (t ++ CodePoint.scalar '/' :: p) = some parts)
    (hscheme : parts.scheme = some scheme) (hhost : parts.host ≠ []) :
    ∃ named rest, splitScheme? isSchemeStart t =
      some (named, CodePoint.scalar '/' :: CodePoint.scalar '/' :: rest) := by
  rw [parse?_eq_assemble] at hparse
  have hlower := (assemble_tidy hparse).1
  rw [hscheme] at hlower
  obtain ⟨named, hnamed, -⟩ := Option.map_eq_some_iff.mp hlower.symm
  obtain ⟨⟨named, r⟩, hcut⟩ := exists_scheme hnamed
  match r, ht _ hcut with
  | x :: y :: rest, _ =>
    by_cases hslashes : x = '/' ∧ y = '/'
    · obtain ⟨rfl, rfl⟩ := hslashes
      exact ⟨named, rest, hcut⟩
    · have hchar := isSchemeChar_of_isSchemeStart hcut
      rw [markAuthority_front hcut, strip_front hmarks, site_append hchar (by simp),
        site_eq_nil hslashes hchar] at hparse
      obtain ⟨host, port, hempty, h⟩ := assemble_eq_some.mp hparse
      obtain ⟨rfl, -⟩ := Prod.mk.inj (Option.some.inj (show some ([], none) = _ from hempty))
      refine absurd ?_ hhost
      split at h
      · obtain ⟨written, hwritten, rfl⟩ := h
        exact (Option.some.inj hwritten).symm
      · rw [← h]

/-! ### Characters of a prepared address -/

theorem not_mem_recode {c : CodePoint} {decodes : Bool}
    (hc : (Percent.isUnreserved c || c = '%') = false) (h : c ∉ t) :
    c ∉ Percent.recode decodes t := by
  rw [Bool.or_eq_false_iff, decide_eq_false_iff_not] at hc
  intro hmem
  rcases Percent.mem_recode hmem with hmem | hplain | hmark
  · exact h hmem
  · rw [hc.1] at hplain
    cases hplain
  · exact hc.2 hmark

theorem not_mem_normalize {c : CodePoint} {plain : CodePoint → Bool} (hplain : plain c = false)
    (hc : (c.isHexDigit || c = '%') = false) (t : Text) : c ∉ Percent.normalize plain t := by
  rw [Bool.or_eq_false_iff, decide_eq_false_iff_not] at hc
  intro hmem
  rcases Percent.mem_normalize hmem with h | rfl | hhex
  · rw [hplain] at h
    cases h
  · exact hc.2 rfl
  · rw [hc.1] at hhex
    cases hhex

theorem hash_not_mem_encodeForm (t : Text) : CodePoint.scalar '#' ∉ Percent.encodeForm t := by
  intro hmem
  obtain ⟨c, -, hc⟩ := List.mem_flatMap.mp hmem
  split at hc
  · revert hc
    decide
  · split at hc
    · next hplain =>
      rw [← List.mem_singleton.mp hc] at hplain
      revert hplain
      decide
    · rcases Percent.mem_escapeChar hc with hmark | hhex
      · exact absurd hmark (by decide)
      · exact absurd hhex (by decide)

theorem not_mem_join {c : CodePoint} {sep : Text} {pieces : List Text} (hsep : c ∉ sep)
    (h : ∀ piece ∈ pieces, c ∉ piece) : c ∉ Text.join sep pieces := by
  refine Text.join_induction (P := fun t => c ∉ t) List.not_mem_nil (fun a b ha hb => ?_) h
  simp [ha, hsep, hb]

theorem hash_not_mem_encodePairs (pairs : List (Text × Text)) :
    CodePoint.scalar '#' ∉ Percent.encodePairs pairs := by
  apply not_mem_join (by decide)
  intro piece hpiece
  obtain ⟨⟨name, value⟩, -, rfl⟩ := List.mem_map.mp hpiece
  simp [hash_not_mem_encodeForm]

theorem hash_not_mem_addPairs {query : Option Text} (pairs : List (Text × Text)) {q : Text}
    (hq : addPairs (query.map (Percent.normalize Percent.isQuery)) pairs = some q) :
    CodePoint.scalar '#' ∉ q := by
  have hnormal : ∀ u, query.map (Percent.normalize Percent.isQuery) = some u →
      CodePoint.scalar '#' ∉ u := by
    intro u hu
    obtain ⟨v, -, rfl⟩ := Option.map_eq_some_iff.mp hu
    exact not_mem_normalize (by decide) (by decide) v
  have hand : CodePoint.scalar '#' ∉ Text.ofString "&" := by decide
  unfold addPairs at hq
  split at hq
  · exact hnormal q hq
  · split at hq
    · obtain rfl := Option.some.inj hq
      exact hash_not_mem_encodePairs pairs
    · obtain rfl := Option.some.inj hq
      exact hash_not_mem_encodePairs pairs
    · next heq =>
      obtain rfl := Option.some.inj hq
      simp [hnormal _ heq, hand, hash_not_mem_encodePairs]

theorem unmarked_recode {decodes : Bool} (h : Unmarked t) : Unmarked (Percent.recode decodes t) :=
  ⟨not_mem_recode (by decide) h.1, not_mem_recode (by decide) h.2⟩

theorem unmarked_rooted (h : Unmarked t) : Unmarked (rooted t) := by
  unfold rooted
  split
  · exact h
  · exact unmarked_slash.append h

/-! ### Whole addresses -/

/-- Whether the escapes behind a front are decoded. -/
def Parts.decodes (p : Parts) (scheme : Text) : Bool :=
  (Percent.decodeUnreserved? (p.front scheme)).isSome

/-- An address is finished in pieces. -/
theorem finish_write {parts : Parts} {scheme authority : Text} (htidy : parts.Tidy)
    (hscheme : ∀ c ∈ scheme, IsLowerScheme c)
    (hfront : parts.front scheme = scheme ++ ("://" ++ authority)) :
    Percent.finish (parts.write scheme) = scheme ++ ("://" ++ Percent.finish authority) ++
      (Percent.recode (parts.decodes scheme) (rooted parts.path) ++
        (behind '?' ((shown parts.query).map (Percent.recode (parts.decodes scheme))) ++
          behind '#' ((shown parts.fragment).map (Percent.recode (parts.decodes scheme))))) := by
  have hmark : CodePoint.scalar '%' ∉ scheme := fun h => (hscheme _ h).isAddress.2 rfl
  have hclosed := front_closed hmark htidy.user htidy.host
  have hpath : Percent.Escaped (rooted parts.path) := by
    obtain ⟨root, hroot, hescaped⟩ := rooted_escaped htidy.path
    rw [hroot]
    exact hescaped.cons (by decide)
  have hquery := marked_escaped '?' (by decide) htidy.query
  have hfragment := marked_escaped '#' (by decide) htidy.fragment
  have hshown : ∀ {part : Option Text}, (∀ u, part = some u → Percent.Escaped u) →
      ∀ u, shown part = some u → Percent.Escaped u := fun h u hu => h u (shown_eq_some hu)
  rw [write_front, Percent.finish_append hclosed (hpath.append (hquery.append hfragment)),
    Percent.recode_append hpath (hquery.append hfragment), Percent.recode_append hquery hfragment,
    marked_eq, marked_eq, recode_behind ⟨by decide, by decide⟩ (hshown htidy.query),
    recode_behind ⟨by decide, by decide⟩ (hshown htidy.fragment)]
  have hfinish : Percent.finish (parts.front scheme) =
      scheme ++ ("://" ++ Percent.finish authority) := by
    rw [hfront, finish_scheme hscheme]
  rw [hfinish]
  rfl

theorem exists_recode_rooted (decodes : Bool) {path : Text} (h : Percent.Escaped path) :
    ∃ root, Percent.recode decodes (rooted path) = CodePoint.scalar '/' :: root := by
  obtain ⟨rest, hrest, hescaped⟩ := rooted_escaped h
  have hslash : Percent.Escaped [CodePoint.scalar '/'] := .of_not_mem (by decide)
  rw [hrest, ← List.singleton_append, Percent.recode_append hslash hescaped, Percent.recode_of_all]
  · exact ⟨_, rfl⟩
  · intro c hc
    rw [List.mem_singleton.mp hc]
    decide

theorem Undelimited.finish (h : Undelimited t) : Undelimited (Percent.finish t) := h.recode true

/-- How path and query of a prepared address come from those of its parts. -/
theorem prepared_behind {prepared : Text} {pairs : List (Text × Text)} (ht : IsFront t)
    (hmarks : Unmarked t)
    (h : prepareTrimmed idna (t ++ CodePoint.scalar '/' :: p) pairs = .ok prepared)
    (hs : isSendable prepared = true) :
    ∃ parts scheme, parse? idna (t ++ CodePoint.scalar '/' :: p) = some parts ∧
      parts.scheme = some scheme ∧ isNormalizable parts.scheme = true ∧ parts.Behind t p ∧
      path prepared = Percent.recode (parts.decodes scheme) (rooted parts.path) ∧
      query? prepared = (shown (addPairs parts.query pairs)).map
        (Percent.recode (parts.decodes scheme)) := by
  obtain ⟨parts, scheme, c, host, -, hparse, hscheme, hhost, -, -, rfl⟩ :=
    prepareTrimmed_cases h hs
  have hlower := parse?_scheme hparse hscheme
  have hweb := isWeb_of_finish_write hlower hs
  have hnormal : isNormalizable parts.scheme = true := hscheme ▸ hweb.isNormalizable
  obtain ⟨named, rest, hcut⟩ := exists_authority ht hmarks hparse hscheme (by simp [hhost])
  have hbehind := parse?_behind hmarks hcut hparse hnormal
  refine ⟨parts, scheme, hparse, hscheme, hnormal, hbehind, ?_⟩
  have htidy := parse?_tidy hparse hnormal
  have htidy' : Parts.Tidy { parts with query := addPairs parts.query pairs } :=
    { htidy with query := addPairs_escaped pairs htidy.query }
  obtain ⟨authority, hauthority, hfront⟩ := front_undelimited hbehind.user hbehind.host scheme
  have hfront' : Parts.front { parts with query := addPairs parts.query pairs } scheme =
      scheme ++ ("://" ++ authority) := hfront
  rw [finish_write htidy' hlower hfront']
  have hunmarked : Unmarked (Percent.recode (parts.decodes scheme) (rooted parts.path)) := by
    rw [hbehind.path]
    exact unmarked_recode (unmarked_rooted
      ⟨not_mem_normalize (by decide) (by decide) _, not_mem_normalize (by decide) (by decide) _⟩)
  obtain ⟨root, hroot⟩ := exists_recode_rooted (parts.decodes scheme) htidy.path
  have hquery : ∀ q, (shown (addPairs parts.query pairs)).map
      (Percent.recode (parts.decodes scheme)) = some q → CodePoint.scalar '#' ∉ q := by
    intro q hq
    obtain ⟨u, hu, rfl⟩ := Option.map_eq_some_iff.mp hq
    have hadded := shown_eq_some hu
    rw [hbehind.query] at hadded
    exact not_mem_recode (by decide) (hash_not_mem_addPairs pairs hadded)
  have hdecodes : Parts.decodes { parts with query := addPairs parts.query pairs } scheme =
      parts.decodes scheme := rfl
  simp only [hdecodes]
  rw [hroot] at hunmarked ⊢
  exact path_of_written hweb hauthority.finish hunmarked hquery _

/-- Behind a front without query and fragment, an address has a path and a query of its own: the
front settles only whether their escapes of unreserved characters are decoded. -/
theorem exists_recode (ht : IsFront t) (hmarks : Unmarked t) :
    ∃ decodes, (Unscoped (hostPort t) → decodes = true) ∧
      ∀ p pairs prepared,
        prepareTrimmed idna (t ++ CodePoint.scalar '/' :: p) pairs = .ok prepared →
        isSendable prepared = true →
        path prepared = Percent.recode decodes (rooted (Percent.normalize Percent.isPath
          (removeDots (basePath t ++ CodePoint.scalar '/' :: strip p)))) ∧
        query? prepared = (shown (addPairs ((query? p).map (Percent.normalize Percent.isQuery))
          pairs)).map (Percent.recode decodes) := by
  by_cases hsome : ∃ p pairs prepared,
      prepareTrimmed idna (t ++ CodePoint.scalar '/' :: p) pairs = .ok prepared ∧
        isSendable prepared = true
  · obtain ⟨p, pairs, prepared, h, hs⟩ := hsome
    obtain ⟨parts, scheme, hparse, hscheme, hnormal, hbehind, -, -⟩ :=
      prepared_behind ht hmarks h hs
    refine ⟨parts.decodes scheme, fun hunscoped => ?_, fun p' pairs' prepared' h' hs' => ?_⟩
    · have hmark : CodePoint.scalar '%' ∉ scheme := fun h =>
        (parse?_scheme hparse hscheme _ h).isAddress.2 rfl
      obtain ⟨a, b, ha, hb, hfront⟩ := front_escaped hmark (parse?_tidy hparse hnormal).user
      obtain ⟨u, hu⟩ := (ha.append ((hbehind.escaped hunscoped).append hb)).exists_decoded
      rw [Parts.decodes, hfront, hu]
      rfl
    · obtain ⟨parts', scheme', hparse', hscheme', -, hbehind', hpath', hquery'⟩ :=
        prepared_behind ht hmarks h' hs'
      obtain ⟨parts'', hparse'', hsame⟩ := parse?_sameSite ht hparse hscheme p'
      obtain rfl := Option.some.inj (hparse'.symm.trans hparse'')
      have hdecodes : parts'.decodes scheme' = parts.decodes scheme := by
        rw [hsame.scheme, hscheme] at hscheme'
        obtain rfl := Option.some.inj hscheme'
        unfold Parts.decodes Parts.front
        rw [hsame.user, hsame.host, hsame.port]
      rw [hpath', hquery', hdecodes, hbehind'.path, hbehind'.query]
      exact ⟨rfl, rfl⟩
  · refine ⟨true, fun _ => rfl, fun p pairs prepared h hs => ?_⟩
    exact absurd ⟨p, pairs, prepared, h, hs⟩ hsome

/-- The path of a resource of a service, in the form in which it is sent. -/
def pathUnder (base : Text) (decodes : Bool) (resource : Text) : Text :=
  Percent.recode decodes (rooted (Percent.normalize Percent.isPath
    (removeDots (basePath (Text.trimLeft CodePoint.isSpacing base ++ "/2.0") ++
      CodePoint.scalar '/' :: strip resource))))

/-- The query of a resource with form pairs added to it, in the form in which it is sent. -/
def queryUnder (decodes : Bool) (resource : Text) (pairs : List (Text × Text)) : Option Text :=
  (shown (addPairs ((query? resource).map (Percent.normalize Percent.isQuery)) pairs)).map
    (Percent.recode decodes)

/-- The host of a service and its port, as they are written. -/
def hostUnder (base : Text) : Text :=
  hostPort (Text.trimLeft CodePoint.isSpacing base ++ "/2.0")

/-- The resources of a service are sent to with paths and queries of their own. -/
theorem exists_pathUnder {base : Text} (hmarks : Unmarked base) :
    ∃ decodes, (Unscoped (hostUnder base) → decodes = true) ∧
      ∀ resource pairs prepared, prepare idna (under base resource) pairs = .ok prepared →
        isSendable prepared = true → path prepared = pathUnder base decodes resource ∧
          query? prepared = queryUnder decodes resource pairs := by
  have htrim : Text.trimLeft CodePoint.isSpacing base ⊆ base :=
    (List.dropWhile_sublist _).subset
  have hversion : ∀ c, c ∉ Text.ofString "/2.0" → c ∉ base →
      c ∉ Text.trimLeft CodePoint.isSpacing base ++ Text.ofString "/2.0" := by
    intro c hc hbase hmem
    rcases List.mem_append.mp hmem with hmem | hmem
    · exact hbase (htrim hmem)
    · exact hc hmem
  obtain ⟨decodes, hdecodes, hall⟩ := exists_recode
    (isFront_version (Text.trimLeft CodePoint.isSpacing base))
    ⟨hversion _ (by decide) hmarks.1, hversion _ (by decide) hmarks.2⟩
  refine ⟨decodes, hdecodes, fun resource pairs prepared h => ?_⟩
  rw [prepare_eq_trimmed, trimLeft_under] at h
  exact hall resource pairs prepared h

end PullGate.Url
