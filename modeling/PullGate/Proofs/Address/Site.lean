import Mathlib.Data.List.TakeDrop
import PullGate.Proofs.Address.Host

/-! The site of an address: its scheme, user, host and port.  What follows the first path segments
of an address has no part in them, neither before the address is prepared nor after. -/

namespace PullGate.Url

variable {t a b : Text} {idna : Idna}

/-! ### Splitting -/

def before (mark : CodePoint) (t : Text) : Text :=
  match Text.cut? mark t with
  | some (a, _) => a
  | none => t

def strip (t : Text) : Text := (splitQuery (splitFragment t).1).1

/-- Scheme and authority of what is left without query and fragment. -/
def site (t : Text) : Option Text × Text := ((splitAuthority t).1, (splitAuthority t).2.1)

theorem strip_eq_before (t : Text) : strip t = before '?' (before '#' t) := by
  have hfragment : (splitFragment t).1 = before '#' t := by
    unfold splitFragment before
    cases Text.cut? '#' t <;> rfl
  have hquery : ∀ u, (splitQuery u).1 = before '?' u := by
    intro u
    unfold splitQuery before
    cases Text.cut? '?' u <;> rfl
  rw [strip, hfragment, hquery]

theorem before_append (mark : CodePoint) (hmark : mark ≠ CodePoint.scalar '/') (t : Text) :
    (∃ front, ∀ p, before mark (t ++ CodePoint.scalar '/' :: p) = front) ∨
      ∀ p, ∃ p', before mark (t ++ CodePoint.scalar '/' :: p) =
        t ++ CodePoint.scalar '/' :: p' := by
  unfold before
  simp only [Text.cut?_append]
  cases Text.cut? mark t with
  | some cut => exact .inl ⟨cut.1, fun _ => rfl⟩
  | none =>
    right
    intro p
    cases hp : Text.cut? mark p with
    | none => exact ⟨p, by simp [Text.cut?, hp, hmark.symm]⟩
    | some cut => exact ⟨cut.1, by simp [Text.cut?, hp, hmark.symm]⟩

theorem strip_append (t : Text) :
    (∃ front, ∀ p, strip (t ++ CodePoint.scalar '/' :: p) = front) ∨
      ∀ p, ∃ p', strip (t ++ CodePoint.scalar '/' :: p) = t ++ CodePoint.scalar '/' :: p' := by
  simp only [strip_eq_before]
  rcases before_append '#' (by decide) t with ⟨front, hfront⟩ | hrest
  · exact .inl ⟨before '?' front, fun p => by rw [hfront]⟩
  · rcases before_append '?' (by decide) t with ⟨front, hfront⟩ | hrest'
    · refine .inl ⟨front, fun p => ?_⟩
      obtain ⟨p', hp'⟩ := hrest p
      rw [hp', hfront]
    · right
      intro p
      obtain ⟨p', hp'⟩ := hrest p
      obtain ⟨p'', hp''⟩ := hrest' p'
      exact ⟨p'', by rw [hp', hp'']⟩

theorem splitScheme?_append {inner : CodePoint → Bool} (hinner : inner '/' = false) (t p : Text) :
    splitScheme? inner (t ++ CodePoint.scalar '/' :: p) =
      (splitScheme? inner t).map fun (scheme, rest) =>
        (scheme, rest ++ CodePoint.scalar '/' :: p) := by
  unfold splitScheme?
  rw [Text.cut?_append]
  cases hcut : Text.cut? ':' t with
  | some cut =>
    obtain ⟨a, b⟩ := cut
    cases a with
    | nil => rfl
    | cons c scheme =>
      simp only
      split <;> rfl
  | none =>
    cases hp : Text.cut? ':' p with
    | none => simp [Text.cut?, hp]
    | some cut =>
      cases t with
      | nil =>
        have hslash : CodePoint.isAlphaAscii '/' = false := by decide
        simp [Text.cut?, hp, hslash]
      | cons c t => simp [Text.cut?, hp, hinner]

theorem upTo_append (stop : CodePoint → Bool) (hstop : stop '/' = true) (t p : Text) :
    (upTo stop (t ++ CodePoint.scalar '/' :: p)).1 = (upTo stop t).1 := by
  simp only [upTo, List.span_eq_takeWhile_dropWhile]
  rw [List.takeWhile_append]
  split
  · next hall =>
    rw [List.takeWhile_cons_of_neg (by simp [hstop]), List.append_nil]
    exact ((List.takeWhile_prefix _).eq_of_length hall).symm
  · rfl

/-- The site lies in front of a path that follows, once scheme and authority are under way. -/
theorem site_append {scheme rest : Text} (h : splitScheme? isSchemeChar t = some (scheme, rest))
    (hrest : 2 ≤ rest.length) (p : Text) : site (t ++ CodePoint.scalar '/' :: p) = site t := by
  match rest, hrest with
  | x :: y :: rest, _ =>
    unfold site splitAuthority
    rw [splitScheme?_append (by decide), h]
    by_cases hmark : x = CodePoint.scalar '/' ∧ y = CodePoint.scalar '/'
    · obtain ⟨rfl, rfl⟩ := hmark
      simp only [Option.map_some, List.cons_append]
      rw [upTo_append _ (by decide)]
    · simp only [Option.map_some, List.cons_append]
      split
      · next heq =>
        simp only [List.cons.injEq] at heq
        exact absurd ⟨heq.1, heq.2.1⟩ hmark
      · split
        · next heq =>
          simp only [List.cons.injEq] at heq
          exact absurd ⟨heq.1, heq.2.1⟩ hmark
        · rfl

theorem site_strip_append {scheme rest : Text}
    (h : splitScheme? isSchemeChar t = some (scheme, rest)) (hrest : 2 ≤ rest.length)
    (p p' : Text) : site (strip (t ++ CodePoint.scalar '/' :: p)) =
      site (strip (t ++ CodePoint.scalar '/' :: p')) := by
  rcases strip_append t with ⟨front, hfront⟩ | hpath
  · rw [hfront, hfront]
  · obtain ⟨q, hq⟩ := hpath p
    obtain ⟨q', hq'⟩ := hpath p'
    rw [hq, hq', site_append h hrest, site_append h hrest]

theorem credentials?_append {scheme rest : Text}
    (h : splitScheme? isSchemeChar t = some (scheme, rest)) (hrest : 2 ≤ rest.length)
    (p p' : Text) : credentials? (t ++ CodePoint.scalar '/' :: p) =
      credentials? (t ++ CodePoint.scalar '/' :: p') := by
  have hauthority := congrArg Prod.snd (site_strip_append h hrest p p')
  unfold credentials?
  simp only [site, strip] at hauthority
  simp only [hauthority]

/-! ### Parsing -/

/-- The user of an authority, if it has one, and what is left for host and port. -/
def userHost (authority : Text) : Option Text × Text :=
  match Text.cutLast? '@' authority with
  | some (user, hostPort) => (if user.isEmpty then none else some user, hostPort)
  | none => (none, authority)

/-- Parts in normal form, but for the host, which is given so. -/
def Parts.normal (p : Parts) (host : Text) : Parts :=
  { p with
    user := p.user.map (Percent.normalize Percent.isUserInfo)
    host
    path := Percent.normalize Percent.isPath (removeDots p.path)
    query := p.query.map (Percent.normalize Percent.isQuery)
    fragment := p.fragment.map (Percent.normalize Percent.isQuery) }

/-- The parts of an address that was split: the later half of parsing. -/
def assemble (idna : Idna) (scheme : Option Text) (authority path : Text)
    (query fragment : Option Text) : Option Parts := do
  let (host, port) ← host? (userHost authority).2
  let parts : Parts := ⟨scheme.map Text.lowerAscii, (userHost authority).1, host, port, path, query,
    fragment⟩
  if !isNormalizable (scheme.map Text.lowerAscii) then some parts
  else do some (parts.normal (← idna.host? host))

theorem assemble_eq_some {scheme : Option Text} {authority path : Text}
    {query fragment : Option Text} {parts : Parts} :
    assemble idna scheme authority path query fragment = some parts ↔
      ∃ host port, host? (userHost authority).2 = some (host, port) ∧
        if isNormalizable (scheme.map Text.lowerAscii) then
          ∃ written, idna.host? host = some written ∧ Parts.normal ⟨scheme.map Text.lowerAscii,
            (userHost authority).1, host, port, path, query, fragment⟩ written = parts
        else ⟨scheme.map Text.lowerAscii, (userHost authority).1, host, port, path, query,
          fragment⟩ = parts := by
  unfold assemble
  simp only [Option.bind_eq_bind, Option.bind_eq_some_iff, Prod.exists]
  refine exists_congr fun host => exists_congr fun port => and_congr_right fun _ => ?_
  cases isNormalizable (scheme.map Text.lowerAscii) with
  | false => simp
  | true => simp [Option.bind_eq_some_iff]

theorem parse?_eq (url : Text) : ∃ path query fragment,
    parse? idna url = assemble idna (site (strip (markAuthority url))).1
      (site (strip (markAuthority url))).2 path query fragment :=
  ⟨(splitAuthority (strip (markAuthority url))).2.2,
    (splitQuery (splitFragment (markAuthority url)).1).2,
    (splitFragment (markAuthority url)).2, rfl⟩

/-- Two addresses with one scheme, user, host and port. -/
structure Parts.SameSite (p p' : Parts) : Prop where
  scheme : p'.scheme = p.scheme
  user : p'.user = p.user
  host : p'.host = p.host
  port : p'.port = p.port

/-- Parts in which every percent sign has its escape, or in the host a zone, behind it. -/
structure Parts.Tidy (p : Parts) : Prop where
  user : ∀ user, p.user = some user → Percent.Escaped user
  host : Percent.Closed p.host
  path : Percent.Escaped p.path
  query : ∀ query, p.query = some query → Percent.Escaped query
  fragment : ∀ fragment, p.fragment = some fragment → Percent.Escaped fragment

theorem assemble_sameSite {scheme : Option Text} {authority path path' : Text}
    {query query' fragment fragment' : Option Text} {parts : Parts}
    (h : assemble idna scheme authority path query fragment = some parts) :
    ∃ parts', assemble idna scheme authority path' query' fragment' = some parts' ∧
      parts.SameSite parts' := by
  obtain ⟨host, port, hhost, h⟩ := assemble_eq_some.mp h
  split at h
  · next hnormal =>
    obtain ⟨written, hwritten, rfl⟩ := h
    refine ⟨Parts.normal ⟨_, _, host, port, path', query', fragment'⟩ written,
      assemble_eq_some.mpr ⟨host, port, hhost, ?_⟩, ⟨rfl, rfl, rfl, rfl⟩⟩
    rw [if_pos hnormal]
    exact ⟨written, hwritten, rfl⟩
  · next hnormal =>
    subst h
    refine ⟨⟨_, _, host, port, path', query', fragment'⟩,
      assemble_eq_some.mpr ⟨host, port, hhost, ?_⟩, ⟨rfl, rfl, rfl, rfl⟩⟩
    rw [if_neg hnormal]

theorem isUserInfo_of_isHexDigit {c : CodePoint} (h : c.isHexDigit = true) :
    Percent.isUserInfo c = true := by
  simp [Percent.isUserInfo, isUnreserved_of_isHexDigit h]

theorem isPath_of_isHexDigit {c : CodePoint} (h : c.isHexDigit = true) :
    Percent.isPath c = true := by
  simp [Percent.isPath, isUserInfo_of_isHexDigit h]

theorem isQuery_of_isHexDigit {c : CodePoint} (h : c.isHexDigit = true) :
    Percent.isQuery c = true := by
  simp [Percent.isQuery, isPath_of_isHexDigit h]

theorem option_map_escaped {component : Option Text} {u : Text} {plain : CodePoint → Bool}
    (hmark : plain '%' = false) (hhex : ∀ c : CodePoint, c.isHexDigit = true → plain c = true)
    (h : component.map (Percent.normalize plain) = some u) : Percent.Escaped u := by
  obtain ⟨v, -, rfl⟩ := Option.map_eq_some_iff.mp h
  exact Percent.normalize_escaped hmark hhex v

theorem assemble_tidy {scheme : Option Text} {authority path : Text} {query fragment : Option Text}
    {parts : Parts} (h : assemble idna scheme authority path query fragment = some parts) :
    parts.scheme = scheme.map Text.lowerAscii ∧
      (isNormalizable parts.scheme = true → parts.Tidy) := by
  obtain ⟨host, port, hhost, h⟩ := assemble_eq_some.mp h
  split at h
  · obtain ⟨written, hwritten, rfl⟩ := h
    refine ⟨rfl, fun _ => ⟨?_, ?_, ?_, ?_, ?_⟩⟩
    · exact fun _ => option_map_escaped (by decide) fun _ => isUserInfo_of_isHexDigit
    · exact Idna.closed_host? hhost hwritten
    · exact Percent.normalize_escaped (by decide) (fun _ => isPath_of_isHexDigit) _
    · exact fun _ => option_map_escaped (by decide) fun _ => isQuery_of_isHexDigit
    · exact fun _ => option_map_escaped (by decide) fun _ => isQuery_of_isHexDigit
  · next hnormal =>
    subst h
    exact ⟨rfl, fun h => absurd h hnormal⟩

/-! ### Writing -/

/-- What stands in front of the path of a written address. -/
def Parts.front (p : Parts) (scheme : Text) : Text :=
  let user : Text := match p.user with
    | some user => user ++ ("@" : Text)
    | none => []
  let port : Text := match p.port with
    | some n => if n = 0 then [] else .scalar ':' :: Text.ofNat n
    | none => []
  scheme ++ ("://" ++ (user ++ p.host ++ port))

theorem marked_escaped (mark : CodePoint) (hmark : mark ≠ CodePoint.scalar '%')
    {component : Option Text} (h : ∀ u, component = some u → Percent.Escaped u) :
    Percent.Escaped (marked mark component) := by
  unfold marked
  split
  · exact .of_not_mem List.not_mem_nil
  · exact .of_not_mem List.not_mem_nil
  · exact (h _ rfl).cons hmark

def rooted : Text → Text
  | .scalar '/' :: rest => .scalar '/' :: rest
  | path => .scalar '/' :: path

theorem rooted_escaped {path : Text} (h : Percent.Escaped path) :
    ∃ rest, rooted path = CodePoint.scalar '/' :: rest ∧ Percent.Escaped rest := by
  unfold rooted
  split
  · exact ⟨_, rfl, Percent.Escaped.of_append (s := [CodePoint.scalar '/']) h⟩
  · exact ⟨_, rfl, h⟩

theorem write_front (p : Parts) (scheme : Text) : p.write scheme = p.front scheme ++
    (rooted p.path ++ (marked '?' p.query ++ marked '#' p.fragment)) := by
  simp only [Parts.write, Parts.front, List.append_assoc]
  rfl

/-- A path, a query and a fragment with nothing but escapes leave a written address so. -/
theorem write_eq (p : Parts) (scheme : Text) (hpath : Percent.Escaped p.path)
    (hquery : ∀ query, p.query = some query → Percent.Escaped query)
    (hfragment : ∀ fragment, p.fragment = some fragment → Percent.Escaped fragment) :
    ∃ rest, Percent.Escaped rest ∧
      p.write scheme = p.front scheme ++ CodePoint.scalar '/' :: rest := by
  obtain ⟨rest, hrest, hescaped⟩ := rooted_escaped hpath
  rw [write_front, hrest]
  exact ⟨_, hescaped.append ((marked_escaped '?' (by decide) hquery).append
    (marked_escaped '#' (by decide) hfragment)), rfl⟩

theorem mark_not_mem_natDigits (n : Nat) {rest : Text} (h : CodePoint.scalar '%' ∉ rest) :
    CodePoint.scalar '%' ∉ Text.natDigits n rest := by
  have hdigit : ∀ d < 10, CodePoint.scalar '%' ≠ CodePoint.ofDigit d := by decide
  induction n, rest using Text.natDigits.induct with
  | case1 n rest hn =>
    rw [Text.natDigits, if_pos hn]
    simpa [h] using hdigit n hn
  | case2 n rest hn ih =>
    rw [Text.natDigits, if_neg hn]
    apply ih
    simpa [h] using hdigit (n % 10) (Nat.mod_lt n (by decide))

/-- Around the host, a front has nothing but escapes. -/
theorem front_escaped {p : Parts} {scheme : Text} (hscheme : CodePoint.scalar '%' ∉ scheme)
    (huser : ∀ user, p.user = some user → Percent.Escaped user) :
    ∃ a b, Percent.Escaped a ∧ Percent.Escaped b ∧ p.front scheme = a ++ (p.host ++ b) := by
  have hcolon : CodePoint.scalar '%' ∉ Text.ofString "://" := by decide
  have hat : CodePoint.scalar '%' ∉ Text.ofString "@" := by decide
  have hassoc : ∀ u v w x y : Text, u ++ (v ++ (w ++ x ++ y)) = u ++ v ++ w ++ (x ++ y) := by
    simp
  unfold Parts.front
  rw [hassoc]
  refine ⟨_, _, ?_, ?_, rfl⟩
  · refine Percent.Escaped.append ((Percent.Escaped.of_not_mem hscheme).append
      (.of_not_mem hcolon)) ?_
    split
    · next user heq => exact (huser user heq).append (.of_not_mem hat)
    · exact .of_not_mem List.not_mem_nil
  · apply Percent.Escaped.of_not_mem
    split
    · next n _ =>
      split
      · exact List.not_mem_nil
      · have hdigits := mark_not_mem_natDigits n List.not_mem_nil
        simpa [Text.ofNat] using hdigits
    · exact List.not_mem_nil

theorem front_closed {p : Parts} {scheme : Text} (hscheme : CodePoint.scalar '%' ∉ scheme)
    (huser : ∀ user, p.user = some user → Percent.Escaped user) (hhost : Percent.Closed p.host) :
    Percent.Closed (p.front scheme) := by
  obtain ⟨a, b, ha, hb, heq⟩ := front_escaped (p := p) hscheme huser
  rw [heq]
  exact ha.closed.append (hhost.append hb.closed)

theorem addPairs_escaped {query : Option Text} (pairs : List (Text × Text))
    (h : ∀ u, query = some u → Percent.Escaped u) :
    ∀ u, addPairs query pairs = some u → Percent.Escaped u := by
  have hand : Percent.Escaped (Text.ofString "&") := .of_not_mem (by decide)
  intro u hu
  unfold addPairs at hu
  split at hu
  · exact h u hu
  · split at hu
    · obtain rfl := Option.some.inj hu
      exact Percent.encodePairs_escaped pairs
    · obtain rfl := Option.some.inj hu
      exact Percent.encodePairs_escaped pairs
    · obtain rfl := Option.some.inj hu
      exact ((h _ rfl).append hand).append (Percent.encodePairs_escaped pairs)

end PullGate.Url
