import PullGate.Proofs.Json.Indented
import PullGate.Proofs.Json.Sound

/-! How deeply a JSON text nests, by a scan of its brackets, and what the reader makes of it.  A
text is refused as too deep only if the scan finds more containers open at once than there is room
for; if it is a JSON text, then it is refused exactly in that case.  No text opens more than it is
long, so what is read with any room is read the same with room for all. -/

namespace PullGate.Json

variable {t u rest : Text} {c : CodePoint} {fuel depth opened : Nat}

/-! ### The scan -/

/-- Where a scan stands: outside of strings, in a string, or behind a backslash in one. -/
inductive Position where
  | outside
  | inside
  | escaped

def isOpening : CodePoint → Bool
  | .scalar '[' | .scalar '\x7b' => true
  | _ => false

def isClosing : CodePoint → Bool
  | .scalar ']' | .scalar '\x7d' => true
  | _ => false

/-- The most containers that are open at once from here on, with so many open already. -/
def deepest : Position → (opened : Nat) → Text → Nat
  | _, opened, [] => opened
  | .outside, opened, c :: t =>
    if c = '"' then deepest .inside opened t
    else if isOpening c then deepest .outside (opened + 1) t
    else if isClosing c then max opened (deepest .outside (opened - 1) t)
    else deepest .outside opened t
  | .inside, opened, c :: t =>
    if c = '"' then deepest .outside opened t
    else if c = '\\' then deepest .escaped opened t
    else deepest .inside opened t
  | .escaped, opened, _ :: t => deepest .inside opened t

/-- The most containers that are open at once in a text. -/
def nesting (t : Text) : Nat := deepest .outside 0 t

theorem le_deepest (p : Position) (opened : Nat) (t : Text) : opened ≤ deepest p opened t := by
  fun_induction deepest p opened t
  case case1 => exact Nat.le_refl _
  case case3 ih => omega
  case case4 => exact Nat.le_max_left ..
  all_goals assumption

theorem deepest_le (p : Position) (opened : Nat) (t : Text) :
    deepest p opened t ≤ opened + t.length := by
  fun_induction deepest p opened t
  all_goals simp only [List.length_cons, List.length_nil]
  all_goals omega

theorem nesting_le_length (t : Text) : nesting t ≤ t.length := by
  have h := deepest_le .outside 0 t
  rwa [Nat.zero_add] at h

theorem deepest_of_isNeutral (hc : isNeutral c = true) :
    deepest .outside opened (c :: t) = deepest .outside opened t := by
  have hquote : c ≠ '"' := by
    rintro rfl
    cases hc
  have hopening : isOpening c = false := by
    unfold isOpening
    split
    all_goals first | rfl | cases hc
  have hclosing : isClosing c = false := by
    unfold isClosing
    split
    all_goals first | rfl | cases hc
  simp only [deepest, hquote, hopening, hclosing, if_false, Bool.false_eq_true]

theorem Skips.deepest_eq (h : Skips t rest) :
    deepest .outside opened t = deepest .outside opened rest := by
  obtain ⟨before, hbefore, rfl⟩ := h
  induction before with
  | nil => rfl
  | cons c before ih =>
    rw [List.all_cons, Bool.and_eq_true] at hbefore
    rw [List.cons_append, deepest_of_isNeutral hbefore.1, ih hbefore.2]

@[simp] theorem deepest_skipSpace :
    deepest .outside opened (skipSpace t) = deepest .outside opened t :=
  (skips_skipSpace t).deepest_eq.symm

theorem deepest_of_skipSpace (h : skipSpace t = c :: u) :
    deepest .outside opened t = deepest .outside opened (c :: u) := by
  rw [← h, deepest_skipSpace]

theorem deepest_closing (hc : isClosing c = true) :
    deepest .outside (opened + 1) (c :: t) = max (opened + 1) (deepest .outside opened t) := by
  unfold isClosing at hc
  split at hc
  · rfl
  · rfl
  · cases hc

/-! ### Strings -/

theorem deepest_inside (hquote : c ≠ '"') (hslash : c ≠ '\\') :
    deepest .inside opened (c :: t) = deepest .inside opened t := by
  simp only [deepest, hquote, hslash, if_false]

theorem deepest_escape {e : CodePoint} :
    deepest .inside opened (.scalar '\\' :: e :: t) = deepest .inside opened t := rfl

theorem deepest_hexDigit (h : c.hexDigit?.isSome = true) :
    deepest .inside opened (c :: t) = deepest .inside opened t := by
  apply deepest_inside
  · rintro rfl
    cases h
  · rintro rfl
    cases h

theorem isSome_of_unit? {a b c d unit : CodePoint} (h : unit? a b c d = some unit) :
    a.hexDigit?.isSome = true ∧ b.hexDigit?.isSome = true ∧ c.hexDigit?.isSome = true ∧
      d.hexDigit?.isSome = true := by
  unfold unit? at h
  cases ha : a.hexDigit? <;> cases hb : b.hexDigit? <;> cases hc : c.hexDigit? <;>
    cases hd : d.hexDigit? <;> simp [ha, hb, hc, hd] at h ⊢

/-- Behind a string that was read the scan stands outside again. -/
theorem deepest_string {start : Nat} {s : Text} (h : readString start t = .ok (s, rest)) :
    deepest .inside opened t = deepest .outside opened rest := by
  fun_induction readString start t generalizing s
  case case2 =>
    cases h
    rfl
  case case4 c t hquote hlow hslash ih =>
    obtain ⟨⟨s, rest⟩, hread, heq⟩ := exists_of_map_eq_ok h
    cases heq
    rw [deepest_inside hquote (by simpa using hslash), ih hread]
  case case7 slash hquote hlow hslash a b c d t unit hunit hne ih =>
    obtain ⟨⟨s, rest⟩, hread, heq⟩ := exists_of_map_eq_ok h
    cases heq
    obtain rfl : slash = .scalar '\\' := by simpa using hslash
    obtain ⟨ha, hb, hc, hd⟩ := isSome_of_unit? hunit
    rw [deepest_escape, deepest_hexDigit ha, deepest_hexDigit hb, deepest_hexDigit hc,
      deepest_hexDigit hd, ih hread]
  case case9 slash hquote hlow hslash e t hno c hescape ih =>
    obtain ⟨⟨s, rest⟩, hread, heq⟩ := exists_of_map_eq_ok h
    cases heq
    obtain rfl : slash = .scalar '\\' := by simpa using hslash
    rw [deepest_escape, ih hread]
  all_goals cases h

/-! ### What was read -/

/-- The scan over what was read, before the rest: it reaches no higher than `top`, the rest apart.
-/
def Reaches (top whole rest : Nat) : Prop := rest ≤ whole ∧ whole ≤ max top rest

theorem Reaches.refl (top n : Nat) : Reaches top n n := ⟨le_rfl, le_max_right ..⟩

theorem Reaches.trans {top a b n : Nat} (hab : Reaches top a b) (hb : Reaches top b n) :
    Reaches top a n := by
  unfold Reaches at *
  omega

/-- A container that is closed takes one open container more. -/
theorem reaches_closing (hc : isClosing c = true) (hdepth : opened + 1 ≤ depth) :
    Reaches depth (deepest .outside (opened + 1) (c :: t)) (deepest .outside opened t) := by
  rw [deepest_closing hc]
  unfold Reaches
  omega

/-- What is read with so much fuel nests no deeper than it may. -/
structure Measured (fuel : Nat) : Prop where
  value : ∀ {depth t j rest}, readValue fuel depth t = .ok (j, rest) → ∀ opened,
    Reaches (opened + depth) (deepest .outside opened t) (deepest .outside opened rest)
  items : ∀ {depth t items rest}, readItems fuel depth t = .ok (items, rest) → ∀ opened,
    Reaches (opened + 1 + depth) (deepest .outside (opened + 1) t) (deepest .outside opened rest)
  members : ∀ {depth before t members rest},
    readMembers fuel depth before t = .ok (members, rest) → ∀ opened,
    Reaches (opened + 1 + depth) (deepest .outside (opened + 1) t) (deepest .outside opened rest)

theorem measured_zero : Measured 0 where
  value h := by
    unfold readValue at h
    cases h
  items h := by
    unfold readItems at h
    cases h
  members h := by
    unfold readMembers at h
    cases h

theorem Measured.readValue_succ {j : Json} (hm : Measured fuel)
    (h : readValue (fuel + 1) depth t = .ok (j, rest)) (opened : Nat) :
    Reaches (opened + depth) (deepest .outside opened t) (deepest .outside opened rest) := by
  unfold readValue at h
  dsimp only at h
  split at h
  · next u =>
    obtain ⟨⟨s, rest⟩, hread, heq⟩ := exists_of_map_eq_ok h
    cases heq
    show Reaches _ (deepest .inside opened u) _
    rw [deepest_string hread]
    exact .refl ..
  · next u =>
    show Reaches _ (deepest .outside (opened + 1) u) _
    split at h
    · cases h
    · next depth =>
      split at h
      · next heq =>
        cases h
        rw [deepest_of_skipSpace heq]
        exact reaches_closing rfl (by omega)
      · obtain ⟨⟨items, rest⟩, hread, heq⟩ := exists_of_map_eq_ok h
        cases heq
        have hitems := hm.items hread opened
        rwa [deepest_skipSpace, Nat.add_assoc, Nat.add_comm 1] at hitems
  · next u =>
    show Reaches _ (deepest .outside (opened + 1) u) _
    split at h
    · cases h
    · next depth =>
      split at h
      · next heq =>
        cases h
        rw [deepest_of_skipSpace heq]
        exact reaches_closing rfl (by omega)
      · obtain ⟨⟨members, rest⟩, hread, heq⟩ := exists_of_map_eq_ok h
        cases heq
        have hmembers := hm.members hread opened
        rwa [deepest_skipSpace, Nat.add_assoc, Nat.add_comm 1] at hmembers
  · obtain ⟨-, hskips⟩ : Faithful depth j ∧ Skips t rest := readScalar_sound h
    rw [hskips.deepest_eq]
    exact .refl ..

theorem Measured.readItems_succ {items : List Json} (hm : Measured fuel)
    (h : readItems (fuel + 1) depth t = .ok (items, rest)) (opened : Nat) :
    Reaches (opened + 1 + depth) (deepest .outside (opened + 1) t)
      (deepest .outside opened rest) := by
  unfold readItems at h
  dsimp only at h
  split at h
  · cases h
  · next item u hread =>
    apply (hm.value hread (opened + 1)).trans
    split at h
    · next heq =>
      cases h
      rw [deepest_of_skipSpace heq]
      exact reaches_closing rfl (by omega)
    · next v heq =>
      obtain ⟨⟨items, rest⟩, hread, heq'⟩ := exists_of_map_eq_ok h
      cases heq'
      have hitems := hm.items hread opened
      rw [deepest_skipSpace] at hitems
      rwa [deepest_of_skipSpace heq, deepest_of_isNeutral rfl]
    · cases h

theorem Measured.readMembers_succ {before members : List (Text × Json)} (hm : Measured fuel)
    (h : readMembers (fuel + 1) depth before t = .ok (members, rest)) (opened : Nat) :
    Reaches (opened + 1 + depth) (deepest .outside (opened + 1) t)
      (deepest .outside opened rest) := by
  unfold readMembers at h
  dsimp only at h
  split at h
  · next u =>
    split at h
    · cases h
    · next key v hkey =>
      show Reaches _ (deepest .inside (opened + 1) u) _
      rw [deepest_string hkey]
      split at h
      · next w heq =>
        rw [deepest_of_skipSpace heq, deepest_of_isNeutral rfl]
        split at h
        · cases h
        · next value x hvalue =>
          have hreaches := hm.value hvalue (opened + 1)
          rw [deepest_skipSpace] at hreaches
          apply hreaches.trans
          split at h
          · next heq =>
            cases h
            rw [deepest_of_skipSpace heq]
            exact reaches_closing rfl (by omega)
          · next heq =>
            have hmembers := hm.members h opened
            rw [deepest_skipSpace] at hmembers
            rwa [deepest_of_skipSpace heq, deepest_of_isNeutral rfl]
          · cases h
      · cases h
  · cases h

theorem measured (fuel : Nat) : Measured fuel := by
  induction fuel with
  | zero => exact measured_zero
  | succ fuel ih => exact ⟨ih.readValue_succ, ih.readItems_succ, ih.readMembers_succ⟩

/-! ### What was too deep -/

theorem error_of_map {ε α β : Type} {x : Except ε α} {f : α → β} {e : ε}
    (h : x.map f = .error e) : x = .error e := by
  cases x with
  | error e' =>
    cases h
    rfl
  | ok a => cases h

theorem ne_tooDeep_readString {start : Nat} {container : Container} :
    readString start t ≠ .error (.tooDeep container) := by
  intro h
  fun_induction readString start t
  case case4 ih => exact ih (error_of_map h)
  case case7 ih => exact ih (error_of_map h)
  case case9 ih => exact ih (error_of_map h)
  all_goals cases h

theorem ne_tooDeep_readNumber? {negative : Bool} {container : Container} :
    readNumber? negative t ≠ some (.error (.tooDeep container)) := by
  intro h
  unfold readNumber? at h
  dsimp only at h
  obtain ⟨-, h⟩ := Option.ite_none_left_eq_some.mp h
  rcases ite_eq_iff.mp h with ⟨-, h⟩ | ⟨-, h⟩
  · rcases ite_eq_iff.mp (Option.some.inj h) with ⟨-, h⟩ | ⟨-, h⟩
    all_goals cases h
  · obtain ⟨d, -, heq⟩ := Option.map_eq_some_iff.mp h
    cases heq

theorem ne_tooDeep_readScalar {container : Container} :
    readScalar t ≠ .error (.tooDeep container) := by
  intro h
  unfold readScalar at h
  dsimp only at h
  split at h
  · next result hnumber =>
    subst h
    split at hnumber
    all_goals exact ne_tooDeep_readNumber? hnumber
  · split at h
    all_goals cases h

/-- What is too deep for the reader is so for the scan. -/
structure Exceeded (fuel : Nat) : Prop where
  value : ∀ {depth t container}, readValue fuel depth t = .error (.tooDeep container) →
    ∀ opened, opened + depth < deepest .outside opened t
  items : ∀ {depth t container}, readItems fuel depth t = .error (.tooDeep container) →
    ∀ opened, opened + depth < deepest .outside opened t
  members : ∀ {depth before t container},
    readMembers fuel depth before t = .error (.tooDeep container) →
    ∀ opened, opened + depth < deepest .outside opened t

theorem exceeded_zero : Exceeded 0 where
  value h := by
    unfold readValue at h
    cases h
  items h := by
    unfold readItems at h
    cases h
  members h := by
    unfold readMembers at h
    cases h

section Exceeded

variable {container : Container}

theorem Exceeded.readValue_succ (he : Exceeded fuel)
    (h : readValue (fuel + 1) depth t = .error (.tooDeep container)) (opened : Nat) :
    opened + depth < deepest .outside opened t := by
  unfold readValue at h
  dsimp only at h
  split at h
  · exact absurd (error_of_map h) ne_tooDeep_readString
  · next u =>
    show opened + depth < deepest .outside (opened + 1) u
    split at h
    · exact le_deepest _ (opened + 1) u
    · next depth =>
      split at h
      · cases h
      · have hitems := he.items (error_of_map h) (opened + 1)
        rw [deepest_skipSpace] at hitems
        omega
  · next u =>
    show opened + depth < deepest .outside (opened + 1) u
    split at h
    · exact le_deepest _ (opened + 1) u
    · next depth =>
      split at h
      · cases h
      · have hmembers := he.members (error_of_map h) (opened + 1)
        rw [deepest_skipSpace] at hmembers
        omega
  · exact absurd h ne_tooDeep_readScalar

theorem Exceeded.readItems_succ (he : Exceeded fuel)
    (h : readItems (fuel + 1) depth t = .error (.tooDeep container)) (opened : Nat) :
    opened + depth < deepest .outside opened t := by
  unfold readItems at h
  dsimp only at h
  split at h
  · next e hread =>
    cases h
    exact he.value hread opened
  · next item u hread =>
    have hle := ((measured fuel).value hread opened).1
    split at h
    · cases h
    · next v heq =>
      have hitems := he.items (error_of_map h) opened
      rw [deepest_skipSpace] at hitems
      rw [deepest_of_skipSpace heq, deepest_of_isNeutral rfl] at hle
      omega
    · cases h

theorem Exceeded.readMembers_succ {before : List (Text × Json)} (he : Exceeded fuel)
    (h : readMembers (fuel + 1) depth before t = .error (.tooDeep container)) (opened : Nat) :
    opened + depth < deepest .outside opened t := by
  unfold readMembers at h
  dsimp only at h
  split at h
  · next u =>
    split at h
    · next e hkey =>
      cases h
      exact absurd hkey ne_tooDeep_readString
    · next key v hkey =>
      show opened + depth < deepest .inside opened u
      rw [deepest_string hkey]
      split at h
      · next w heq =>
        rw [deepest_of_skipSpace heq, deepest_of_isNeutral rfl]
        split at h
        · next e hvalue =>
          cases h
          have hlt := he.value hvalue opened
          rwa [deepest_skipSpace] at hlt
        · next value x hvalue =>
          have hle := ((measured fuel).value hvalue opened).1
          rw [deepest_skipSpace] at hle
          split at h
          · cases h
          · next heq =>
            have hmembers := he.members h opened
            rw [deepest_skipSpace] at hmembers
            rw [deepest_of_skipSpace heq, deepest_of_isNeutral rfl] at hle
            omega
          · cases h
      · cases h
  · cases h

end Exceeded

theorem exceeded (fuel : Nat) : Exceeded fuel := by
  induction fuel with
  | zero => exact exceeded_zero
  | succ fuel ih => exact ⟨ih.readValue_succ, ih.readItems_succ, ih.readMembers_succ⟩

/-! ### Other limits -/

/-- The second limit gives the same outcome, unless the text is too deep for it. -/
def Agrees {α : Type} (outcome other : Read α) : Prop :=
  other = outcome ∨ ∃ container, other = .error (.tooDeep container)

theorem Agrees.refl {α : Type} (outcome : Read α) : Agrees outcome outcome := .inl rfl

theorem Agrees.map {α β : Type} {outcome other : Read α} (f : α → β) (h : Agrees outcome other) :
    Agrees (outcome.map f) (other.map f) := by
  rcases h with rfl | ⟨container, rfl⟩
  · exact .refl _
  · exact .inr ⟨container, rfl⟩

/-- What is read within one limit is read within another, unless it is too deep for it. -/
structure Lawful (fuel : Nat) : Prop where
  value : ∀ {depth t result}, readValue fuel depth t = .ok result → ∀ other,
    Agrees (.ok result) (readValue fuel other t)
  items : ∀ {depth t result}, readItems fuel depth t = .ok result → ∀ other,
    Agrees (.ok result) (readItems fuel other t)
  members : ∀ {depth before t result}, readMembers fuel depth before t = .ok result → ∀ other,
    Agrees (.ok result) (readMembers fuel other before t)

theorem lawful_zero : Lawful 0 where
  value h := by
    unfold readValue at h
    cases h
  items h := by
    unfold readItems at h
    cases h
  members h := by
    unfold readMembers at h
    cases h

theorem Lawful.readValue_succ {result : Json × Text} (hl : Lawful fuel)
    (h : readValue (fuel + 1) depth t = .ok result) (other : Nat) :
    Agrees (.ok result) (readValue (fuel + 1) other t) := by
  unfold readValue at h ⊢
  dsimp only at h ⊢
  split at h
  · exact .inl h
  · next u =>
    split at h
    · cases h
    · split
      · exact .inr ⟨_, rfl⟩
      · split at h
        · exact .inl h
        · obtain ⟨r, hread, rfl⟩ := exists_of_map_eq_ok h
          exact (hl.items hread _).map _
  · next u =>
    split at h
    · cases h
    · split
      · exact .inr ⟨_, rfl⟩
      · split at h
        · exact .inl h
        · obtain ⟨r, hread, rfl⟩ := exists_of_map_eq_ok h
          exact (hl.members hread _).map _
  · exact .inl h

theorem Lawful.readItems_succ {result : List Json × Text} (hl : Lawful fuel)
    (h : readItems (fuel + 1) depth t = .ok result) (other : Nat) :
    Agrees (.ok result) (readItems (fuel + 1) other t) := by
  unfold readItems at h ⊢
  dsimp only at h ⊢
  split at h
  · cases h
  · next item u hread =>
    rcases hl.value hread other with hother | ⟨container, hother⟩
    · rw [hother]
      dsimp only
      split at h
      · exact .inl h
      · obtain ⟨r, hread, rfl⟩ := exists_of_map_eq_ok h
        exact (hl.items hread _).map _
      · cases h
    · rw [hother]
      exact .inr ⟨container, rfl⟩

theorem Lawful.readMembers_succ {before : List (Text × Json)}
    {result : List (Text × Json) × Text} (hl : Lawful fuel)
    (h : readMembers (fuel + 1) depth before t = .ok result) (other : Nat) :
    Agrees (.ok result) (readMembers (fuel + 1) other before t) := by
  unfold readMembers at h ⊢
  dsimp only at h ⊢
  split at h
  · split at h
    · cases h
    · next key v hkey =>
      split at h
      · next w heq =>
        split at h
        · cases h
        · next value x hvalue =>
          rcases hl.value hvalue other with hother | ⟨container, hother⟩
          · rw [hother]
            dsimp only
            split at h
            · exact .inl h
            · exact hl.members h other
            · cases h
          · rw [hother]
            exact .inr ⟨container, rfl⟩
      · cases h
  · cases h

theorem lawful (fuel : Nat) : Lawful fuel := by
  induction fuel with
  | zero => exact lawful_zero
  | succ fuel ih => exact ⟨ih.readValue_succ, ih.readItems_succ, ih.readMembers_succ⟩

/-! ### Texts -/

/-- JSON text, however deep. -/
def IsText (t : Text) : Prop := ∃ j, read t = .ok j

section Texts

variable {room : Nat} {j : Json}

theorem readTo_of_readValue (hmark : t.head? ≠ some (.scalar '\uFEFF'))
    (h : readValue (2 * t.length + 2) room (skipSpace t) = .ok (j, rest))
    (hrest : skipSpace rest = []) : readTo room t = .ok j := by
  unfold readTo
  split
  · exact absurd rfl hmark
  · rw [h]
    dsimp only
    rw [hrest]

theorem lt_nesting_of_readTo {container : Container}
    (h : readTo room t = .error (.tooDeep container)) : room < nesting t := by
  unfold readTo at h
  split at h
  · cases h
  · split at h
    · next e hread =>
      cases h
      have hlt := (exceeded _).value hread 0
      rwa [deepest_skipSpace, Nat.zero_add] at hlt
    · split at h
      all_goals cases h

theorem nesting_le_of_readTo (h : readTo room t = .ok j) : nesting t ≤ room := by
  unfold readTo at h
  split at h
  · cases h
  · split at h
    · cases h
    · next value rest hread =>
      obtain ⟨-, hle⟩ := (measured _).value hread 0
      split at h
      · next hrest =>
        have hnil : deepest .outside 0 rest = 0 := by
          rw [← deepest_skipSpace, hrest]
          rfl
        rwa [deepest_skipSpace, hnil, Nat.zero_add, Nat.max_zero] at hle
      · cases h

theorem agrees_readTo (h : readTo room t = .ok j) (other : Nat) :
    Agrees (.ok j) (readTo other t) := by
  unfold readTo at h ⊢
  split at h
  · cases h
  · split at h
    · cases h
    · next value rest hread =>
      rcases (lawful _).value hread other with hother | ⟨container, hother⟩
      · rw [hother]
        exact .inl h
      · rw [hother]
        exact .inr ⟨container, rfl⟩

/-- What is read with some room is read without a limit. -/
theorem read_of_readTo (h : readTo room t = .ok j) : read t = .ok j := by
  rcases agrees_readTo h t.length with hread | ⟨container, htooDeep⟩
  · exact hread
  · exact absurd (lt_nesting_of_readTo htooDeep) (Nat.not_lt.mpr (nesting_le_length t))

/-- A JSON text is too deep for the reader if it nests deeper than there is room for, and only
then. -/
theorem IsText.tooDeep_iff (ht : IsText t) (room : Nat) :
    (∃ container, readTo room t = .error (.tooDeep container)) ↔ room < nesting t := by
  constructor
  · rintro ⟨container, hread⟩
    exact lt_nesting_of_readTo hread
  · intro hdeep
    obtain ⟨j, hj⟩ := ht
    rcases agrees_readTo hj room with hread | htooDeep
    · exact absurd (nesting_le_of_readTo hread) (Nat.not_le.mpr hdeep)
    · exact htooDeep

theorem Faithful.read_write (h : Faithful room j) : read (write j) = .ok j :=
  read_of_readTo h.readTo_write

theorem Faithful.read_writeIndented (h : Faithful room j) :
    read (writeIndented j ++ ("\n" : Text)) = .ok j :=
  read_of_readTo h.readTo_writeIndented

end Texts

/-! ### Nested brackets -/

/-- Arrays in one another, the innermost of them empty. -/
def brackets (n : Nat) : Text :=
  List.replicate n (.scalar '[') ++ List.replicate n (.scalar ']')

theorem brackets_succ (n : Nat) (rest : Text) :
    brackets (n + 1) ++ rest = .scalar '[' :: (brackets n ++ .scalar ']' :: rest) := by
  unfold brackets
  rw [List.replicate_succ, List.replicate_succ']
  simp only [List.append_assoc, List.cons_append, List.nil_append]

theorem readValue_brackets (fuel n : Nat) (rest : Text) :
    ∃ j, readValue (fuel + 2 * n + 1) (n + 1) (brackets (n + 1) ++ rest) = .ok (j, rest) := by
  induction n generalizing rest with
  | zero => exact ⟨.array [], by rw [readValue.eq_def]; rfl⟩
  | succ n ih =>
    obtain ⟨j, hj⟩ := ih (.scalar ']' :: rest)
    have hitems : readItems (fuel + 2 * n + 2) (n + 1) (brackets (n + 1) ++ .scalar ']' :: rest) =
        .ok ([j], rest) := by
      rw [readItems.eq_def]
      simp only [hj]
      rfl
    refine ⟨.array [j], ?_⟩
    rw [brackets_succ, readValue.eq_def]
    rw [brackets_succ] at hitems ⊢
    show (readItems (fuel + 2 * n + 2) (n + 1) _).map _ = _
    rw [hitems]
    rfl

theorem isText_brackets (n : Nat) : IsText (brackets (n + 1)) := by
  obtain ⟨j, hj⟩ := readValue_brackets (2 * n + 5) n []
  have hlength : (brackets (n + 1)).length = 2 * n + 2 := by
    simp only [brackets, List.length_append, List.length_replicate]
    omega
  have hfuel : 2 * n + 5 + 2 * n + 1 = 2 * (brackets (n + 1)).length + 2 := by omega
  rw [List.append_nil, hfuel] at hj
  exact ⟨j, read_of_readTo (readTo_of_readValue (by rintro ⟨⟩) hj rfl)⟩

theorem le_deepest_replicate (n opened : Nat) (t : Text) :
    opened + n ≤ deepest .outside opened (List.replicate n (.scalar '[') ++ t) := by
  induction n generalizing opened with
  | zero => exact le_deepest _ opened t
  | succ n ih =>
    calc opened + (n + 1) = opened + 1 + n := by omega
      _ ≤ _ := ih (opened + 1)

theorem le_nesting_brackets (n : Nat) : n ≤ nesting (brackets n) := by
  have h := le_deepest_replicate n 0 (List.replicate n (.scalar ']'))
  rwa [Nat.zero_add] at h

end PullGate.Json
