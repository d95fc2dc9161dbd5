import PullGate.Proofs.Json.RoundTrip
import PullGate.Proofs.Json.Skip

/-! What is read from text of characters.  Its strings are joined, its integers are not too long,
its doubles are canonical, the keys of its objects differ, and it is not nested too deep; so it can
be written and read again, and so can every part of it. -/

namespace PullGate

variable {t rest : Text} {c : CodePoint}

theorem exists_of_map_eq_ok {ε α β : Type} {x : Except ε α} {f : α → β} {b : β}
    (h : x.map f = .ok b) : ∃ a, x = .ok a ∧ f a = b := by
  cases x with
  | error e => cases h
  | ok a => exact ⟨a, rfl, Except.ok.inj h⟩

theorem Double.isCanonical_ofDecimal (negative : Bool) (digits count : Nat) (power : Int) :
    (ofDecimal negative digits count power).IsCanonical := by
  unfold ofDecimal
  split
  · simp [IsCanonical]
  split
  · trivial
  split
  · simp [IsCanonical]
  split
  · exact isCanonical_ofRatio ..
  · exact isCanonical_ofRatio ..

theorem Double.isCanonical_readMagnitude? {negative : Bool} {d : Double}
    (h : readMagnitude? negative t = some d) : d.IsCanonical := by
  unfold readMagnitude? at h
  simp only [Option.ite_none_left_eq_some, Option.map_eq_some_iff] at h
  obtain ⟨-, exponent, -, rfl⟩ := h
  exact isCanonical_ofDecimal ..

namespace Json

variable {fuel depth start : Nat} {j : Json} {s : Text}

/-- A value whose parts can be written and read again. -/
inductive Proper : Json → Prop where
  | null : Proper .null
  | bool (value : Bool) : Proper (.bool value)
  | int {n : Int} (h : n.natAbs < 10 ^ digitLimit) : Proper (.int n)
  | double {d : Double} (h : d.IsCanonical) : Proper (.double d)
  | string {t : Text} (h : t.Joined) : Proper (.string t)
  | array {items : List Json} (h : ∀ item ∈ items, Proper item) : Proper (.array items)
  | object {members : List (Text × Json)} (h : ∀ m ∈ members, Proper m.2) :
    Proper (.object members)

/-! ### Strings -/

theorem joined_consUnit (unit : CodePoint) (h : s.Joined) : (consUnit unit s).Joined := by
  cases s with
  | nil => exact .singleton unit
  | cons c t =>
    rw [consUnit]
    split
    · next hpair =>
      rw [Bool.and_eq_true] at hpair
      refine List.isChain_cons.mpr ⟨fun d _ => ?_, h.tail⟩
      rw [CodePoint.isHigh_ofPair hpair.1 hpair.2, Bool.false_and]
    · next hpair => exact List.isChain_cons_cons.mpr ⟨eq_false_of_ne_true hpair, h⟩

theorem isSurrogate_shortEscape? {e : CodePoint} (he : e.isSurrogate = false)
    (h : shortEscape? e = some c) : c.isSurrogate = false := by
  unfold shortEscape? at h
  split at h
  · cases h
    exact he
  · repeat' split at h
    all_goals cases h
    all_goals rfl

theorem readString_sound (ht : Text.isUnicode t = true)
    (h : readString start t = .ok (s, rest)) : s.Joined ∧ Text.isUnicode rest = true := by
  fun_induction readString start t generalizing s
  case case2 =>
    cases h
    exact ⟨Text.joined_nil, (Text.isUnicode_cons.mp ht).2⟩
  case case4 c t hquote hlow hslash ih =>
    obtain ⟨⟨s, rest⟩, hread, heq⟩ := exists_of_map_eq_ok h
    cases heq
    obtain ⟨hc, ht⟩ := Text.isUnicode_cons.mp ht
    obtain ⟨hjoined, hrest⟩ := ih ht hread
    exact ⟨hjoined.cons hc, hrest⟩
  case case7 slash hquote hlow hslash a b c d t unit hunit hne ih =>
    obtain ⟨⟨s, rest⟩, hread, heq⟩ := exists_of_map_eq_ok h
    cases heq
    have ht := Text.isUnicode_of_suffix ht ⟨[slash, .scalar 'u', a, b, c, d], rfl⟩
    obtain ⟨hjoined, hrest⟩ := ih ht hread
    exact ⟨joined_consUnit unit hjoined, hrest⟩
  case case9 slash hquote hlow hslash e t hno c hescape ih =>
    obtain ⟨⟨s, rest⟩, hread, heq⟩ := exists_of_map_eq_ok h
    cases heq
    obtain ⟨-, ht⟩ := Text.isUnicode_cons.mp ht
    obtain ⟨he, ht⟩ := Text.isUnicode_cons.mp ht
    obtain ⟨hjoined, hrest⟩ := ih ht hread
    exact ⟨hjoined.cons (isSurrogate_shortEscape? he hescape), hrest⟩
  all_goals cases h

/-! ### Scalars -/

theorem natAbs_signed (negative : Bool) (n : Nat) :
    (if negative then -(n : Int) else n).natAbs = n := by
  cases negative <;> simp

theorem digitsValue_lt_limit (hdigits : t.all CodePoint.isDigit = true)
    (hlength : ¬ digitLimit < t.length) : Text.digitsValue 0 t < 10 ^ digitLimit := by
  calc _ < (0 + 1) * 10 ^ t.length := Text.digitsValue_lt hdigits 0
    _ ≤ 10 ^ digitLimit := by
      rw [Nat.zero_add, Nat.one_mul]
      exact Nat.pow_le_pow_right (by decide) (Nat.not_lt.mp hlength)

/-- The number that follows from the digits of its whole part. -/
theorem faithful_of_whole {negative : Bool} {whole fraction exponent : Text}
    (hdigits : whole.all CodePoint.isDigit = true)
    (h : (if fraction.isEmpty && exponent.isEmpty then
        some (if digitLimit < whole.length then .error (.tooManyDigits whole.length)
          else .ok (.int (if negative then -(Text.digitsValue 0 whole : Int)
            else Text.digitsValue 0 whole), t))
      else (Double.readMagnitude? negative (whole ++ fraction ++ exponent)).map fun d =>
        .ok (.double d, t)) = some (Except.ok (j, rest) : Read (Json × Text))) :
    Faithful depth j ∧ rest = t := by
  split at h
  · have h := Option.some.inj h
    split at h
    · cases h
    · next hlength =>
      cases h
      refine ⟨.int ?_, rfl⟩
      rw [natAbs_signed]
      exact digitsValue_lt_limit hdigits hlength
  · obtain ⟨d, hd, heq⟩ := Option.map_eq_some_iff.mp h
    cases heq
    exact ⟨.double (Double.isCanonical_readMagnitude? hd), rfl⟩

theorem readNumber?_sound {negative : Bool} (h : readNumber? negative t = some (.ok (j, rest))) :
    Faithful depth j ∧ Skips t rest := by
  have htail : ∀ u, Skips u (readExponent (readFraction u).2).2 := fun u =>
    (skips_readFraction u).trans (skips_readExponent _)
  unfold readNumber? at h
  dsimp only at h
  split at h
  · next u =>
    obtain ⟨-, h⟩ := Option.ite_none_left_eq_some.mp h
    obtain ⟨hfaithful, rfl⟩ : Faithful depth j ∧ rest = _ := faithful_of_whole rfl h
    exact ⟨hfaithful, .cons rfl (htail u)⟩
  · obtain ⟨-, h⟩ := Option.ite_none_left_eq_some.mp h
    obtain ⟨hfaithful, rfl⟩ : Faithful depth j ∧ rest = _ :=
      faithful_of_whole (Text.all_isDigit_spanDigits t) h
    exact ⟨hfaithful, (skips_spanDigits t).trans (htail _)⟩

theorem faithful_of_mem_literals {word : Text} (h : (word, j) ∈ literals) :
    Faithful depth j ∧ word.all isNeutral = true := by
  simp only [literals, List.mem_cons, List.not_mem_nil, or_false, Prod.mk.injEq] at h
  rcases h with ⟨rfl, rfl⟩ | ⟨rfl, rfl⟩ | ⟨rfl, rfl⟩ | ⟨rfl, rfl⟩ | ⟨rfl, rfl⟩ | ⟨rfl, rfl⟩
  · exact ⟨.null, rfl⟩
  · exact ⟨.bool true, rfl⟩
  · exact ⟨.bool false, rfl⟩
  · exact ⟨.double trivial, rfl⟩
  · exact ⟨.double trivial, rfl⟩
  · exact ⟨.double trivial, rfl⟩

theorem readLiteral?_sound (h : readLiteral? t = some (j, rest)) :
    Faithful depth j ∧ Skips t rest := by
  obtain ⟨⟨word, value⟩, hmem, hword⟩ := List.exists_of_findSome?_eq_some h
  obtain ⟨u, hbegins, heq⟩ := Option.map_eq_some_iff.mp hword
  cases heq
  obtain ⟨hfaithful, hneutral⟩ := faithful_of_mem_literals hmem
  exact ⟨hfaithful, skips_dropPrefix? hneutral hbegins⟩

theorem readScalar_sound (h : readScalar t = .ok (j, rest)) : Faithful depth j ∧ Skips t rest := by
  unfold readScalar at h
  dsimp only at h
  split at h
  · next result hnumber =>
    cases h
    split at hnumber
    · next u =>
      obtain ⟨hfaithful, hskips⟩ := readNumber?_sound hnumber
      exact ⟨hfaithful, .cons rfl hskips⟩
    · exact readNumber?_sound hnumber
  · split at h
    · next hword => cases h; exact readLiteral?_sound hword
    · cases h

/-! ### Values -/

theorem isUnicode_skipSpace (h : Text.isUnicode t = true) : Text.isUnicode (skipSpace t) = true :=
  Text.isUnicode_of_suffix h (skips_skipSpace t).suffix

/-- Members with keys of their own, and with values that are read back. -/
structure FaithfulMembers (depth : Nat) (members : List (Text × Json)) : Prop where
  nodup : (members.map Prod.fst).Nodup
  joined : ∀ m ∈ members, m.1.Joined
  values : ∀ m ∈ members, Faithful depth m.2

theorem FaithfulMembers.nil : FaithfulMembers depth [] :=
  ⟨List.nodup_nil, List.forall_mem_nil _, List.forall_mem_nil _⟩

theorem FaithfulMembers.faithful {members : List (Text × Json)}
    (h : FaithfulMembers depth members) : Faithful (depth + 1) (.object members) :=
  .object h.nodup h.joined h.values

theorem key_mem_insert_iff {key other : Text} {members : List (Text × Json)} :
    other ∈ (insert key j members).map Prod.fst ↔ other = key ∨ other ∈ members.map Prod.fst := by
  induction members with
  | nil => simp [insert]
  | cons member members ih =>
    rw [insert]
    by_cases hkey : member.1 = key
    · simp [hkey]
    · rw [if_neg hkey, List.map_cons, List.mem_cons, ih, List.map_cons, List.mem_cons]
      exact or_left_comm

theorem FaithfulMembers.insert {key : Text} {members : List (Text × Json)} (hkey : key.Joined)
    (hj : Faithful depth j) (h : FaithfulMembers depth members) :
    FaithfulMembers depth (Json.insert key j members) := by
  obtain ⟨hnodup, hjoined, hvalues⟩ := h
  induction members with
  | nil => exact ⟨List.nodup_singleton _, List.forall_mem_singleton.mpr hkey,
      List.forall_mem_singleton.mpr hj⟩
  | cons member members ih =>
    obtain ⟨hmember, hmembers⟩ := List.forall_mem_cons.mp hjoined
    obtain ⟨hvalue, hvalues⟩ := List.forall_mem_cons.mp hvalues
    rw [List.map_cons, List.nodup_cons] at hnodup
    rw [Json.insert]
    split
    · exact ⟨List.nodup_cons.mpr hnodup, List.forall_mem_cons.mpr ⟨hmember, hmembers⟩,
        List.forall_mem_cons.mpr ⟨hj, hvalues⟩⟩
    · next hne =>
      obtain ⟨hnodup', hjoined', hvalues'⟩ := ih hnodup.2 hmembers hvalues
      refine ⟨List.nodup_cons.mpr ⟨fun hmem => ?_, hnodup'⟩,
        List.forall_mem_cons.mpr ⟨hmember, hjoined'⟩, List.forall_mem_cons.mpr ⟨hvalue, hvalues'⟩⟩
      rcases key_mem_insert_iff.mp hmem with heq | hmem
      · exact hne heq
      · exact hnodup.1 hmem

/-- What is read with so much fuel can be written and read again, and what is left is text of
characters. -/
structure Sound (fuel : Nat) : Prop where
  value : ∀ {depth t j rest}, Text.isUnicode t = true → readValue fuel depth t = .ok (j, rest) →
    Faithful depth j ∧ Text.isUnicode rest = true
  items : ∀ {depth t items rest}, Text.isUnicode t = true →
    readItems fuel depth t = .ok (items, rest) →
    (∀ item ∈ items, Faithful depth item) ∧ Text.isUnicode rest = true
  members : ∀ {depth before t members rest}, Text.isUnicode t = true →
    FaithfulMembers depth before → readMembers fuel depth before t = .ok (members, rest) →
    FaithfulMembers depth members ∧ Text.isUnicode rest = true

theorem sound_zero : Sound 0 where
  value _ h := by
    unfold readValue at h
    cases h
  items _ h := by
    unfold readItems at h
    cases h
  members _ _ h := by
    unfold readMembers at h
    cases h

theorem Sound.readValue_succ (hsound : Sound fuel) (ht : Text.isUnicode t = true)
    (h : readValue (fuel + 1) depth t = .ok (j, rest)) :
    Faithful depth j ∧ Text.isUnicode rest = true := by
  unfold readValue at h
  dsimp only at h
  split at h
  · next u =>
    obtain ⟨⟨s, rest⟩, hread, heq⟩ := exists_of_map_eq_ok h
    cases heq
    obtain ⟨hjoined, hrest⟩ := readString_sound (Text.isUnicode_cons.mp ht).2 hread
    exact ⟨.string hjoined, hrest⟩
  · next u =>
    have hu := isUnicode_skipSpace (Text.isUnicode_cons.mp ht).2
    split at h
    · cases h
    · split at h
      · next heq =>
        cases h
        rw [heq] at hu
        exact ⟨.array (List.forall_mem_nil _), (Text.isUnicode_cons.mp hu).2⟩
      · obtain ⟨⟨items, rest⟩, hread, heq⟩ := exists_of_map_eq_ok h
        cases heq
        obtain ⟨hitems, hrest⟩ := hsound.items hu hread
        exact ⟨.array hitems, hrest⟩
  · next u =>
    have hu := isUnicode_skipSpace (Text.isUnicode_cons.mp ht).2
    split at h
    · cases h
    · split at h
      · next heq =>
        cases h
        rw [heq] at hu
        exact ⟨FaithfulMembers.nil.faithful, (Text.isUnicode_cons.mp hu).2⟩
      · obtain ⟨⟨members, rest⟩, hread, heq⟩ := exists_of_map_eq_ok h
        cases heq
        obtain ⟨hmembers, hrest⟩ := hsound.members hu .nil hread
        exact ⟨hmembers.faithful, hrest⟩
  · obtain ⟨hfaithful, hskips⟩ := readScalar_sound h
    exact ⟨hfaithful, Text.isUnicode_of_suffix ht hskips.suffix⟩

theorem Sound.readItems_succ {items : List Json} (hsound : Sound fuel)
    (ht : Text.isUnicode t = true) (h : readItems (fuel + 1) depth t = .ok (items, rest)) :
    (∀ item ∈ items, Faithful depth item) ∧ Text.isUnicode rest = true := by
  unfold readItems at h
  dsimp only at h
  split at h
  · cases h
  · next item u hread =>
    obtain ⟨hitem, hu⟩ := hsound.value ht hread
    have hskip := isUnicode_skipSpace hu
    split at h
    · next heq =>
      cases h
      rw [heq] at hskip
      exact ⟨List.forall_mem_singleton.mpr hitem, (Text.isUnicode_cons.mp hskip).2⟩
    · next v heq =>
      rw [heq] at hskip
      obtain ⟨⟨items, rest⟩, hread, heq⟩ := exists_of_map_eq_ok h
      cases heq
      obtain ⟨hitems, hrest⟩ :=
        hsound.items (isUnicode_skipSpace (Text.isUnicode_cons.mp hskip).2) hread
      exact ⟨List.forall_mem_cons.mpr ⟨hitem, hitems⟩, hrest⟩
    · cases h

theorem Sound.readMembers_succ {before members : List (Text × Json)} (hsound : Sound fuel)
    (ht : Text.isUnicode t = true) (hbefore : FaithfulMembers depth before)
    (h : readMembers (fuel + 1) depth before t = .ok (members, rest)) :
    FaithfulMembers depth members ∧ Text.isUnicode rest = true := by
  unfold readMembers at h
  dsimp only at h
  split at h
  · next u =>
    split at h
    · cases h
    · next key v hkey =>
      obtain ⟨hjoined, hv⟩ := readString_sound (Text.isUnicode_cons.mp ht).2 hkey
      have hskip := isUnicode_skipSpace hv
      split at h
      · next w heq =>
        rw [heq] at hskip
        have hw := isUnicode_skipSpace (Text.isUnicode_cons.mp hskip).2
        split at h
        · cases h
        · next value x hvalue =>
          obtain ⟨hfaithful, hx⟩ := hsound.value hw hvalue
          have hmembers := hbefore.insert hjoined hfaithful
          have hskip := isUnicode_skipSpace hx
          split at h
          · next heq =>
            cases h
            rw [heq] at hskip
            exact ⟨hmembers, (Text.isUnicode_cons.mp hskip).2⟩
          · next heq =>
            rw [heq] at hskip
            exact hsound.members (isUnicode_skipSpace (Text.isUnicode_cons.mp hskip).2) hmembers h
          · cases h
      · cases h
  · cases h

theorem sound (fuel : Nat) : Sound fuel := by
  induction fuel with
  | zero => exact sound_zero
  | succ fuel ih => exact ⟨ih.readValue_succ, ih.readItems_succ, ih.readMembers_succ⟩

/-- What is read from text of characters can be written and read again. -/
theorem faithful_of_readTo {room : Nat} (ht : Text.isUnicode t = true)
    (h : readTo room t = .ok j) : Faithful room j := by
  unfold readTo at h
  split at h
  · cases h
  · split at h
    · cases h
    · next value rest hread =>
      obtain ⟨hfaithful, -⟩ := (sound _).value (isUnicode_skipSpace ht) hread
      split at h
      · cases h
        exact hfaithful
      · cases h

theorem Faithful.proper (h : Faithful depth j) : Proper j := by
  induction h with
  | null => exact .null
  | bool value => exact .bool value
  | int h => exact .int h
  | double h => exact .double h
  | string h => exact .string h
  | array _ ih => exact .array ih
  | object _ _ _ ih => exact .object ih

/-- What is read from text of characters is proper. -/
theorem read_sound (ht : Text.isUnicode t = true) (h : read t = .ok j) : Proper j :=
  (faithful_of_readTo ht h).proper

end Json

end PullGate
