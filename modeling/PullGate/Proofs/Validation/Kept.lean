import PullGate.Proofs.Json.Sound
import PullGate.Proofs.Validation.Member

/-! What a check keeps.  From a value whose parts can be written and read again, checks make texts
that are joined, natural numbers that are not too long and canonical doubles. -/

namespace PullGate

/-- What the check accepts, of the values that can be written and read again, is as stated. -/
def Check.Keeps {α : Type} (check : Json → Checked α) (P : α → Prop) : Prop :=
  ∀ ⦃j v⦄, j.Proper → check j = .ok v → P v

/-! ### Numbers as text -/

namespace Text

variable {s t : Text}

theorem trimRight_subset (p : CodePoint → Bool) (t : Text) : trimRight p t ⊆ t := by
  intro c hc
  have h := (List.dropWhile_suffix p).subset (List.mem_reverse.mp hc)
  exact List.mem_reverse.mp h

theorem trim_subset (p : CodePoint → Bool) (t : Text) : trim p t ⊆ t :=
  List.Subset.trans (trimRight_subset p _) (List.dropWhile_suffix p).subset

theorem isUnicode_of_subset (ht : isUnicode t = true) (h : s ⊆ t) : isUnicode s = true :=
  List.all_eq_true.mpr fun c hc => List.all_eq_true.mp ht c (h hc)

/-- Leading zeros do not count. -/
theorem digitsValue_dropWhile (t : Text) :
    digitsValue 0 (t.dropWhile (· = .scalar '0')) = digitsValue 0 t := by
  induction t with
  | nil => rfl
  | cons c t ih =>
    by_cases hc : c = .scalar '0'
    · rw [List.dropWhile_cons_of_pos (by simpa using hc), ih, hc, digitsValue_cons]
      rfl
    · rw [List.dropWhile_cons_of_neg (by simpa using hc)]

end Text

namespace Check

theorem all_isDigit_cons {c : CodePoint} {rest : Option Text} {digits : Text}
    (hc : c.isDigit = true) (hrest : ∀ {more : Text}, rest = some more → more.all CodePoint.isDigit)
    (h : rest.map (c :: ·) = some digits) : digits.all CodePoint.isDigit = true := by
  obtain ⟨more, hmore, rfl⟩ := Option.map_eq_some_iff.mp h
  rw [List.all_cons, hc, hrest hmore, Bool.and_self]

theorem all_isDigit_integerDigits? {t digits : Text} (h : integerDigits? t = some digits) :
    digits.all CodePoint.isDigit = true := by
  fun_induction integerDigits? t generalizing digits
  case case2 c hc =>
    cases h
    rw [List.all_cons, hc]
    rfl
  case case4 hc ih => exact all_isDigit_cons hc ih h
  case case6 hc ih => exact all_isDigit_cons hc ih h
  all_goals cases h

/-- An integer that is read from a text has no more digits than one may have. -/
theorem natAbs_lt_of_integerText {t : Text} {n : Int} (h : integerText t = .ok n) :
    n.natAbs < 10 ^ Json.digitLimit := by
  unfold integerText at h
  dsimp only at h
  split at h
  · cases h
  · next digits hdigits =>
    split at h
    · cases h
    · next hlength =>
      obtain rfl := Except.ok.inj h
      have hall := all_isDigit_integerDigits? hdigits
      have hrest : (digits.dropWhile (· = .scalar '0')).all CodePoint.isDigit = true :=
        List.all_eq_true.mpr fun c hc =>
          List.all_eq_true.mp hall c ((List.dropWhile_suffix _).subset hc)
      rw [Json.natAbs_signed, ← Text.digitsValue_dropWhile digits]
      exact Json.digitsValue_lt_limit hrest hlength

theorem natAbs_lt_of_integerNumber {d : Double} {n : Int} (h : integerNumber d = .ok n) :
    n.natAbs < Nat.pow 2 63 := by
  unfold integerNumber at h
  split at h
  · cases h
  · split at h
    · cases h
    · split at h
      · next hsmall =>
        cases h
        exact hsmall
      · cases h

theorem two_pow_le : Nat.pow 2 63 ≤ 10 ^ Json.digitLimit := by
  have h : (10 : Nat) ^ 19 ≤ 10 ^ Json.digitLimit := Nat.pow_le_pow_right (by decide) (by decide)
  exact le_trans (by norm_num) h

theorem keeps_integer : Keeps integer fun n => n.natAbs < 10 ^ Json.digitLimit := by
  intro j n hj h
  cases j with
  | bool value =>
    cases value with
    | true =>
      cases h
      exact Nat.one_lt_pow (by decide) (by decide)
    | false =>
      cases h
      exact Nat.pow_pos (by decide)
  | int m =>
    cases h
    cases hj with
    | int hm => exact hm
  | double d =>
    simp only [integer] at h
    split at h
    · next hd =>
      cases h
      exact lt_of_lt_of_le (natAbs_lt_of_integerNumber hd) two_pow_le
    · cases h
  | string t =>
    simp only [integer] at h
    split at h
    · cases h
    · split at h
      · next ht =>
        cases h
        exact natAbs_lt_of_integerText ht
      · cases h
  | null | array _ | object _ => cases h

theorem keeps_natural : Keeps natural fun n => n < 10 ^ Json.digitLimit := by
  intro j n hj h
  have habs : (n : Int).natAbs < _ := keeps_integer hj (natural_eq_ok_iff.mp h)
  rwa [Int.natAbs_natCast] at habs

theorem isCanonical_of_read? {t : Text} {d : Double} (h : Double.read? t = some d) :
    d.IsCanonical := by
  unfold Double.read? at h
  dsimp only at h
  split at h
  · cases h
    trivial
  · split at h
    · cases h
      trivial
    · exact Double.isCanonical_readMagnitude? h

theorem isCanonical_of_numberText? {t : Text} {d : Double} (h : numberText? t = some d) :
    d.IsCanonical := by
  unfold numberText? at h
  dsimp only at h
  split at h
  · next hread =>
    cases h
    exact isCanonical_of_read? hread
  · obtain ⟨u, -, hread⟩ := Option.bind_eq_some_iff.mp h
    exact isCanonical_of_read? hread

theorem keeps_number : Keeps number Double.IsCanonical := by
  intro j d hj h
  cases j with
  | bool value =>
    cases h
    exact Double.isCanonical_ofRatio ..
  | int n =>
    simp only [number] at h
    split at h
    · cases h
      exact Double.isCanonical_ofRatio ..
    · cases h
  | double d =>
    cases h
    cases hj with
    | double hd => exact hd
  | string t =>
    simp only [number] at h
    split at h
    · cases h
    · split at h
      · next ht =>
        cases h
        exact isCanonical_of_numberText? ht
      · cases h
  | null | array _ | object _ => cases h

/-! ### Texts -/

theorem keeps_text : Keeps text Text.Joined := by
  intro j t hj h
  obtain rfl := text_eq_ok_iff.mp h
  cases hj with
  | string ht => exact ht

theorem keeps_trimmed : Keeps trimmed Text.Joined := by
  intro j t _ h
  obtain ⟨u, -, hu, rfl⟩ := trimmed_eq_ok_iff.mp h
  exact Text.joined_of_isUnicode (Text.isUnicode_of_subset hu (Text.trim_subset _ _))

/-! ### Parts of a value -/

section Parts

variable {α : Type} {check : Json → Checked α} {P : α → Prop} {members : List (Text × Json)}
  {key : Text}

theorem proper_of_lookup {j : Json} (hmembers : ∀ m ∈ members, m.2.Proper)
    (h : Json.lookup key members = some j) : j.Proper := by
  induction members with
  | nil => cases h
  | cons m members ih =>
    obtain ⟨hm, hmembers⟩ := List.forall_mem_cons.mp hmembers
    rw [Json.lookup] at h
    split at h
    · cases h
      exact hm
    · exact ih hmembers h

theorem Keeps.required (hcheck : Keeps check P) (hmembers : ∀ m ∈ members, m.2.Proper) {v : α}
    (h : required members key check = .ok v) : P v := by
  obtain ⟨j, hj, hv⟩ := required_eq_ok_iff.mp h
  exact hcheck (proper_of_lookup hmembers hj) hv

theorem Keeps.optional {absent : α} (hcheck : Keeps check P) (habsent : P absent)
    (hmembers : ∀ m ∈ members, m.2.Proper) {v : α}
    (h : optional members key check absent = .ok v) : P v := by
  rcases optional_eq_ok_iff.mp h with ⟨j, hj, hv⟩ | ⟨-, rfl⟩
  · exact hcheck (proper_of_lookup hmembers hj) hv
  · exact habsent

theorem Keeps.nullable (hcheck : Keeps check P) :
    Keeps (nullable check) fun v => ∀ a ∈ v, P a := by
  rintro j v hj h a rfl
  exact hcheck hj (nullable_eq_ok_some_iff.mp h).2

theorem Keeps.list (hcheck : Keeps check P) :
    Keeps (list check) fun values => ∀ v ∈ values, P v := by
  intro j values hj h
  obtain ⟨items, rfl, hvalues⟩ := list_eq_ok_iff.mp h
  clear h
  cases hj with
  | array hitems =>
    induction hvalues with
    | nil => exact List.forall_mem_nil _
    | cons hv _ ih =>
      obtain ⟨hitem, hitems⟩ := List.forall_mem_cons.mp hitems
      exact List.forall_mem_cons.mpr ⟨hcheck hitem hv, ih hitems⟩

end Parts

end Check

end PullGate
