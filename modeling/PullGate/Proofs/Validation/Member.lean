import Mathlib.Data.List.TakeWhile
import Mathlib.Data.List.Forall2
import PullGate.Validation.Scalar

/-! What a check accepts.  For each kind of check the values it takes are named together with what
it makes of them, so that an accepted object can be read off member by member. -/

namespace PullGate

/-- Neither end is of the class. -/
structure Text.Trimmed (p : CodePoint → Bool) (t : Text) : Prop where
  head : ∀ c ∈ t.head?, p c = false
  last : ∀ c ∈ t.getLast?, p c = false

namespace Text

variable {p : CodePoint → Bool} {t : Text}

theorem head?_trimLeft (p : CodePoint → Bool) (t : Text) :
    ∀ c ∈ (trimLeft p t).head?, p c = false := by
  intro c hc
  have h := List.head?_dropWhile_not p t
  rw [show (t.dropWhile p).head? = some c from hc] at h
  exact h

theorem getLast?_trimRight (p : CodePoint → Bool) (t : Text) :
    ∀ c ∈ (trimRight p t).getLast?, p c = false := by
  intro c hc
  rw [trimRight, List.getLast?_reverse] at hc
  exact head?_trimLeft p t.reverse c hc

/-- What is cut off at the right is all of the class. -/
theorem exists_trimRight_append (p : CodePoint → Bool) (t : Text) :
    ∃ cut, t = trimRight p t ++ cut ∧ ∀ c ∈ cut, p c = true := by
  refine ⟨(t.reverse.takeWhile p).reverse, ?_, fun c hc => ?_⟩
  · rw [trimRight, ← List.reverse_append, List.takeWhile_append_dropWhile, List.reverse_reverse]
  · exact List.mem_takeWhile_imp (List.mem_reverse.mp hc)

theorem trimmed_nil (p : CodePoint → Bool) : Trimmed p [] where
  head _ h := by cases h
  last _ h := by cases h

theorem trimmed_trim (p : CodePoint → Bool) (t : Text) : Trimmed p (trim p t) where
  head c hc := by
    obtain ⟨cut, hcut, -⟩ := exists_trimRight_append p (trimLeft p t)
    apply head?_trimLeft p t
    rw [hcut, List.head?_append, show (trimRight p (trimLeft p t)).head? = some c from hc]
    rfl
  last := getLast?_trimRight p _

end Text

/-- Of two computations one after the other both have come to a result if the whole has. -/
theorem Except.bind_eq_ok_iff {ε α β : Type} {x : Except ε α} {f : α → Except ε β} {b : β} :
    x >>= f = .ok b ↔ ∃ a, x = .ok a ∧ f a = .ok b := by
  cases x with
  | error e => simp [bind, Except.bind]
  | ok a => simp [bind, Except.bind]

namespace Check

variable {α : Type} {check : Json → Checked α} {members : List (Text × Json)} {key : Text}

theorem map_eq_ok_iff {β : Type} {f : α → β} {x : Checked α} {b : β} :
    x.map f = .ok b ↔ ∃ a, x = .ok a ∧ f a = b := by
  cases x with
  | error ps => simp [Except.map]
  | ok a => simp [Except.map]

theorem within_eq_ok_iff {place : Place} {x : Checked α} {v : α} :
    x.within place = .ok v ↔ x = .ok v := by
  cases x with
  | error ps => simp [Checked.within]
  | ok a => rfl

/-! ### Members of an object -/

theorem required_eq_ok_iff {v : α} :
    required members key check = .ok v ↔
      ∃ j, Json.lookup key members = some j ∧ check j = .ok v := by
  unfold required
  split
  · next j hj => simp [hj, within_eq_ok_iff]
  · next hnone => simp [hnone]

theorem optional_eq_ok_iff {absent v : α} :
    optional members key check absent = .ok v ↔
      (∃ j, Json.lookup key members = some j ∧ check j = .ok v) ∨
        (Json.lookup key members = none ∧ v = absent) := by
  unfold optional
  split
  · next j hj => simp [hj, within_eq_ok_iff]
  · next hnone => simp [hnone, eq_comm]

/-! ### Numbers -/

theorem natural_eq_ok_iff {j : Json} {n : Nat} :
    natural j = .ok n ↔ integer j = .ok (n : Int) := by
  unfold natural
  cases integer j with
  | error ps => simp
  | ok m =>
    by_cases hm : m < 0
    · simp only [hm, if_true, Checked.fail, Except.ok.injEq, reduceCtorEq, false_iff]
      omega
    · simp only [hm, if_false, Except.ok.injEq]
      omega

theorem positive_eq_ok_iff {j : Json} {n : Nat} :
    positive j = .ok n ↔ integer j = .ok (n : Int) ∧ 1 ≤ n := by
  unfold positive
  cases integer j with
  | error ps => simp
  | ok m =>
    by_cases hm : m ≤ 0
    · simp only [hm, if_true, Checked.fail, Except.ok.injEq, reduceCtorEq, false_iff]
      omega
    · simp only [hm, if_false, Except.ok.injEq]
      omega

/-! ### Texts -/

theorem text_eq_ok_iff {j : Json} {t : Text} : text j = .ok t ↔ j = .string t := by
  cases j <;> simp [text, Checked.fail]

theorem unicode_eq_ok_iff {j : Json} {t : Text} :
    unicode j = .ok t ↔ j = .string t ∧ Text.isUnicode t = true := by
  cases j with
  | string u =>
    by_cases hu : Text.isUnicode u = true
    · simp only [unicode, hu, if_true, Except.ok.injEq, Json.string.injEq]
      constructor
      · rintro rfl
        exact ⟨rfl, hu⟩
      · exact And.left
    · simp only [unicode, hu, Checked.fail, Json.string.injEq]
      constructor
      · intro h
        cases h
      · rintro ⟨rfl, ht⟩
        exact absurd ht hu
  | null | bool _ | int _ | double _ | array _ | object _ => simp [unicode, Checked.fail]

theorem nonemptyText_eq_ok_iff {j : Json} {t : Text} :
    nonemptyText j = .ok t ↔ j = .string t ∧ Text.isUnicode t = true ∧ t ≠ [] := by
  rw [← and_assoc, ← unicode_eq_ok_iff]
  unfold nonemptyText
  cases hj : unicode j with
  | error ps => simp
  | ok u =>
    cases u with
    | nil => simp [Checked.fail, eq_comm]
    | cons c u =>
      simp only [Except.ok.injEq]
      constructor
      · rintro rfl
        exact ⟨rfl, List.cons_ne_nil c u⟩
      · exact And.left

theorem trimmed_eq_ok_iff {j : Json} {t : Text} :
    trimmed j = .ok t ↔ ∃ u, j = .string u ∧ Text.isUnicode u = true ∧
      Text.trim CodePoint.isWhiteSpace u = t := by
  simp only [trimmed, map_eq_ok_iff, unicode_eq_ok_iff, and_assoc]

/-- Text that is trimmed has no white space at its ends, whatever was given. -/
theorem trimmed_of_trimmed {j : Json} {t : Text} (h : trimmed j = .ok t) :
    t.Trimmed CodePoint.isWhiteSpace := by
  obtain ⟨u, -, -, rfl⟩ := trimmed_eq_ok_iff.mp h
  exact Text.trimmed_trim _ u

/-! ### Lists and values that may be null -/

theorem nullable_eq_ok_none_iff {j : Json} : nullable check j = .ok none ↔ j = .null := by
  cases j <;> simp [nullable, map_eq_ok_iff]

theorem nullable_eq_ok_some_iff {j : Json} {v : α} :
    nullable check j = .ok (some v) ↔ j ≠ .null ∧ check j = .ok v := by
  cases j <;> simp [nullable, map_eq_ok_iff]

theorem eachFrom_eq_ok_iff {i : Nat} {items : List Json} {values : List α} :
    Checked.eachFrom check i items = .ok values ↔
      List.Forall₂ (fun item v => check item = .ok v) items values := by
  induction items generalizing i values with
  | nil => rw [Checked.eachFrom, Except.ok.injEq, List.forall₂_nil_left_iff, eq_comm]
  | cons item items ih =>
    simp only [Checked.eachFrom, Checked.ap_eq_ok, map_eq_ok_iff, within_eq_ok_iff, ih]
    constructor
    · rintro ⟨_, rest, ⟨v, hv, rfl⟩, hrest, rfl⟩
      exact .cons hv hrest
    · rintro (_ | ⟨hv, hrest⟩)
      exact ⟨_, _, ⟨_, hv, rfl⟩, hrest, rfl⟩

/-- A list is accepted if each item is; what comes of them keeps their order. -/
theorem list_eq_ok_iff {j : Json} {values : List α} :
    list check j = .ok values ↔
      ∃ items, j = .array items ∧
        List.Forall₂ (fun item v => check item = .ok v) items values := by
  cases j with
  | array items => simp [list, Checked.each, eachFrom_eq_ok_iff]
  | null | bool _ | int _ | double _ | string _ | object _ => simp [list, Checked.fail]

end Check

end PullGate
