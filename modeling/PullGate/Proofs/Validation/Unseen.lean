import PullGate.Proofs.Json.Edit
import PullGate.Validation.Scalar

/-! What a check does not see of a value.  Values that are related are one to a check that respects
the relation: a check of a text or a number respects outlines, that of a list what the check of its
items respects, item by item, and that of an object agreement on the members it reads. -/

namespace PullGate.Check

variable {α : Type} {check : Json → Checked α} {key : Text} {m m' : List (Text × Json)}
  {R : Json → Json → Prop}

/-- Related values are one to the check. -/
def Respects (check : Json → Checked α) (R : Json → Json → Prop) : Prop :=
  ∀ ⦃j j'⦄, R j j' → check j = check j'

/-- Objects with related members, and otherwise one value, or any two arrays. -/
inductive Memberwise (P : List (Text × Json) → List (Text × Json) → Prop) : Json → Json → Prop
  | same (j : Json) : Memberwise P j j
  | arrays (items items' : List Json) : Memberwise P (.array items) (.array items')
  | members {m m' : List (Text × Json)} (h : P m m') : Memberwise P (.object m) (.object m')

/-- Arrays with related items, and otherwise one value, or any two objects. -/
inductive Itemwise (R : Json → Json → Prop) : Json → Json → Prop
  | same (j : Json) : Itemwise R j j
  | objects (m m' : List (Text × Json)) : Itemwise R (.object m) (.object m')
  | items {items items' : List Json} (h : List.Forall₂ R items items') :
    Itemwise R (.array items) (.array items')

theorem Itemwise.of_outline {j j' : Json} (h : Json.Outline j j') : Itemwise Json.Outline j j' := by
  cases h with
  | same => exact .same _
  | objects => exact .objects _ _
  | items h => exact .items h

namespace Respects

theorem required (hcheck : Respects check R)
    (h : Option.Rel R (Json.lookup key m) (Json.lookup key m')) :
    required m key check = required m' key check := by
  unfold Check.required
  generalize Json.lookup key m = found at h
  generalize Json.lookup key m' = found' at h
  cases h with
  | none => rfl
  | some h => exact congrArg (Checked.within (.key key)) (hcheck h)

theorem optional {absent : α} (hcheck : Respects check R)
    (h : Option.Rel R (Json.lookup key m) (Json.lookup key m')) :
    optional m key check absent = optional m' key check absent := by
  unfold Check.optional
  generalize Json.lookup key m = found at h
  generalize Json.lookup key m' = found' at h
  cases h with
  | none => rfl
  | some h => exact congrArg (Checked.within (.key key)) (hcheck h)

theorem outline (hobject : ∀ m m', check (.object m) = check (.object m'))
    (harray : ∀ items items', check (.array items) = check (.array items')) :
    Respects check Json.Outline := by
  rintro _ _ (_ | ⟨m, m'⟩ | _)
  · rfl
  · exact hobject m m'
  · exact harray _ _

theorem memberwise {P : List (Text × Json) → List (Text × Json) → Prop}
    (hobject : ∀ ⦃m m'⦄, P m m' → check (.object m) = check (.object m'))
    (harray : ∀ items items', check (.array items) = check (.array items')) :
    Respects check (Memberwise P) := by
  rintro _ _ (_ | _ | h)
  · rfl
  · exact harray _ _
  · exact hobject h

theorem list (hcheck : Respects check R) : Respects (list check) (Itemwise R) := by
  rintro _ _ (_ | _ | @⟨items, items', h⟩)
  · rfl
  · rfl
  · have heach : ∀ i, Checked.eachFrom check i items = Checked.eachFrom check i items' := by
      induction h with
      | nil => exact fun _ => rfl
      | cons hitem _ ih =>
        intro i
        rw [Checked.eachFrom, Checked.eachFrom, hcheck hitem, ih]
    exact heach 0

end Respects

/-! ### The checks of single values -/

theorem respects_text : Respects text Json.Outline := .outline (fun _ _ => rfl) fun _ _ => rfl

theorem respects_nonemptyText : Respects nonemptyText Json.Outline :=
  .outline (fun _ _ => rfl) fun _ _ => rfl

theorem respects_trimmed : Respects trimmed Json.Outline :=
  .outline (fun _ _ => rfl) fun _ _ => rfl

theorem respects_choice (words : List (Text × α)) : Respects (choice words) Json.Outline :=
  .outline (fun _ _ => rfl) fun _ _ => rfl

theorem respects_natural : Respects natural Json.Outline :=
  .outline (fun _ _ => rfl) fun _ _ => rfl

theorem respects_positive : Respects positive Json.Outline :=
  .outline (fun _ _ => rfl) fun _ _ => rfl

theorem respects_number : Respects number Json.Outline :=
  .outline (fun _ _ => rfl) fun _ _ => rfl

theorem respects_dateTime : Respects dateTime Json.Outline :=
  .outline (fun _ _ => rfl) fun _ _ => rfl

theorem respects_texts : Respects (list text) Json.Outline :=
  fun _ _ h => respects_text.list (.of_outline h)

theorem Respects.nullable (hcheck : Respects check Json.Outline) :
    Respects (nullable check) Json.Outline := by
  rintro _ _ (_ | ⟨m, m'⟩ | h)
  · rfl
  · exact congrArg (Except.map some) (hcheck (.objects m m'))
  · exact congrArg (Except.map some) (hcheck (.items h))

end PullGate.Check
