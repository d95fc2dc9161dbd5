import PullGate.Proofs.Validation.Member

/-! What a check complains of.  The problems of a part are those of the whole with its place in
front, and those of several parts stand in the order of the parts. -/

namespace PullGate

namespace Problem

/-- A problem of a part, seen from the whole. -/
def under (place : Place) (p : Problem) : Problem := ⟨place :: p.path, p.cause⟩

/-- Whether a problem lies in the member of this name. -/
def isIn (name : Text) (p : Problem) : Bool := p.path.head? = some (.key name)

@[simp] theorem isIn_under_key (name other : Text) (p : Problem) :
    (p.under (.key other)).isIn name = decide (other = name) := by
  simp [isIn, under]

end Problem

namespace Checked

variable {α β : Type}

/-- Whether a value passed, without what was made of it. -/
def verdict (x : Checked α) : Checked Unit := x.map fun _ => ()

theorem verdict_eq_ok_iff {x : Checked α} : x.verdict = .ok () ↔ ∃ v, x = .ok v := by
  cases x <;> simp [verdict, Except.map]

@[simp] theorem problems_ok (v : α) : problems (.ok v : Checked α) = [] := rfl

@[simp] theorem problems_map (f : α → β) (x : Checked α) :
    problems (x.map f) = x.problems := by
  cases x <;> rfl

@[simp] theorem problems_verdict (x : Checked α) : x.verdict.problems = x.problems :=
  problems_map _ x

@[simp] theorem problems_within (place : Place) (x : Checked α) :
    (x.within place).problems = x.problems.map (Problem.under place) := by
  cases x <;> rfl

theorem problems_eachFrom (check : Json → Checked α) (i : Nat) (items : List Json) :
    (eachFrom check i items).problems =
      (items.zipIdx i).flatMap fun x => (check x.1).problems.map (Problem.under (.index x.2)) := by
  induction items generalizing i with
  | nil => rfl
  | cons item items ih => simp [eachFrom, ih]

end Checked

namespace Check

variable {α : Type} {check : Json → Checked α} {members : List (Text × Json)} {key : Text}

/-- The problems of the items of a list come in the order of the items, each under its index. -/
theorem problems_list (items : List Json) : (list check (.array items)).problems =
    items.zipIdx.flatMap fun x => (check x.1).problems.map (Problem.under (.index x.2)) :=
  Checked.problems_eachFrom check 0 items

/-- A list is accepted exactly if each of its items is. -/
theorem exists_list_eq_ok_iff {items : List Json} :
    (∃ values, list check (.array items) = .ok values) ↔
      ∀ item ∈ items, ∃ v, check item = .ok v := by
  simp only [list_eq_ok_iff, Json.array.injEq, exists_eq_left']
  induction items with
  | nil => simp
  | cons item items ih =>
    simp only [List.forall_mem_cons, ← ih]
    constructor
    · rintro ⟨_, _ | ⟨hv, hvalues⟩⟩
      exact ⟨⟨_, hv⟩, _, hvalues⟩
    · rintro ⟨⟨v, hv⟩, values, hvalues⟩
      exact ⟨v :: values, .cons hv hvalues⟩

theorem isIn_of_within {x : Checked α} {p : Problem} (h : p ∈ (x.within (.key key)).problems) :
    p.isIn key = true := by
  rw [Checked.problems_within, List.mem_map] at h
  obtain ⟨q, -, rfl⟩ := h
  simp

/-- The problems of a member lie in that member. -/
theorem isIn_of_required {p : Problem} (h : p ∈ (required members key check).problems) :
    p.isIn key = true := by
  unfold required at h
  split at h
  · exact isIn_of_within h
  · obtain rfl := List.mem_singleton.mp h
    simp [Problem.isIn]

theorem isIn_of_optional {absent : α} {p : Problem}
    (h : p ∈ (optional members key check absent).problems) : p.isIn key = true := by
  unfold optional at h
  split at h
  · exact isIn_of_within h
  · cases h

end Check

end PullGate
