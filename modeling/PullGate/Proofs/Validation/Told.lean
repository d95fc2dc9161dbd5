import PullGate.Proofs.Validation.Problems

/-! What a rejection tells.  A check that refuses a value has a problem to tell of, and the report
of a rejection has every one of its problems in it. -/

namespace PullGate

namespace Text

theorem infix_join {piece : Text} {pieces : List Text} (sep : Text) (h : piece ∈ pieces) :
    piece <:+: join sep pieces := by
  induction pieces with
  | nil => cases h
  | cons first pieces ih =>
    cases pieces with
    | nil =>
      obtain rfl := List.mem_singleton.mp h
      exact List.infix_rfl
    | cons second pieces =>
      show piece <:+: first ++ sep ++ join sep (second :: pieces)
      rcases List.mem_cons.mp h with rfl | h
      · rw [List.append_assoc]
        exact (List.prefix_append _ _).isInfix
      · exact (ih h).trans (List.suffix_append _ _).isInfix

end Text

namespace Rejection

/-- The report of a rejection tells of a problem: what it is, and where unless it concerns the
whole. -/
structure Tells (r : Rejection) (p : Problem) : Prop where
  cause : p.cause.message <:+: r.message
  place : p.path ≠ [] → Text.join "." (p.path.map Place.write) <:+: r.message

theorem infix_message {r : Rejection} {p : Problem} {line : Text} (hp : p ∈ r.problems)
    (hline : line ∈ p.lines) : line <:+: r.message :=
  Text.infix_join _ (.tail _ (List.mem_flatMap.mpr ⟨p, hp, hline⟩))

theorem tells {r : Rejection} {p : Problem} (hp : p ∈ r.problems) : r.Tells p where
  cause := by
    have hcause : p.cause.message <:+:
        "  " ++ p.cause.message ++ " [type=" ++ p.cause.kind ++ "]" :=
      ⟨"  ", " [type=" ++ (p.cause.kind ++ "]"), by simp only [List.append_assoc]⟩
    refine hcause.trans (infix_message hp ?_)
    unfold Problem.lines
    split <;> simp
  place hpath := by
    refine infix_message hp ?_
    simp [Problem.lines, hpath]

end Rejection

namespace Checked

variable {α β : Type}

/-- A value that is refused is refused for a reason. -/
def Reasoned (x : Checked α) : Prop := x.problems = [] → ∃ v, x = .ok v

theorem reasoned_ok (v : α) : Reasoned (.ok v) := fun _ => ⟨v, rfl⟩

theorem reasoned_fail (cause : Cause) : Reasoned (fail cause : Checked α) := nofun

theorem Reasoned.within {x : Checked α} (hx : x.Reasoned) (place : Place) :
    (x.within place).Reasoned := by
  intro h
  rw [problems_within, List.map_eq_nil_iff] at h
  obtain ⟨v, rfl⟩ := hx h
  exact ⟨v, rfl⟩

theorem Reasoned.ap {f : Checked (α → β)} {x : Checked α} (hf : f.Reasoned) (hx : x.Reasoned) :
    (f.ap x).Reasoned := by
  intro h
  rw [problems_ap, List.append_eq_nil_iff] at h
  obtain ⟨g, rfl⟩ := hf h.1
  obtain ⟨v, rfl⟩ := hx h.2
  exact ⟨g v, rfl⟩

end Checked

namespace Check

open Checked

theorem reasoned_text (j : Json) : (text j).Reasoned := by
  cases j with
  | string t => exact reasoned_ok t
  | _ => exact reasoned_fail _

theorem reasoned_booleanInteger (n : Int) : (booleanInteger n).Reasoned := by
  unfold booleanInteger
  split
  · exact reasoned_fail _
  · split
    · exact reasoned_ok _
    · split
      · exact reasoned_ok _
      · exact reasoned_fail _

theorem reasoned_boolean (j : Json) : (boolean j).Reasoned := by
  cases j with
  | bool value => exact reasoned_ok value
  | int n => exact reasoned_booleanInteger n
  | double d =>
    rw [boolean]
    split
    · exact reasoned_booleanInteger _
    · exact reasoned_fail _
  | string t =>
    rw [boolean]
    split
    · exact reasoned_ok _
    · split <;> exact reasoned_fail _
  | null | array _ | object _ => exact reasoned_fail _

theorem reasoned_number (j : Json) : (number j).Reasoned := by
  cases j with
  | bool value => exact reasoned_ok _
  | double d => exact reasoned_ok d
  | int n =>
    rw [number]
    split
    · exact reasoned_ok _
    · exact reasoned_fail _
  | string t =>
    rw [number]
    split
    · exact reasoned_fail _
    · split
      · exact reasoned_ok _
      · exact reasoned_fail _
  | null | array _ | object _ => exact reasoned_fail _

end Check

end PullGate
