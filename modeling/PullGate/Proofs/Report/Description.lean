import PullGate.Proofs.Decoration.Errand
import PullGate.Proofs.Text.Cut

/-! The description of a report, line by line.  Where no condition is broken by a line end, the
lines tell the verdict and the conditions, however these look. -/

namespace PullGate

/-- No condition that failed has a line end in it. -/
def Analysis.Unbroken (a : Analysis) : Prop :=
  ∀ condition ∈ a.failedConditions, CodePoint.scalar '\n' ∉ condition

namespace Report

variable {gate gate' : Gate} {conditions conditions' : List Text}

def bullet (condition : Text) : Text := "- " ++ condition

/-- The lines under the verdict: one for each condition, or an empty one where there is none. -/
def bullets : List Text → List Text
  | [] => [[]]
  | conditions => conditions.map bullet

theorem bullets_ne_nil (conditions : List Text) : bullets conditions ≠ [] := by
  cases conditions <;> exact List.cons_ne_nil _ _

theorem join_bullets (sep : Text) (conditions : List Text) :
    Text.join sep (bullets conditions) = Text.join sep (conditions.map bullet) := by
  cases conditions <;> rfl

theorem bullet_ne_nil (condition : Text) : bullet condition ≠ [] := List.cons_ne_nil _ _

/-- A condition that is empty, or looks like a bullet itself, is still told from none. -/
theorem bullets_injective (h : bullets conditions = bullets conditions') :
    conditions = conditions' := by
  cases conditions with
  | nil =>
    cases conditions' with
    | nil => rfl
    | cons c conditions' => exact absurd (List.cons.inj h).1.symm (bullet_ne_nil c)
  | cons c conditions =>
    cases conditions' with
    | nil => exact absurd (List.cons.inj h).1 (bullet_ne_nil c)
    | cons c' conditions' => exact (List.map_inj_right fun _ _ => List.append_cancel_left).mp h

theorem verdict_injective (h : verdict gate = verdict gate') : gate = gate' := by
  revert h
  cases gate <;> cases gate' <;> decide

theorem newline_not_mem_verdict (gate : Gate) : CodePoint.scalar '\n' ∉ verdict gate := by
  cases gate <;> decide

theorem newline_not_mem_bullets (h : ∀ c ∈ conditions, CodePoint.scalar '\n' ∉ c) :
    ∀ line ∈ bullets conditions, CodePoint.scalar '\n' ∉ line := by
  cases conditions with
  | nil => exact List.forall_mem_singleton.mpr List.not_mem_nil
  | cons c conditions =>
    refine List.forall_mem_map.mpr fun c hc => ?_
    exact List.not_mem_append (by decide) (h c hc)

theorem split_describe (gate : Gate) (h : ∀ c ∈ conditions, CodePoint.scalar '\n' ∉ c) :
    (describe gate conditions).split '\n' = verdict gate :: bullets conditions := by
  have hlines : describe gate conditions =
      verdict gate ++ CodePoint.scalar '\n' :: Text.join ("\n" : Text) (bullets conditions) := by
    rw [join_bullets, describe, List.append_assoc]
    rfl
  rw [hlines, Text.split_append_sep, Text.split_of_not_mem (newline_not_mem_verdict gate)]
  exact congrArg (verdict gate :: ·)
    (Text.split_join (bullets_ne_nil conditions) (newline_not_mem_bullets h))

/-- The lines of a description are the verdict and the conditions, each with a line of its own, so
that it tells both. -/
theorem legible_description {a b : Analysis} (ha : a.Unbroken) (hb : b.Unbroken) :
    (description a).split '\n' = verdict a.gate :: bullets a.failedConditions ∧
    (description a = description b ↔
      a.gate = b.gate ∧ a.failedConditions = b.failedConditions) := by
  have hlines := split_describe a.gate ha
  refine ⟨hlines, fun h => ?_, fun ⟨hgate, hconditions⟩ => ?_⟩
  · have hsame : verdict a.gate :: bullets a.failedConditions =
        verdict b.gate :: bullets b.failedConditions := by
      rw [← hlines, ← split_describe b.gate hb]
      exact congrArg (Text.split '\n') h
    obtain ⟨hverdict, hbullets⟩ := List.cons.inj hsame
    exact ⟨verdict_injective hverdict, bullets_injective hbullets⟩
  · rw [description, description, hgate, hconditions]

/-- A condition that is empty, one that looks like a bullet and one that looks like a verdict. -/
def posing : Analysis :=
  { Decoration.Sample.analysis with
    gate := .error
    failedConditions := ["", "- ", "Quality Gate passed"] }

theorem legible_description_sample :
    (description posing).split '\n' =
      (["Quality Gate failed", "- ", "- - ", "- Quality Gate passed"] : List Text) ∧
    (description posing = description Decoration.Sample.analysis ↔
      posing.gate = Decoration.Sample.analysis.gate ∧
        posing.failedConditions = Decoration.Sample.analysis.failedConditions) :=
  legible_description (a := posing) (b := Decoration.Sample.analysis)
    (by unfold Analysis.Unbroken; decide) (by unfold Analysis.Unbroken; decide)

end Report

end PullGate
