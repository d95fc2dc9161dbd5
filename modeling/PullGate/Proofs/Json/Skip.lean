import PullGate.Json.Reader
import Mathlib.Data.List.TakeDrop
import Mathlib.Data.List.TakeWhile

/-! What the reader passes over between strings and brackets: spaces, and the digits, signs and
letters of numbers and words. -/

namespace PullGate.Json

variable {t u rest : Text} {c : CodePoint}

/-- Neither a quote nor a bracket. -/
def isNeutral : CodePoint → Bool
  | .scalar '"' | .scalar '[' | .scalar ']' | .scalar '\x7b' | .scalar '\x7d' => false
  | _ => true

/-- The rest of the text comes after neutral characters only. -/
def Skips (t rest : Text) : Prop := ∃ before, before.all isNeutral = true ∧ before ++ rest = t

namespace Skips

theorem refl (t : Text) : Skips t t := ⟨[], rfl, rfl⟩

theorem trans (h : Skips t u) (hrest : Skips u rest) : Skips t rest := by
  obtain ⟨before, hbefore, rfl⟩ := h
  obtain ⟨between, hbetween, rfl⟩ := hrest
  exact ⟨before ++ between, by rw [List.all_append, hbefore, hbetween]; rfl,
    List.append_assoc ..⟩

theorem cons (hc : isNeutral c = true) (h : Skips t rest) : Skips (c :: t) rest :=
  trans ⟨[c], by rw [List.all_cons, hc]; rfl, rfl⟩ h

theorem suffix (h : Skips t rest) : rest <:+ t := by
  obtain ⟨before, -, h⟩ := h
  exact ⟨before, h⟩

end Skips

theorem skips_dropWhile {p : CodePoint → Bool} (hp : ∀ c, p c = true → isNeutral c = true)
    (t : Text) : Skips t (t.dropWhile p) :=
  ⟨t.takeWhile p, List.all_eq_true.mpr fun c hc => hp c (List.mem_takeWhile_imp hc),
    List.takeWhile_append_dropWhile⟩

theorem isNeutral_of_isDigit (h : c.isDigit = true) : isNeutral c = true := by
  unfold isNeutral
  split
  all_goals first | rfl | cases h

theorem isNeutral_of_isSpace (h : isSpace c = true) : isNeutral c = true := by
  unfold isNeutral
  split
  all_goals first | rfl | cases h

theorem skips_skipSpace (t : Text) : Skips t (skipSpace t) :=
  skips_dropWhile (fun _ => isNeutral_of_isSpace) t

theorem skips_spanDigits (t : Text) : Skips t (Text.spanDigits t).2 := by
  rw [Text.spanDigits, List.span_eq_takeWhile_dropWhile]
  exact skips_dropWhile (fun _ => isNeutral_of_isDigit) t

theorem skips_readFraction (t : Text) : Skips t (readFraction t).2 := by
  unfold readFraction
  split
  · next u =>
    have hspan := (skips_spanDigits u).cons (c := .scalar '.') rfl
    split
    · exact .refl _
    · next heq => rwa [heq] at hspan
  · exact .refl t

theorem skips_readExponent (t : Text) : Skips t (readExponent t).2 := by
  unfold readExponent
  split
  · next e u =>
    split
    · next he =>
      have hneutral : isNeutral e = true := by
        simp only [Bool.or_eq_true, decide_eq_true_eq] at he
        rcases he with rfl | rfl <;> rfl
      have hspan : ∀ v, Skips u v → Skips (e :: u) (Text.spanDigits v).2 := fun v hv =>
        (hv.trans (skips_spanDigits v)).cons hneutral
      dsimp only
      split
      · exact .refl _
      · next heq =>
        refine (congrArg Prod.snd heq) ▸ hspan _ ?_
        split
        · exact .cons rfl (.refl _)
        · exact .cons rfl (.refl _)
        · exact .refl _
    · exact .refl _
  · exact .refl _

theorem skips_dropPrefix? {start : Text} (hstart : start.all isNeutral = true)
    (h : Text.dropPrefix? start t = some u) : Skips t u := by
  fun_induction Text.dropPrefix? start t
  case case1 => cases h; exact .refl _
  case case2 => cases h
  case case3 s start t ih =>
    rw [List.all_cons, Bool.and_eq_true] at hstart
    exact .cons hstart.1 (ih hstart.2 h)
  case case4 => cases h

end PullGate.Json
