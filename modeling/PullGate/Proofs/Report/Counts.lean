import PullGate.Proofs.Text.Cut
import PullGate.Proofs.Text.Digits
import PullGate.Report

/-! The counts in the rows of a report.  Each is read back from the text of its row, with the noun
behind it; and the noun is singular for exactly one, whatever else the row counts. -/

namespace PullGate

def Row.text? (row : Row) : Option Text :=
  match row.value with
  | .text t => some t
  | _ => none

namespace Report

/-- Reads a count and the noun behind it. -/
def readCounted? (t : Text) : Option (Int × Text) := do
  let (number, noun) ← Text.cut? ' ' t
  let n ← Text.toInt? number
  return (n, noun)

/-- Reads two counts with their nouns, the second of them in brackets. -/
def readTwoCounted? (t : Text) : Option ((Int × Text) × (Int × Text)) := do
  let (outer, rest) ← Text.cut? '(' t
  let rest ← Text.dropPrefix? "and " rest
  let (inner, _) ← Text.cut? ')' rest
  return (← readCounted? outer.dropLast, ← readCounted? inner)

/-- A noun that is inflected for a count. -/
structure Inflected (n : Int) (singular plural noun : Text) : Prop where
  singular_iff : noun = singular ↔ n = 1
  plural_iff : noun = plural ↔ n ≠ 1

def inflect (n : Int) (singular plural : Text) : Text := if n = 1 then singular else plural

variable {n : Int} {singular plural : Text} {c : CodePoint}

theorem inflected_inflect (h : singular ≠ plural) :
    Inflected n singular plural (inflect n singular plural) := by
  unfold inflect
  by_cases hn : n = 1
  · rw [if_pos hn]
    exact ⟨iff_of_true rfl hn, iff_of_false h (not_not_intro hn)⟩
  · rw [if_neg hn]
    exact ⟨iff_of_false h.symm hn, iff_of_true rfl hn⟩

theorem counted_eq (n : Int) (singular plural : Text) :
    counted n singular plural =
      Text.ofInt n ++ CodePoint.scalar ' ' :: inflect n singular plural := by
  rw [counted, List.append_assoc]
  rfl

theorem readCounted?_counted (n : Int) (singular plural : Text) :
    readCounted? (counted n singular plural) = some (n, inflect n singular plural) := by
  have hcut : Text.cut? ' ' (counted n singular plural) =
      some (Text.ofInt n, inflect n singular plural) := by
    rw [counted_eq]
    exact Text.cut?_append_cons (Text.not_mem_ofInt rfl (by decide) n) _
  simp only [readCounted?, hcut, Option.bind_eq_bind, Option.bind_some, Text.toInt?_ofInt]
  rfl

/-- No bracket stands in a count and its noun. -/
theorem not_mem_counted (hdigit : c.isDigit = false) (hmark : c ∉ ("- " : Text))
    (hsingular : c ∉ singular) (hplural : c ∉ plural) : c ∉ counted n singular plural := by
  have hnoun : c ∉ inflect n singular plural := by
    unfold inflect
    split
    · exact hsingular
    · exact hplural
  obtain ⟨hsign, hblank⟩ := List.forall_mem_cons.mp fun x hx (hc : c = x) => hmark (hc ▸ hx)
  rw [counted_eq]
  refine List.not_mem_append (Text.not_mem_ofInt hdigit hsign n) ?_
  exact List.not_mem_cons_of_ne_of_not_mem (hblank _ List.mem_cons_self) hnoun

theorem readTwoCounted?_append {first second : Text} (hfirst : CodePoint.scalar '(' ∉ first)
    (hsecond : CodePoint.scalar ')' ∉ second) :
    readTwoCounted? (first ++ " (and " ++ second ++ ")") = do
      return (← readCounted? first, ← readCounted? second) := by
  have hcut : Text.cut? '(' (first ++ " (and " ++ second ++ ")") =
      some (first ++ ([.scalar ' '] : Text), ("and " : Text) ++ (second ++ ")")) := by
    have hblank : CodePoint.scalar '(' ∉ first ++ ([.scalar ' '] : Text) :=
      List.not_mem_append hfirst (by decide)
    rw [← Text.cut?_append_cons hblank]
    simp [Text.ofString]
  have hinner : Text.cut? ')' (second ++ ")") = some (second, []) :=
    Text.cut?_append_cons hsecond []
  simp only [readTwoCounted?, hcut, hinner, Option.bind_eq_bind, Option.bind_some,
    Text.dropPrefix?_append, List.dropLast_concat]

theorem readTwoCounted?_security (vulnerabilities hotspots : Int) :
    (security vulnerabilities hotspots).text?.bind readTwoCounted? =
      some ((vulnerabilities, inflect vulnerabilities "Vulnerability" "Vulnerabilities"),
        (hotspots, inflect hotspots "Hotspot" "Hotspots")) := by
  have hfirst : CodePoint.scalar '(' ∉
      counted vulnerabilities "Vulnerability" "Vulnerabilities" :=
    not_mem_counted rfl (by decide) (by decide) (by decide)
  have hsecond : CodePoint.scalar ')' ∉ counted hotspots "Hotspot" "Hotspots" :=
    not_mem_counted rfl (by decide) (by decide) (by decide)
  have hread := readTwoCounted?_append hfirst hsecond
  rw [readCounted?_counted, readCounted?_counted] at hread
  exact hread

/-- What can be read from a row cannot differ between rows of one text. -/
theorem injective_text? {α β : Type} {row : α → Row} {read : Text → Option β} {value : α → β}
    (hread : ∀ x, (row x).text?.bind read = some (value x)) (hvalue : Function.Injective value) :
    Function.Injective fun x => (row x).text? := by
  intro x y h
  have hsame : some (value x) = some (value y) := by
    rw [← hread, ← hread]
    exact congrArg (Option.bind · read) h
  exact hvalue (Option.some.inj hsame)

theorem readCounted?_reliability (bugs : Int) : (reliability bugs).text?.bind readCounted? =
    some (bugs, inflect bugs "Bug" "Bugs") :=
  readCounted?_counted bugs "Bug" "Bugs"

theorem readCounted?_maintainability (codeSmells : Int) :
    (maintainability codeSmells).text?.bind readCounted? =
      some (codeSmells, inflect codeSmells "Code Smell" "Code Smells") :=
  readCounted?_counted codeSmells "Code Smell" "Code Smells"

/-- Every count is read back from the text of its row, with a noun that is inflected for it alone;
so the text of a row tells its counts. -/
theorem legible_counts :
    (∀ bugs, ∃ noun, (reliability bugs).text?.bind readCounted? = some (bugs, noun) ∧
      Inflected bugs "Bug" "Bugs" noun) ∧
    (∀ codeSmells, ∃ noun,
      (maintainability codeSmells).text?.bind readCounted? = some (codeSmells, noun) ∧
      Inflected codeSmells "Code Smell" "Code Smells" noun) ∧
    (∀ vulnerabilities hotspots, ∃ noun noun',
      (security vulnerabilities hotspots).text?.bind readTwoCounted? =
        some ((vulnerabilities, noun), (hotspots, noun')) ∧
      Inflected vulnerabilities "Vulnerability" "Vulnerabilities" noun ∧
      Inflected hotspots "Hotspot" "Hotspots" noun') ∧
    (Function.Injective fun bugs => (reliability bugs).text?) ∧
    (Function.Injective fun codeSmells => (maintainability codeSmells).text?) ∧
    Function.Injective fun counts : Int × Int => (security counts.1 counts.2).text? := by
  refine ⟨fun bugs => ?_, fun codeSmells => ?_, fun vulnerabilities hotspots => ?_, ?_, ?_, ?_⟩
  · exact ⟨_, readCounted?_reliability bugs, inflected_inflect (by decide)⟩
  · exact ⟨_, readCounted?_maintainability codeSmells, inflected_inflect (by decide)⟩
  · exact ⟨_, _, readTwoCounted?_security vulnerabilities hotspots, inflected_inflect (by decide),
      inflected_inflect (by decide)⟩
  · exact injective_text? readCounted?_reliability fun _ _ h => (Prod.mk.inj h).1
  · exact injective_text? readCounted?_maintainability fun _ _ h => (Prod.mk.inj h).1
  · refine injective_text? (fun counts => readTwoCounted?_security counts.1 counts.2) ?_
    rintro ⟨v, h⟩ ⟨v', h'⟩ heq
    obtain ⟨hfirst, hsecond⟩ := Prod.mk.inj heq
    exact Prod.ext (Prod.mk.inj hfirst).1 (Prod.mk.inj hsecond).1

example : (security 1 (-12)).text? = some "1 Vulnerability (and -12 Hotspots)" := by cbv

end Report

end PullGate
