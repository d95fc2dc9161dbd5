import PullGate.Proofs.CommandLine.Guard
import PullGate.Proofs.Number.Rounding

/-! The timeout of a run.  Settings are accepted only with a timeout that is a positive number or
not-a-number; with any other raw value, in whatever source and spelling, the command ends before it
sends anything. -/

namespace PullGate

/-! ### Texts that are read as not-a-number -/

namespace Double

theorem ofRatio_ne_nan (negative : Bool) (num : Nat) {den : Nat} (h : 0 < den) :
    ofRatio negative num den ≠ .nan := by
  rcases Nat.eq_zero_or_pos num with rfl | hnum
  · rw [ofRatio, if_neg h.ne', if_pos rfl]
    simp
  · rw [ofRatio_eq negative hnum h rfl]
    split <;> split <;> simp

theorem ofDecimal_ne_nan (negative : Bool) (digits count : Nat) (power : Int) :
    ofDecimal negative digits count power ≠ .nan := by
  unfold ofDecimal
  split
  · simp
  split
  · simp
  split
  · simp
  split
  · exact ofRatio_ne_nan _ _ Nat.one_pos
  · exact ofRatio_ne_nan _ _ (Nat.pow_pos (by decide))

theorem readMagnitude?_ne_nan (negative : Bool) (t : Text) :
    readMagnitude? negative t ≠ some .nan := by
  intro h
  unfold readMagnitude? at h
  simp only [Option.ite_none_left_eq_some, Option.map_eq_some_iff] at h
  obtain ⟨-, exponent, -, hnan⟩ := h
  exact ofDecimal_ne_nan _ _ _ _ hnan

/-- The word for not-a-number, in any case and with a sign if it likes. -/
def IsNanWord (t : Text) : Prop := Text.lowerAscii (splitSign t).2 = "nan"

/-- Only the word for it is read as not-a-number. -/
theorem read?_eq_nan_iff {t : Text} : read? t = some .nan ↔ IsNanWord t := by
  unfold read? IsNanWord
  dsimp only
  split
  · next h =>
    refine iff_of_false (by simp) fun hnan => ?_
    rw [hnan] at h
    revert h
    decide
  · split
    · next h => exact iff_of_true rfl h
    · next h => exact iff_of_false (readMagnitude?_ne_nan _ _) h

end Double

namespace Json

/-- A raw value that is read as not-a-number: the double itself, or the word for it with white space
around and, if it cannot be read without, underscores between its letters. -/
def SpellsNan : Json → Prop
  | .double d => d = .nan
  | .string t =>
    let word := Text.trim CodePoint.isWhiteSpace t
    Text.isUnicode t = true ∧ (Double.IsNanWord word ∨ Double.read? word = none ∧
      ∃ plain, Check.withoutUnderscores? word = some plain ∧ Double.IsNanWord plain)
  | _ => False

end Json

namespace Check

theorem numberText?_eq_nan_iff {t : Text} : numberText? t = some .nan ↔
    Double.IsNanWord (Text.trim CodePoint.isWhiteSpace t) ∨
      Double.read? (Text.trim CodePoint.isWhiteSpace t) = none ∧
      ∃ plain, withoutUnderscores? (Text.trim CodePoint.isWhiteSpace t) = some plain ∧
        Double.IsNanWord plain := by
  unfold numberText?
  dsimp only
  cases hread : Double.read? (Text.trim CodePoint.isWhiteSpace t) with
  | some d => simp [← Double.read?_eq_nan_iff, hread]
  | none => simp [← Double.read?_eq_nan_iff, hread, Option.bind_eq_some_iff]

theorem number_eq_nan_iff {j : Json} : number j = .ok .nan ↔ j.SpellsNan := by
  cases j with
  | bool value =>
    exact iff_of_false (fun h => Double.ofRatio_ne_nan _ _ Nat.one_pos (Except.ok.inj h)) id
  | int n =>
    refine iff_of_false (fun h => ?_) id
    rw [number] at h
    split at h
    · exact Double.ofRatio_ne_nan _ _ Nat.one_pos (Except.ok.inj h)
    · cases h
  | double d => simp [number, Json.SpellsNan]
  | string t =>
    rw [number, Json.SpellsNan, ← numberText?_eq_nan_iff]
    by_cases hunicode : Text.isUnicode t = true
    · cases numberText? t <;> simp [hunicode, Checked.fail]
    · simp [hunicode, Checked.fail]
  | null | array _ | object _ => simp [number, Json.SpellsNan, Checked.fail]

end Check

/-! ### The timeout that counts -/

namespace Json

/-- A raw value that is read as a number above zero. -/
def SpellsPositive (j : Json) : Prop :=
  ∃ d, Check.number j = .ok d ∧ ∃ x, d.value? = some x ∧ 0 < x

end Json

namespace Settings

variable {s : Sources} {settings : Settings}

theorem number_of_ofSources (h : ofSources s = .ok settings) :
    Check.number (s.raw "http_timeout") = .ok settings.timeout := by
  obtain ⟨v, hcoerces, -, rfl⟩ := coerces_of_ofSources h
  exact hcoerces.timeout

theorem isAtMostZero_of_ofSources (h : ofSources s = .ok settings) :
    settings.timeout.isAtMostZero = false := by
  obtain ⟨v, -, htimeout, rfl⟩ := coerces_of_ofSources h
  exact htimeout

/-- The timeout of accepted settings passes the rule because it is positive, or because it is not to
be compared. -/
theorem spells_of_ofSources (h : ofSources s = .ok settings) :
    (s.raw "http_timeout").SpellsNan ∨ (s.raw "http_timeout").SpellsPositive := by
  have hnumber := number_of_ofSources h
  rcases Double.isAtMostZero_eq_false_iff.mp (isAtMostZero_of_ofSources h) with hnan | hpositive
  · exact .inl (Check.number_eq_nan_iff.mp (hnan ▸ hnumber))
  · exact .inr ⟨_, hnumber, hpositive⟩

end Settings

namespace CommandLine

/-- What becomes of settings with the timeout that the sources give. -/
structure Timed (s : Settings.Sources) : Prop where
  read : ∀ settings, Settings.ofSources s = .ok settings →
    Check.number (s.raw "http_timeout") = .ok settings.timeout
  positive : ¬(s.raw "http_timeout").SpellsNan → ∀ settings, Settings.ofSources s = .ok settings →
    ∃ x, settings.timeout.value? = some x ∧ 0 < x
  unordered : (s.raw "http_timeout").SpellsNan → ∀ settings, Settings.ofSources s = .ok settings →
    settings.timeout = .nan
  refused : ¬(s.raw "http_timeout").SpellsNan → ¬(s.raw "http_timeout").SpellsPositive →
    ∃ rejection, Settings.ofSources s = .error rejection ∧
      ∀ surroundings arguments path a, Arguments.read arguments = .ok (.run path a) →
        sources surroundings a = s → ∀ replies,
          Refuses (run surroundings replies arguments) replies "Invalid configuration"
            rejection.message

/-- The timeout of accepted settings is positive unless it is given as not-a-number, and a run with
any other is refused. -/
theorem timed_sources (s : Settings.Sources) : Timed s where
  read _ := Settings.number_of_ofSources
  positive hnan settings h := by
    obtain ⟨d, hd, hpositive⟩ := (Settings.spells_of_ofSources h).resolve_left hnan
    obtain rfl : d = settings.timeout :=
      Except.ok.inj (hd.symm.trans (Settings.number_of_ofSources h))
    exact hpositive
  unordered hnan settings h :=
    Except.ok.inj ((Settings.number_of_ofSources h).symm.trans (Check.number_eq_nan_iff.mpr hnan))
  refused hnan hpositive := by
    cases h : Settings.ofSources s with
    | ok settings => exact absurd (Settings.spells_of_ofSources h) (not_or.mpr ⟨hnan, hpositive⟩)
    | error rejection =>
      refine ⟨rejection, rfl, ?_⟩
      rintro surroundings arguments path a harguments rfl replies
      exact refuses_of_settings harguments h replies

namespace Sample

/-- Surroundings with a timeout in the environment. -/
def timedBy (timeout : Text) : Surroundings :=
  { surroundings with environment := ("HTTP_TIMEOUT", timeout) :: surroundings.environment }

end Sample

/-- A negative number that is rounded to zero. -/
theorem timed_sources_sample : ∃ rejection,
    Settings.ofSources (sources (Sample.timedBy " -1_0e-400 ") Sample.parsed) = .error rejection ∧
    ∀ replies, Refuses (run (Sample.timedBy " -1_0e-400 ") replies Sample.arguments) replies
      "Invalid configuration" rejection.message := by
  have hnumber : Check.number (.string " -1_0e-400 ") = .ok (.finite true 0 0) := by
    decide +kernel
  obtain ⟨rejection, hrejection, hrefuses⟩ :=
    (timed_sources (sources (Sample.timedBy " -1_0e-400 ") Sample.parsed)).refused
      (fun hnan => nomatch hnumber.symm.trans (Check.number_eq_nan_iff.mpr hnan))
      (fun ⟨d, hd, hpositive⟩ => by
        obtain rfl := Except.ok.inj (hnumber.symm.trans hd)
        cases Double.isPositive_iff.mpr hpositive)
  exact ⟨rejection, hrejection, hrefuses _ Sample.arguments "analysis.json" Sample.parsed
    Sample.read_arguments rfl⟩

/-- Not-a-number is accepted as a timeout, and the command goes on to decorate with it. -/
theorem decorates_unordered : ∃ settings,
    Decorates (Sample.timedBy "nan") Sample.arguments Sample.parsed settings Sample.analysis ∧
      ¬∃ x, settings.timeout.value? = some x ∧ 0 < x :=
  ⟨{ Sample.settings with timeout := .nan },
    { Sample.decorates with settings := by decide +kernel }, by simp [Double.value?]⟩

end CommandLine

end PullGate
