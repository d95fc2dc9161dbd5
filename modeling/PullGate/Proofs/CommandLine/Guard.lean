import PullGate.Proofs.CommandLine.Status
import PullGate.Proofs.Settings.Rules

/-! What the command asks for before it sends anything.  Its settings and its file have to be
accepted; if one of them is not, the reason is on the error output, and nothing is on the wire. -/

namespace PullGate.CommandLine

/-- How the command refuses to run: with the status of a failure and the reason, and without a
request. -/
structure Refuses (e : Ending) (replies : List Http.Reply) (what reason : Text) : Prop where
  status : e.status = .ok 1
  stdout : e.stdout = []
  stderr : e.stderr = [.text ("  [!] " ++ what ++ ": " ++ reason ++ "\n")]
  wire : e.wire = { replies }

section Runs

variable {s : Surroundings} {arguments : List Text} {path : Text} {a : Arguments}

theorem run_eq_start (h : Arguments.read arguments = .ok (.run path a))
    (replies : List Http.Reply) : run s replies arguments = start s { replies } path a := by
  unfold run
  simp only [h]

theorem refuses_of_settings (harguments : Arguments.read arguments = .ok (.run path a))
    {rejection : Rejection} (h : Settings.ofSources (sources s a) = .error rejection)
    (replies : List Http.Reply) :
    Refuses (run s replies arguments) replies "Invalid configuration" rejection.message := by
  rw [run_eq_start harguments]
  unfold start
  rw [h]
  exact ⟨rfl, rfl, rfl, rfl⟩

theorem refuses_of_analysis (harguments : Arguments.read arguments = .ok (.run path a))
    {settings : Settings} (hsettings : Settings.ofSources (sources s a) = .ok settings)
    (hlevel : ∃ rank, Log.threshold? (Text.upper settings.logLevel) = some rank)
    {error : Analysis.LoadError} (h : Analysis.load s.room s.files path = .error error)
    (hreported : error.isReported = true) (replies : List Http.Reply) :
    Refuses (run s replies arguments) replies "Could not load analysis" error.message := by
  obtain ⟨rank, hrank⟩ := hlevel
  rw [run_eq_start harguments]
  unfold start
  simp only [hsettings, hrank, h, hreported, ↓reduceIte]
  exact ⟨rfl, rfl, rfl, rfl⟩

/-- Unless the command comes as far as to decorate, the wire stays as it was. -/
theorem wire_of_not_decorates
    (h : ¬∃ a settings analysis, Decorates s arguments a settings analysis)
    (replies : List Http.Reply) : (run s replies arguments).wire = { replies } := by
  cases harguments : Arguments.read arguments with
  | error fault => simp only [run, harguments, Ending.early]
  | ok request =>
    cases request with
    | help => simp only [run, harguments, Ending.early]
    | run path a =>
      rw [run_eq_start harguments]
      unfold start
      cases hsettings : Settings.ofSources (sources s a) with
      | error rejection => rfl
      | ok settings =>
        simp only
        cases hlevel : Log.threshold? (Text.upper settings.logLevel) with
        | none => rfl
        | some rank =>
          simp only
          cases hload : Analysis.load s.room s.files path with
          | error error =>
            simp only
            split <;> rfl
          | ok analysis =>
            exact absurd ⟨a, settings, analysis, ⟨path, harguments, hload⟩, ⟨rank, hlevel⟩,
              hsettings⟩ h

end Runs

/-- The inputs of the command are valid before anything is sent, and what is invalid is told. -/
structure Guarded (s : Surroundings) (replies : List Http.Reply) (arguments : List Text) :
    Prop where
  sent : (run s replies arguments).wire.sent ≠ [] →
    ∃ a settings analysis, Decorates s arguments a settings analysis
  settings : ∀ path a rejection, Arguments.read arguments = .ok (.run path a) →
    Settings.ofSources (sources s a) = .error rejection →
      Refuses (run s replies arguments) replies "Invalid configuration" rejection.message ∧
        rejection.problems ≠ [] ∧ ∀ p ∈ rejection.problems, rejection.Tells p
  analysis : ∀ path a settings error, Arguments.read arguments = .ok (.run path a) →
    Settings.ofSources (sources s a) = .ok settings →
    (∃ rank, Log.threshold? (Text.upper settings.logLevel) = some rank) →
    Analysis.load s.room s.files path = .error error → error.isReported = true →
      Refuses (run s replies arguments) replies "Could not load analysis" error.message

/-- Nothing is sent before the inputs are valid, whatever the arguments, the settings and the files
are. -/
theorem guarded_run (s : Surroundings) (replies : List Http.Reply) (arguments : List Text) :
    Guarded s replies arguments where
  sent hsent := by
    by_contra h
    exact hsent (by rw [wire_of_not_decorates h])
  settings _ _ _ harguments h :=
    ⟨refuses_of_settings harguments h replies, Settings.problems_ne_nil h,
      fun _ hp => Rejection.tells hp⟩
  analysis _ _ _ _ harguments hsettings hlevel h hreported :=
    refuses_of_analysis harguments hsettings hlevel h hreported replies

/-- A file that is not there. -/
theorem guarded_run_sample :
    Refuses (run { Sample.surroundings with files := fun _ => .absent } (Sample.fault [])
      Sample.arguments) (Sample.fault []) "Could not load analysis"
      "'analysis.json' is not a readable file." :=
  (guarded_run _ (Sample.fault []) Sample.arguments).analysis "analysis.json" Sample.parsed
    Sample.settings (.noFile "analysis.json") Sample.read_arguments (by decide +kernel)
    ⟨20, by decide +kernel⟩ rfl rfl

end PullGate.CommandLine
