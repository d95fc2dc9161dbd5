import Mathlib.Data.Prod.Basic
import PullGate.CommandLine.Basic
import PullGate.Proofs.Decoration.Count
import PullGate.Proofs.Session.Settlement

/-! The exit status of the command.  It tells whether the pull request was decorated, except where a
run is stopped by a fault of the network that has no text: the command takes such a run for one that
was skipped. -/

namespace PullGate

open Decoration

/-! ### Texts of failures -/

theorem Token.Refusal.message_ne_nil (refusal : Token.Refusal) : refusal.message ≠ [] := by
  cases refusal <;> exact List.cons_ne_nil _ _

theorem Url.Fault.message_ne_nil (fault : Url.Fault) : fault.message ≠ [] := by
  cases fault <;> exact List.cons_ne_nil _ _

theorem Json.Malformed.message_ne_nil (problem : Json.Malformed) : problem.message ≠ [] := by
  cases problem <;> exact List.cons_ne_nil _ _

/-- Only a fault of the network can be without a text. -/
theorem Stop.message_eq_nil_iff {cause : Stop} :
    cause.message = [] ↔ ∃ fault, cause = .network fault [] := by
  constructor
  · intro h
    cases cause with
    | network fault message => exact ⟨fault, congrArg _ h⟩
    | auth refusal => exact absurd h refusal.message_ne_nil
    | address fault => exact absurd h fault.message_ne_nil
    | malformedAnswer document problem left =>
      exact absurd h (List.append_ne_nil_of_left_ne_nil (List.append_ne_nil_of_left_ne_nil
        problem.message_ne_nil _) _)
    | provider | header | noTransport | unwritableBody => cases h
  · rintro ⟨fault, rfl⟩
    rfl

theorem Failure.ofReading_ne_network (fault : Http.Response.Fault) {network : NetworkFault}
    {message : Text} : ofReading fault ≠ .stop (.network network message) := by
  cases fault with
  | charset => simp [ofReading]
  | json document error => cases error <;> simp [ofReading]

/-! ### Runs that a fault of the network stops -/

namespace Decoration

theorem provider_or_breakdown_of_rejection {r : Http.Response} {f : Failure}
    (h : Client.rejection? r = some f) :
    (∃ status body, f = .stop (.provider status body)) ∨ ∃ cause, f = .breakdown cause := by
  cases hs : r.isSuccess with
  | true => simp [Client.rejection?, hs] at h
  | false =>
    rcases Client.rejection?_of_not_isSuccess hs with ⟨-, body, hr⟩ | ⟨-, cause, hr⟩
    · exact .inl ⟨_, body, Option.some.inj (h.symm.trans hr)⟩
    · exact .inr ⟨cause, Option.some.inj (h.symm.trans hr)⟩

/-- The failure on a response is the rejection by the service, one of reading the answer, or a
breakdown. -/
theorem Errand.failure?_ok_cases {e : Errand} {r : Http.Response} {f : Failure}
    (h : e.failure? (.ok r) = some f) : (∃ status body, f = .stop (.provider status body)) ∨
      (∃ cause, f = .breakdown cause) ∨ ∃ fault, f = .ofReading fault := by
  have hrejected : ∀ {f}, Client.rejection? r = some f →
      (∃ status body, f = .stop (.provider status body)) ∨ (∃ cause, f = .breakdown cause) ∨
        ∃ fault, f = .ofReading fault :=
    fun h => (provider_or_breakdown_of_rejection h).imp_right .inl
  cases e with
  | clearReport | unapprove => cases h
  | putReport | writeComment => exact hrejected h
  | approve =>
    simp only [failure?] at h
    split at h
    · cases h
    · exact hrejected h
  | postBatch batch =>
    simp only [failure?, received] at h
    split at h
    · cases h
    · next failure hfailure =>
      suffices hf : failure = f from hf ▸ hrejected hfailure
      unfold excused at h
      split at h
      · split at h
        · cases h
        · exact Option.some.inj h
      · exact Option.some.inj h
  | findComment =>
    simp only [failure?] at h
    split at h
    · next failure hfailure => exact Option.some.inj h ▸ hrejected hfailure
    · split at h
      · exact .inr (.inr ⟨_, (Option.some.inj h).symm⟩)
      · obtain ⟨fault, -, rfl⟩ := Option.map_eq_some_iff.mp h
        exact .inr (.inl ⟨_, rfl⟩)

/-- A failure to get a response is handed on, except where a batch is too large. -/
theorem Errand.failure?_error (e : Errand) (f : Failure) : e.failure? (.error f) = some f ∨
    e.failure? (.error f) = none ∧ ∃ body, f = .stop (.provider tooLarge body) := by
  cases e with
  | postBatch batch =>
    cases f with
    | breakdown cause => exact .inl rfl
    | stop cause =>
      cases cause with
      | provider status body =>
        by_cases h : status = tooLarge
        · exact .inr ⟨by simp [failure?, received, excused, Except.failure?, h], body, by rw [h]⟩
        · exact .inl (by simp [failure?, received, excused, Except.failure?, h])
      | _ => exact .inl rfl
  | _ => exact .inl rfl

/-- An errand comes to a fault of the network exactly if that is the answer to its call. -/
theorem Errand.failure?_eq_network_iff {e : Errand} {answer : Answer} {fault : NetworkFault}
    {message : Text} : e.failure? answer = some (.stop (.network fault message)) ↔
      answer = .error (.stop (.network fault message)) := by
  cases answer with
  | error f =>
    rcases e.failure?_error f with h | ⟨h, body, rfl⟩
    · rw [h, Option.some.injEq, Except.error.injEq]
    · simp [h]
  | ok r =>
    refine iff_of_false (fun h => ?_) (by simp)
    rcases failure?_ok_cases h with ⟨status, body, hf⟩ | ⟨cause, hf⟩ | ⟨fault, hf⟩
    · cases hf
    · cases hf
    · exact Failure.ofReading_ne_network fault hf.symm

end Decoration

namespace Client

variable {c : Client} {approval : Bool} {a : Analysis} {w : Wire}

/-- A decoration is stopped by a fault of the network exactly if one of its requests to the service
came to that fault. -/
theorem stopped_network_iff {fault : NetworkFault} {message : Text} :
    (∃ upload, (c.decorate approval a w).1 = .ok (.stopped upload (.network fault message))) ↔
      c.session.Faults (c.traffic approval a w) fault message := by
  obtain ⟨q, upload, hserves, hvalue⟩ := exists_conclusion c approval a w
  rw [← hserves.network_iff, hvalue]
  constructor
  · rintro ⟨upload', hstopped⟩
    have hfailure : failure? (untilFatal (schedule c.setup approval a q) q) =
        some (.stop (.network fault message)) := by
      unfold conclusion at hstopped
      split at hstopped
      · cases hstopped
      · next cause h =>
        obtain ⟨rfl, rfl⟩ := Outcome.stopped.inj (Except.ok.inj hstopped)
        exact h
      · cases hstopped
    obtain ⟨x, hx, hfailed⟩ := List.exists_of_findSome?_eq_some hfailure
    exact ⟨_, List.mem_map_of_mem hx, Errand.failure?_eq_network_iff.mp hfailed⟩
  · rintro ⟨x, hx, hanswer⟩
    obtain ⟨y, hy, rfl⟩ := List.mem_map.mp hx
    refine ⟨upload, ?_⟩
    rw [failure?_of_mem hy (Errand.failure?_eq_network_iff.mpr hanswer)]
    rfl

end Client

namespace Client

/-- The host takes reports, so no decoration is skipped. -/
theorem decorate_ne_skipped {c : Client} {approval : Bool} {a : Analysis} {w : Wire} :
    (c.decorate approval a w).1 ≠ .ok .skipped := by
  obtain ⟨q, upload, -, hvalue⟩ := exists_conclusion c approval a w
  rw [hvalue]
  unfold conclusion
  split <;> simp

end Client

/-! ### The command -/

namespace CommandLine

/-- The command comes as far as to decorate: its arguments, its settings and the analysis are
accepted. -/
structure Decorates (s : Surroundings) (arguments : List Text) (a : Arguments) (settings : Settings)
    (analysis : Analysis) : Prop where
  analysis : ∃ path, Arguments.read arguments = .ok (.run path a) ∧
    Analysis.load s.room s.files path = .ok analysis
  level : ∃ rank, Log.threshold? (Text.upper settings.logLevel) = some rank
  settings : Settings.ofSources (sources s a) = .ok settings

/-- The client that the command sends with. -/
def client (s : Surroundings) (settings : Settings) : Client :=
  ⟨settings.toConfiguration, .fraction settings.timeout, s.idna⟩

/-- Whether the command settles the approval: its arguments go before its settings. -/
def approval (a : Arguments) (settings : Settings) : Bool := a.approve.getD settings.approval

section Reports

variable {s : Surroundings} {replies : List Http.Reply} {arguments : List Text} {a : Arguments}
  {settings : Settings} {analysis : Analysis}

theorem Decorates.run_eq (h : Decorates s arguments a settings analysis)
    (replies : List Http.Reply) : ∃ rank,
    run s replies arguments = decorate s { replies } a settings rank analysis := by
  obtain ⟨path, harguments, hload⟩ := h.analysis
  obtain ⟨rank, hrank⟩ := h.level
  refine ⟨rank, ?_⟩
  unfold run start
  simp only [harguments, h.settings, hrank, hload]

/-- How the command ends on an outcome: the status tells whether it has the text of an error, and so
does what is printed. -/
structure Reports (a : Arguments) (analysis : Analysis) (e : Ending) (outcome : Outcome) :
    Prop where
  status : e.status = .ok (if errorText outcome = [] then 0 else 1)
  stdout : e.stdout = (tell a.json analysis outcome).1
  stderr : ∀ note ∈ (tell a.json analysis outcome).2, note ∈ e.stderr

/-- The command decorates as its client does: it breaks down where the client does, and otherwise
reports the outcome. -/
theorem Decorates.ends (h : Decorates s arguments a settings analysis)
    (hcloud : s.capabilities = .cloud) {result : Except Breakdown Outcome} {w : Wire}
    (hresult : (client s settings).decorate (approval a settings) analysis { replies } =
      (result, w)) : (run s replies arguments).wire = w ∧
    ((∃ cause, result = .error cause ∧
        (run s replies arguments).status = .error (.breakdown cause)) ∨
      ∃ outcome, result = .ok outcome ∧ Reports a analysis (run s replies arguments) outcome) := by
  obtain ⟨rank, hrun⟩ := h.run_eq replies
  have hended : ((client s settings).session.carryOut (Decoration.run
      ⟨client s settings, settings.toConfiguration.target, .cloud⟩ (approval a settings)
      analysis)).run { replies } = (result, w) := hresult
  unfold client approval at hended
  rw [hrun]
  unfold decorate
  simp only [hcloud, hended]
  cases result with
  | error cause => exact ⟨rfl, .inl ⟨cause, rfl, rfl⟩⟩
  | ok outcome =>
    by_cases htext : errorText outcome = []
    · simp only [htext, List.isEmpty_nil, ↓reduceIte]
      exact ⟨trivial, .inr ⟨outcome, rfl, by simp [htext], rfl,
        fun note hnote => List.mem_append_right _ hnote⟩⟩
    · have hempty : (errorText outcome).isEmpty = false := by simpa using htext
      simp only [hempty, Bool.false_eq_true, ↓reduceIte]
      refine ⟨trivial, .inr ⟨outcome, rfl, by simp [htext], rfl, fun note hnote => ?_⟩⟩
      exact List.mem_append_left _ (List.mem_append_right _ hnote)

/-- The wire of a command that decorates is as its client leaves it. -/
theorem Decorates.wire_eq (h : Decorates s arguments a settings analysis)
    (hcloud : s.capabilities = .cloud) (replies : List Http.Reply) :
    (run s replies arguments).wire =
      ((client s settings).decorate (approval a settings) analysis { replies }).2 :=
  (h.ends hcloud Prod.mk.eta.symm).1

/-- The command reports the outcome that its client came to. -/
theorem Decorates.reports (h : Decorates s arguments a settings analysis)
    (hcloud : s.capabilities = .cloud) {outcome : Outcome}
    (houtcome : ((client s settings).decorate (approval a settings) analysis { replies }).1 =
      .ok outcome) : Reports a analysis (run s replies arguments) outcome := by
  rcases (h.ends hcloud Prod.mk.eta.symm).2 with ⟨cause, hcause, -⟩ | ⟨o, ho, hreports⟩
  · cases houtcome.symm.trans hcause
  · obtain rfl := Except.ok.inj (houtcome.symm.trans ho)
    exact hreports

/-- A command that ends with a status has decorated with an outcome. -/
theorem Decorates.exists_outcome (h : Decorates s arguments a settings analysis)
    (hcloud : s.capabilities = .cloud) {status : Nat}
    (hstatus : (run s replies arguments).status = .ok status) :
    ∃ outcome, ((client s settings).decorate (approval a settings) analysis { replies }).1 =
      .ok outcome := by
  rcases (h.ends hcloud Prod.mk.eta.symm).2 with ⟨cause, -, hbroken⟩ | ⟨outcome, ho, -⟩
  · cases hbroken.symm.trans hstatus
  · exact ⟨outcome, ho⟩

/-- A request to the service came to a fault of the network that has no text. -/
def IsSilent (c : Client) (approval : Bool) (a : Analysis) (replies : List Http.Reply) : Prop :=
  ∃ fault, c.session.Faults (c.traffic approval a { replies }) fault []

def skippedLine : Text := "Decoration skipped: Code Insights is not available.\n"

def failedNote (text : Text) : Note := .text ("  [!] Decoration failed: " ++ text ++ "\n")

/-- What the command owes to a run with an outcome: a status that tells whether the pull request was
decorated, and where it was not, the reason. -/
structure Honest (a : Arguments) (e : Ending) (status : Nat) (outcome : Outcome) : Prop where
  status_iff : status = 0 ↔ outcome.isDecorated = true
  failed : outcome.isDecorated = false → status = 1
  told : outcome.isDecorated = false → a.json = false →
    e.stdout = [] ∧ ∃ text ≠ [], failedNote text ∈ e.stderr

variable {e : Ending} {status : Nat} {upload : Upload} {cause : Stop}

theorem Reports.honest_of_decorated (h : Reports a analysis e (.decorated upload))
    (hstatus : e.status = .ok status) : Honest a e status (.decorated upload) := by
  obtain rfl : status = 0 := Except.ok.inj (hstatus.symm.trans h.status)
  exact ⟨by simp [Outcome.isDecorated], nofun, nofun⟩

theorem Reports.honest_of_stopped (h : Reports a analysis e (.stopped upload cause))
    (hstatus : e.status = .ok status) (hmessage : cause.message ≠ []) :
    Honest a e status (.stopped upload cause) := by
  have htext : errorText (.stopped upload cause) = cause.message := rfl
  have hempty : cause.message.isEmpty = false := by simpa using hmessage
  have hreport := h.status
  rw [htext, if_neg hmessage] at hreport
  obtain rfl : status = 1 := Except.ok.inj (hstatus.symm.trans hreport)
  refine ⟨by simp [Outcome.isDecorated], fun _ => rfl, fun _ hjson => ?_⟩
  have htell : tell a.json analysis (.stopped upload cause) = ([], [failedNote cause.message]) := by
    simp [tell, hjson, Outcome.isDecorated, htext, hempty, failedNote]
  refine ⟨by rw [h.stdout, htell], cause.message, hmessage, h.stderr _ ?_⟩
  rw [htell]
  exact .head _

/-- A stop without a text is taken for a run that was skipped. -/
theorem Reports.of_silent (h : Reports a analysis e (.stopped upload cause))
    (hstatus : e.status = .ok status) (hmessage : cause.message = []) :
    status = 0 ∧ (a.json = false → e.stdout = skippedLine) := by
  have htext : errorText (.stopped upload cause) = [] := hmessage
  have hreport := h.status
  rw [htext, if_pos rfl] at hreport
  refine ⟨Except.ok.inj (hstatus.symm.trans hreport), fun hjson => ?_⟩
  rw [h.stdout]
  simp [tell, hjson, Outcome.isDecorated, htext, skippedLine]

end Reports

namespace Sample

def arguments : List Text := ["analysis.json"]

def parsed : Arguments := { path := some "analysis.json" }

def document : Text :=
  "\x7b\"project_key\": \"project\", \"commit_sha\": \"abc123\", \"pull_request_id\": 7, " ++
    "\"quality_gate_status\": \"OK\", \"analysis_date\": \"2024-05-01T10:00:00\", " ++
    "\"dashboard_url\": \"https://sonar.example.com/dashboard\"\x7d"

/-- Surroundings in which everything is accepted. -/
def surroundings : Surroundings where
  environment := [("BITBUCKET_TOKEN", "basic_token"), ("BITBUCKET_PROJECT_KEY", "project"),
    ("BITBUCKET_REPOSITORY_SLUG", "repository")]
  dotenv := none
  files := Directory.system ⟨["work"], [("analysis.json", .octets (Text.utf8 document))]⟩

def settings : Settings where
  url := "https://api.bitbucket.org"
  token := "basic_token"
  oauth2Key := []
  project := "project"
  repository := "repository"
  approval := false
  timeout := Double.ofInt 10
  logLevel := "INFO"

/-- The analysis in the file. -/
def analysis : Analysis :=
  { Decoration.Sample.analysis with
    dashboardUrl := "https://sonar.example.com/dashboard"
    imageUrl := []
    counts := .zero
    issueCount := 0
    annotations := [] }

theorem read_arguments : Arguments.read arguments = .ok (.run "analysis.json" parsed) := rfl

theorem decorates : Decorates surroundings arguments parsed settings analysis where
  analysis := by
    have hload : (Analysis.load surroundings.room surroundings.files "analysis.json").toOption =
        some analysis := by decide +kernel
    refine ⟨"analysis.json", read_arguments, ?_⟩
    cases hresult : Analysis.load surroundings.room surroundings.files "analysis.json" with
    | ok found =>
      rw [hresult] at hload
      exact congrArg _ (Option.some.inj hload)
    | error error =>
      rw [hresult] at hload
      cases hload
  level := ⟨20, by decide +kernel⟩
  settings := by decide +kernel

/-- Replies of which the first is a fault of the network, with the given text. -/
def fault (message : Text) : List Http.Reply := [.error (.network .connection message)]

theorem decorate_fault (message : Text) : ∃ upload,
    ((client surroundings settings).decorate (approval parsed settings) analysis
        { replies := fault message }).1 =
      .ok (.stopped upload (.network .connection message)) := by
  obtain ⟨-, hplayed⟩ := Client.course_of_able (c := client surroundings settings)
    (a := analysis) rfl Decoration.Sample.headerFits
    (Client.able_call Decoration.Sample.preparable Decoration.Sample.sendable)
    (approval parsed settings) { replies := fault message }
  obtain ⟨upload, -, hrun⟩ := value_run (client surroundings settings).setup
    (approval parsed settings) analysis rfl (by decide) ((fault message).map Answer.ofReply)
  refine ⟨upload, hplayed.trans (hrun.trans ?_)⟩
  rw [Client.untilFatal_schedule_of_error rfl]
  rfl

end Sample

/-- The command is honest about a run exactly as long as no request to the service came to a fault
of the network without a text; a run with such a fault ends as one that was skipped. -/
theorem status_run (s : Surroundings) (replies : List Http.Reply) (arguments : List Text)
    {a : Arguments} {settings : Settings} {analysis : Analysis}
    (h : Decorates s arguments a settings analysis) (hcloud : s.capabilities = .cloud)
    {status : Nat} (hstatus : (run s replies arguments).status = .ok status) :
    ∃ outcome, ((client s settings).decorate (approval a settings) analysis { replies }).1 =
        .ok outcome ∧
      (¬IsSilent (client s settings) (approval a settings) analysis replies →
        Honest a (run s replies arguments) status outcome) ∧
      (IsSilent (client s settings) (approval a settings) analysis replies →
        outcome.isDecorated = false ∧ status = 0 ∧
          (a.json = false → (run s replies arguments).stdout = skippedLine)) := by
  obtain ⟨outcome, houtcome⟩ := h.exists_outcome hcloud hstatus
  have hreports := h.reports hcloud houtcome
  refine ⟨outcome, houtcome, ?_⟩
  have hsilent : IsSilent (client s settings) (approval a settings) analysis replies ↔
      ∃ fault upload, outcome = .stopped upload (.network fault []) := by
    refine exists_congr fun fault => ?_
    rw [← Client.stopped_network_iff, houtcome]
    simp
  cases outcome with
  | skipped => exact absurd houtcome Client.decorate_ne_skipped
  | decorated upload =>
    refine ⟨fun _ => hreports.honest_of_decorated hstatus, fun hs => ?_⟩
    obtain ⟨_, _, heq⟩ := hsilent.mp hs
    cases heq
  | stopped upload cause =>
    by_cases hmessage : cause.message = []
    · obtain ⟨fault, rfl⟩ := Stop.message_eq_nil_iff.mp hmessage
      exact ⟨fun hs => absurd (hsilent.mpr ⟨fault, upload, rfl⟩) hs,
        fun _ => ⟨rfl, hreports.of_silent hstatus hmessage⟩⟩
    · refine ⟨fun _ => hreports.honest_of_stopped hstatus hmessage, fun hs => ?_⟩
      obtain ⟨_, _, heq⟩ := hsilent.mp hs
      obtain ⟨-, rfl⟩ := Outcome.stopped.inj heq
      exact absurd rfl hmessage

/-- A run that a fault with a text stops. -/
theorem status_run_sample :
    Decorates Sample.surroundings Sample.arguments Sample.parsed Sample.settings Sample.analysis ∧
    Sample.surroundings.capabilities = .cloud ∧
    (run Sample.surroundings (Sample.fault "refused") Sample.arguments).status = .ok 1 ∧
    ∃ outcome, ((client Sample.surroundings Sample.settings).decorate
        (approval Sample.parsed Sample.settings) Sample.analysis
        { replies := Sample.fault "refused" }).1 = .ok outcome ∧
      (¬IsSilent (client Sample.surroundings Sample.settings)
          (approval Sample.parsed Sample.settings) Sample.analysis (Sample.fault "refused") →
        Honest Sample.parsed
          (run Sample.surroundings (Sample.fault "refused") Sample.arguments) 1 outcome) ∧
      (IsSilent (client Sample.surroundings Sample.settings)
          (approval Sample.parsed Sample.settings) Sample.analysis (Sample.fault "refused") →
        outcome.isDecorated = false ∧ 1 = 0 ∧ (Sample.parsed.json = false →
          (run Sample.surroundings (Sample.fault "refused") Sample.arguments).stdout =
            skippedLine)) := by
  obtain ⟨upload, houtcome⟩ := Sample.decorate_fault "refused"
  have hstatus := (Sample.decorates.reports rfl houtcome).status
  exact ⟨Sample.decorates, rfl, hstatus, status_run Sample.surroundings (Sample.fault "refused")
    Sample.arguments Sample.decorates rfl hstatus⟩

/-- A run that a fault without a text stops ends with the status of success, and as one that was
skipped. -/
theorem run_silence :
    Decorates Sample.surroundings Sample.arguments Sample.parsed Sample.settings Sample.analysis ∧
    ∃ upload, ((client Sample.surroundings Sample.settings).decorate
        (approval Sample.parsed Sample.settings) Sample.analysis
        { replies := Sample.fault [] }).1 =
        .ok (.stopped upload (.network .connection [])) ∧
      (run Sample.surroundings (Sample.fault []) Sample.arguments).status = .ok 0 ∧
      (run Sample.surroundings (Sample.fault []) Sample.arguments).stdout = skippedLine := by
  obtain ⟨upload, houtcome⟩ := Sample.decorate_fault []
  have hreports := Sample.decorates.reports rfl houtcome
  exact ⟨Sample.decorates, upload, houtcome, hreports.status, hreports.stdout⟩

end CommandLine

end PullGate
