import PullGate.Proofs.CommandLine.Guard
import PullGate.Proofs.CommandLine.Switches
import PullGate.Proofs.Decoration.Fidelity
import PullGate.Proofs.Settings.Variables

/-! Switches in the place of variables.  A run with a switch for the project, the repository or the
approval is the one without it and with the variable set; and a run that is told not to settle the
approval does not, whatever the variables say. -/

namespace PullGate

open Decoration

/-! ### Decorations that leave the approval alone -/

namespace Decoration

/-- Whether an errand settles the approval. -/
def Errand.settlesApproval : Errand → Bool
  | .approve | .unapprove => true
  | _ => false

theorem settlesApproval_of_mem_schedule {s : Setup} {a : Analysis} {q : List Answer} {e : Errand}
    (he : e ∈ schedule s false a q) : e.settlesApproval = false := by
  simp only [schedule_eq, closing, settlement, Bool.false_eq_true, if_false, List.nil_append,
    List.mem_append, List.mem_cons, List.not_mem_nil, or_false] at he
  rcases he with (rfl | rfl) | hpost | rfl | rfl
  case inr.inl =>
    obtain ⟨x, -, rfl⟩ := List.mem_map.mp hpost
    rfl
  all_goals rfl

end Decoration

/-- The requests of a decoration that is not to settle the approval are those of other errands. -/
theorem Client.exists_parts_unsettled (c : Client) (a : Analysis) (w : Wire) :
    ∃ parts : List Part, c.traffic false a w = parts.flatMap Part.hops ∧
      ∀ p ∈ parts, p.errand.settlesApproval = false ∧
        c.session.Settles (p.errand.call c.setup a) p.hops p.answer := by
  obtain ⟨q, parts, htraffic, hparts⟩ := c.exists_scheduled_parts false a w
  refine ⟨parts, htraffic, fun p hp => ?_⟩
  obtain ⟨hscheduled, hsettles⟩ := hparts p hp
  exact ⟨settlesApproval_of_mem_schedule hscheduled, hsettles⟩

namespace CommandLine

variable {s s' : Surroundings} {replies : List Http.Reply} {arguments arguments' : List Text}
  {a a' : Arguments} {settings settings' : Settings} {analysis : Analysis} {w : Wire} {rank : Nat}
  {path key value name : Text}

/-! ### Runs with equal settings -/

/-- A decoration depends on its client, on whether the approval is to be settled, and on how it is
to be told of. -/
theorem decorate_congr (hcapabilities : s'.capabilities = s.capabilities) (hjson : a'.json = a.json)
    (hclient : client s' settings' = client s settings)
    (happroval : approval a' settings' = approval a settings) :
    decorate s' w a' settings' rank analysis = decorate s w a settings rank analysis := by
  obtain ⟨hconfiguration, htimeout, hidna⟩ := Client.mk.inj hclient
  unfold approval at happroval
  unfold decorate
  simp only [hcapabilities, hjson, hconfiguration, htimeout, hidna, happroval]

/-- Surroundings in which the same files are found and the same host is spoken to. -/
structure Surroundings.Near (s' s : Surroundings) : Prop where
  files : s'.files = s.files
  room : s'.room = s.room
  idna : s'.idna = s.idna
  capabilities : s'.capabilities = s.capabilities

theorem Surroundings.Near.client_eq (h : s'.Near s) (settings : Settings) :
    client s' settings = client s settings := by
  rw [client, client, h.idna]

theorem run_of_accepted (hnear : s'.Near s) (hread : Arguments.read arguments = .ok (.run path a))
    (hread' : Arguments.read arguments' = .ok (.run path a')) (hjson : a'.json = a.json)
    (hsettings : Settings.ofSources (sources s a) = .ok settings)
    (hsettings' : Settings.ofSources (sources s' a') = .ok settings')
    (hlevel : settings'.logLevel = settings.logLevel)
    (hclient : client s' settings' = client s settings)
    (happroval : approval a' settings' = approval a settings) :
    run s' replies arguments' = run s replies arguments := by
  rw [run_eq_start hread, run_eq_start hread']
  unfold start
  rw [hsettings, hsettings']
  simp only [hlevel, hnear.files, hnear.room,
    decorate_congr hnear.capabilities hjson hclient happroval]

theorem run_of_same_settings (hnear : s'.Near s)
    (hread : Arguments.read arguments = .ok (.run path a))
    (hread' : Arguments.read arguments' = .ok (.run path a')) (hjson : a'.json = a.json)
    (happrove : a'.approve = a.approve)
    (hsettings : Settings.ofSources (sources s' a') = Settings.ofSources (sources s a)) :
    run s' replies arguments' = run s replies arguments := by
  cases hresult : Settings.ofSources (sources s a) with
  | error rejection =>
    rw [run_eq_start hread, run_eq_start hread']
    unfold start
    rw [hsettings, hresult]
  | ok settings =>
    refine run_of_accepted hnear hread hread' hjson hresult (hsettings.trans hresult) rfl
      (hnear.client_eq settings) ?_
    rw [approval, approval, happrove]

/-! ### Variables in the place of switches -/

/-- The surroundings with a variable set. -/
def Surroundings.set (s : Surroundings) (key value : Text) : Surroundings :=
  { s with environment := Settings.setVariable key value s.environment }

/-- The values of the `.env` file do not refer to variables. -/
def Surroundings.IsLiteral (s : Surroundings) : Prop := ∀ text ∈ s.dotenv, Dotenv.IsLiteral text

theorem Surroundings.near_set (s : Surroundings) (key value : Text) : (s.set key value).Near s :=
  ⟨rfl, rfl, rfl, rfl⟩

theorem sets_sources (hliteral : s.IsLiteral) (a a' : Arguments) (key value : Text) :
    (sources s a).Sets (sources (s.set key value) a') key value := by
  refine ⟨rfl, ?_⟩
  unfold sources
  cases hdotenv : s.dotenv with
  | none => simp only [Surroundings.set, hdotenv]
  | some text =>
    simp only [Surroundings.set, hdotenv]
    exact Dotenv.entries_congr (hliteral text hdotenv) _ _

/-- What the value of a switch overrides a setting with, if it does. -/
def overriding : Option Text → Option Json
  | some (c :: t) => some (.string (c :: t))
  | _ => none

theorem overriding_some {t : Text} (h : t ≠ []) : overriding (some t) = some (.string t) := by
  cases t with
  | nil => exact absurd rfl h
  | cons c t => rfl

theorem overrides_eq (a : Arguments) : overrides a =
    ((overriding a.project).map fun j => (Text.ofString "bitbucket_project_key", j)).toList ++
      ((overriding a.repo).map fun j => (Text.ofString "bitbucket_repository_slug", j)).toList := by
  obtain ⟨_, _, project, repo, _⟩ := a
  rcases project with _ | _ | ⟨c, t⟩ <;> rcases repo with _ | _ | ⟨c', t'⟩ <;> rfl

/-- What the overriding arguments say of a setting, whose name they spell out. -/
def override? (a : Arguments) (name : Text) : Option Json :=
  Settings.Sources.last? Settings.Naming.exact.read name (overrides a)

theorem override?_eq (a : Arguments) (name : Text) : override? a name =
    (if "bitbucket_repository_slug" = name then overriding a.repo else none).or
      (if "bitbucket_project_key" = name then overriding a.project else none) := by
  have hentry : ∀ (n : Text) (j : Option Json),
      Settings.Sources.last? Settings.Naming.exact.read name (j.map fun j => (n, j)).toList =
        if n = name then j else none := by
    intro n j
    cases j with
    | none => simp [Settings.Sources.last?]
    | some j => exact Settings.Sources.last?_singleton (n, j)
  rw [override?, overrides_eq, Settings.Sources.last?_append, hentry, hentry]

/-- A run without a switch, and with a variable set instead, is the same: it ends with the same
status, prints the same, and leaves the wire the same, with its requests. -/
structure Replaced (s : Surroundings) (replies : List Http.Reply) (arguments : List Text)
    (path : Text) (a : Arguments) (switch : Switch) (key value : Text) : Prop where
  read : Arguments.read (Arguments.without switch arguments) = .ok (.run path (a.clear switch))
  same : ∀ arguments', Arguments.read arguments' = .ok (.run path (a.clear switch)) →
    (run (s.set key value) replies arguments').status = (run s replies arguments).status ∧
    (run (s.set key value) replies arguments').stdout = (run s replies arguments).stdout ∧
    (run (s.set key value) replies arguments').wire = (run s replies arguments).wire

variable {switch : Switch}

theorem replaced_of_run_eq (hread : Arguments.read arguments = .ok (.run path a))
    (hrun : ∀ arguments', Arguments.read arguments' = .ok (.run path (a.clear switch)) →
      run (s.set key value) replies arguments' = run s replies arguments) :
    Replaced s replies arguments path a switch key value where
  read := Arguments.read_without hread switch
  same arguments' hread' := by
    rw [hrun arguments' hread']
    exact ⟨rfl, rfl, rfl⟩

/-- A switch for a setting may be replaced by the variable of that setting. -/
theorem replaced_of_overrides (hread : Arguments.read arguments = .ok (.run path a))
    (hliteral : s.IsLiteral) (hspelling : Settings.OneSpelling name s.environment)
    (hname : key.foldName = name) (happrove : (a.clear switch).approve = a.approve)
    (hjson : (a.clear switch).json = a.json)
    (hargument : override? a name = some (.string value))
    (habsent : override? (a.clear switch) name = none)
    (hothers : ∀ other, name ≠ other → override? (a.clear switch) other = override? a other) :
    Replaced s replies arguments path a switch key value := by
  subst hname
  refine replaced_of_run_eq hread fun arguments' hread' => ?_
  exact run_of_same_settings (s.near_set _ _) hread hread' hjson happrove
    ((sets_sources hliteral a _ key value).ofSources_eq hspelling hargument habsent hothers)

theorem replaced_project (hread : Arguments.read arguments = .ok (.run path a))
    (hliteral : s.IsLiteral)
    (hspelling : Settings.OneSpelling "bitbucket_project_key" s.environment)
    (hproject : a.project = some value) (hvalue : value ≠ []) :
    Replaced s replies arguments path a .project "BITBUCKET_PROJECT_KEY" value := by
  refine replaced_of_overrides hread hliteral hspelling (by decide) rfl rfl ?_ ?_ ?_
  · rw [override?_eq, hproject, overriding_some hvalue]
    rfl
  · rw [override?_eq]
    rfl
  · intro other hother
    rw [override?_eq, override?_eq, if_neg hother, if_neg hother]
    rfl

theorem replaced_repo (hread : Arguments.read arguments = .ok (.run path a))
    (hliteral : s.IsLiteral)
    (hspelling : Settings.OneSpelling "bitbucket_repository_slug" s.environment)
    (hrepo : a.repo = some value) (hvalue : value ≠ []) :
    Replaced s replies arguments path a .repo "BITBUCKET_REPOSITORY_SLUG" value := by
  refine replaced_of_overrides hread hliteral hspelling (by decide) rfl rfl ?_ ?_ ?_
  · rw [override?_eq, hrepo, overriding_some hvalue]
    rfl
  · rw [override?_eq]
    rfl
  · intro other hother
    rw [override?_eq, override?_eq, if_neg hother, if_neg hother]
    rfl

/-- The value of the variable for a choice on the approval. -/
def choiceText (choice : Bool) : Text := if choice then "true" else "false"

theorem boolean_choiceText (choice : Bool) :
    Check.boolean (.string (choiceText choice)) = .ok choice := by
  cases choice <;> decide

theorem clear_ofChoice {choice : Bool} (h : a.approve = some choice) :
    a.clear (.ofChoice choice) = { a with approve := none } := by
  obtain ⟨_, approve, _, _, _⟩ := a
  obtain rfl : approve = some choice := h
  cases choice <;> rfl

theorem replaced_choice {choice : Bool} (hread : Arguments.read arguments = .ok (.run path a))
    (hliteral : s.IsLiteral)
    (hspelling : Settings.OneSpelling "pull_request_approval_enabled" s.environment)
    (hchoice : a.approve = some choice)
    (hsettings : Settings.ofSources (sources s (a.clear (.ofChoice choice))) = .ok settings) :
    Replaced s replies arguments path a (.ofChoice choice) "PULL_REQUEST_APPROVAL_ENABLED"
      (choiceText choice) := by
  have hclear := clear_ofChoice hchoice
  refine replaced_of_run_eq hread fun arguments' hread' => ?_
  rw [hclear] at hread' hsettings
  have habsent : override? a "pull_request_approval_enabled" = none := by
    rw [override?_eq]
    rfl
  have hchosen : Settings.ofSources (sources (s.set "PULL_REQUEST_APPROVAL_ENABLED"
      (choiceText choice)) { a with approve := none }) =
        .ok { settings with approval := choice } :=
    (sets_sources hliteral a _ _ _).ofSources_approval hspelling (fun _ => rfl) habsent
      (boolean_choiceText choice) hsettings
  -- the switch had the choice before the settings, and now they make the same
  refine run_of_accepted (s.near_set _ _) hread hread' rfl hsettings hchosen rfl rfl ?_
  rw [approval, approval, hchoice]
  rfl

/-! ### Runs that leave the approval alone -/

/-- No request of a run is one to settle the approval. -/
def Spares (s : Surroundings) (replies : List Http.Reply) (arguments : List Text) : Prop :=
  (run s replies arguments).wire.sent = [] ∨
    ∃ (a : Arguments) (settings : Settings) (analysis : Analysis) (parts : List Part),
      Decorates s arguments a settings analysis ∧
      (run s replies arguments).wire.sent = (parts.flatMap Part.hops).map Hop.request ∧
      ∀ p ∈ parts, p.errand.settlesApproval = false ∧ (client s settings).session.Settles
        (p.errand.call (client s settings).setup analysis) p.hops p.answer

theorem spares_of_false (hread : Arguments.read arguments = .ok (.run path a))
    (hcloud : s.capabilities = .cloud) (hfalse : a.approve = some false)
    (replies : List Http.Reply) : Spares s replies arguments := by
  by_cases h : ∃ a settings analysis, Decorates s arguments a settings analysis
  · obtain ⟨a', settings, analysis, h⟩ := h
    obtain ⟨path', hread', -⟩ := h.analysis
    obtain ⟨-, rfl⟩ := Request.run.inj (Except.ok.inj (hread.symm.trans hread'))
    have happroval : approval a settings = false := by rw [approval, hfalse]; rfl
    obtain ⟨parts, htraffic, hparts⟩ :=
      (client s settings).exists_parts_unsettled analysis { replies }
    obtain ⟨-, -, hsent, -⟩ := (client s settings).serves_decorate false analysis { replies }
    refine .inr ⟨a, settings, analysis, parts, h, ?_, hparts⟩
    rw [h.wire_eq hcloud, happroval, hsent, htraffic]
    rfl
  · exact .inl (by rw [wire_of_not_decorates h])

/-- What the switches of a run stand for. -/
structure Overrides (s : Surroundings) (replies : List Http.Reply) (arguments : List Text)
    (path : Text) (a : Arguments) : Prop where
  project : s.IsLiteral → Settings.OneSpelling "bitbucket_project_key" s.environment →
    ∀ project, a.project = some project → project ≠ [] →
      Replaced s replies arguments path a .project "BITBUCKET_PROJECT_KEY" project
  repo : s.IsLiteral → Settings.OneSpelling "bitbucket_repository_slug" s.environment →
    ∀ repo, a.repo = some repo → repo ≠ [] →
      Replaced s replies arguments path a .repo "BITBUCKET_REPOSITORY_SLUG" repo
  approval : s.IsLiteral → Settings.OneSpelling "pull_request_approval_enabled" s.environment →
    ∀ choice settings, a.approve = some choice →
      Settings.ofSources (sources s (a.clear (.ofChoice choice))) = .ok settings →
      Replaced s replies arguments path a (.ofChoice choice) "PULL_REQUEST_APPROVAL_ENABLED"
        (choiceText choice)
  spared : s.capabilities = .cloud → a.approve = some false → Spares s replies arguments

/-- Whatever the surroundings and the answers are: each switch of a run that is for a setting is as
good as its variable, and a run that is told not to settle the approval does not. -/
theorem overrides_run (s : Surroundings) (replies : List Http.Reply) {arguments : List Text}
    {path : Text} {a : Arguments} (hread : Arguments.read arguments = .ok (.run path a)) :
    Overrides s replies arguments path a where
  project hliteral hspelling _ hproject hvalue :=
    replaced_project hread hliteral hspelling hproject hvalue
  repo hliteral hspelling _ hrepo hvalue := replaced_repo hread hliteral hspelling hrepo hvalue
  approval hliteral hspelling _ _ hchoice hsettings :=
    replaced_choice hread hliteral hspelling hchoice hsettings
  spared hcloud hfalse := spares_of_false hread hcloud hfalse replies

namespace Sample

def switches : List Text :=
  ["--proj", "other", "--no-approve", "--repo=mirror", "analysis.json"]

def switched : Arguments where
  path := some "analysis.json"
  approve := some false
  project := some "other"
  repo := some "mirror"

/-- Surroundings that ask for the approval to be settled. -/
def settling : Surroundings :=
  { surroundings with dotenv := some "PULL_REQUEST_APPROVAL_ENABLED=true\n" }

theorem isLiteral_settling : settling.IsLiteral := by
  intro text htext
  obtain rfl := Option.some.inj htext
  decide +kernel

theorem oneSpelling_settling (name : Text) : Settings.OneSpelling name settling.environment := by
  have hfolded : (settling.environment.map fun e => e.1.foldName).Nodup := by decide +kernel
  intro e he e' he' hname hname'
  exact congrArg Prod.fst (List.inj_on_of_nodup_map hfolded he he' (hname.trans hname'.symm))

end Sample

/-- A run with three switches that go against its variables. -/
theorem overrides_run_sample :
    Arguments.read Sample.switches = .ok (.run "analysis.json" Sample.switched) ∧
    Replaced Sample.settling (Sample.fault "refused") Sample.switches "analysis.json"
      Sample.switched .project "BITBUCKET_PROJECT_KEY" "other" ∧
    Replaced Sample.settling (Sample.fault "refused") Sample.switches "analysis.json"
      Sample.switched .repo "BITBUCKET_REPOSITORY_SLUG" "mirror" ∧
    Replaced Sample.settling (Sample.fault "refused") Sample.switches "analysis.json"
      Sample.switched .noApprove "PULL_REQUEST_APPROVAL_ENABLED" "false" ∧
    Spares Sample.settling (Sample.fault "refused") Sample.switches := by
  have hread : Arguments.read Sample.switches = .ok (.run "analysis.json" Sample.switched) := rfl
  have hsettings : Settings.ofSources (sources Sample.settling
      (Sample.switched.clear (.ofChoice false))) = .ok { Sample.settings with
        project := "other", repository := "mirror", approval := true } := by decide +kernel
  have h := overrides_run Sample.settling (Sample.fault "refused") hread
  exact ⟨hread,
    h.project Sample.isLiteral_settling (Sample.oneSpelling_settling _) "other" rfl (by decide),
    h.repo Sample.isLiteral_settling (Sample.oneSpelling_settling _) "mirror" rfl (by decide),
    h.approval Sample.isLiteral_settling (Sample.oneSpelling_settling _) false _ rfl hsettings,
    h.spared rfl rfl⟩

end CommandLine

end PullGate
