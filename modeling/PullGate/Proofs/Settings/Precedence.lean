import PullGate.Settings.Basic

/-! Which source a setting is taken from.  Each of the eight has its raw value from the first source
that has the name, and there from the last entry under it; the outcome is that of the raw values, so
entries under other names have no part in it, and what is said of one setting is not of another. -/

namespace PullGate.Settings

/-- The settings, each with the raw value it has where no source gives one. -/
def defaults : List (Text × Json) :=
  [("bitbucket_url", .string defaultUrl), ("bitbucket_token", .string []),
    ("bitbucket_oauth2_key", .string []), ("bitbucket_project_key", .string []),
    ("bitbucket_repository_slug", .string []), ("pull_request_approval_enabled", .bool false),
    ("http_timeout", .double (Double.ofInt 10)), ("log_level", .string "INFO")]

def names : List Text := defaults.map Prod.fst

def defaultOf (name : Text) : Json := (Json.lookup name defaults).getD .null

namespace Sources

/-! ### The last entry of a name -/

section Entries

variable {α : Type} {read : Text → Text} {name : Text} {entries : List (Text × α)} {value : α}

/-- No entry goes by the name. -/
def Absent (read : Text → Text) (name : Text) (entries : List (Text × α)) : Prop :=
  ∀ e ∈ entries, read e.1 ≠ name

/-- The value is that of the last entry that goes by the name. -/
def Last (read : Text → Text) (name : Text) (entries : List (Text × α)) (value : α) : Prop :=
  ∃ before key after,
    entries = before ++ (key, value) :: after ∧ read key = name ∧ Absent read name after

theorem last?_append (front : List (Text × α)) :
    last? read name (front ++ entries) = (last? read name entries).or (last? read name front) := by
  rw [last?, List.reverse_append, List.find?_append, last?, last?]
  cases entries.reverse.find? fun e => read e.1 = name with
  | none => rfl
  | some e => rfl

theorem last?_singleton (e : Text × α) :
    last? read name [e] = if read e.1 = name then some e.2 else none := by
  by_cases h : read e.1 = name <;> simp [last?, h]

theorem last?_cons (e : Text × α) : last? read name (e :: entries) =
    (last? read name entries).or (if read e.1 = name then some e.2 else none) := by
  rw [← last?_singleton, ← last?_append]
  rfl

theorem last?_eq_none_iff : last? read name entries = none ↔ Absent read name entries := by
  induction entries with
  | nil => exact ⟨fun _ _ he => absurd he List.not_mem_nil, fun _ => rfl⟩
  | cons e entries ih =>
    rw [last?_cons, Option.or_eq_none_iff, ih, Absent, Absent, List.forall_mem_cons, and_comm]
    simp

theorem last?_eq_some_iff :
    last? read name entries = some value ↔ Last read name entries value := by
  constructor
  · intro h
    induction entries with
    | nil => cases h
    | cons e entries ih =>
      rw [last?_cons, Option.or_eq_some_iff] at h
      obtain h | ⟨hnone, he⟩ := h
      · obtain ⟨before, key, after, rfl, hkey, hafter⟩ := ih h
        exact ⟨e :: before, key, after, rfl, hkey, hafter⟩
      · obtain ⟨hkey, hvalue⟩ := Option.ite_none_right_eq_some.mp he
        obtain rfl := Option.some.inj hvalue
        exact ⟨[], e.1, entries, rfl, hkey, last?_eq_none_iff.mp hnone⟩
  · rintro ⟨before, key, after, rfl, hkey, hafter⟩
    rw [last?_append, last?_cons, last?_eq_none_iff.mpr hafter, if_pos hkey]
    rfl

/-- Of entries that each go by a name of a list, the value is the one of the name. -/
theorem last?_map {names : List Text} (f : Text → α) (hfold : ∀ n ∈ names, read n = n)
    (h : name ∈ names) : last? read name (names.map fun n => (n, f n)) = some (f name) := by
  induction names with
  | nil => cases h
  | cons n names ih =>
    obtain ⟨hn, htail⟩ := List.forall_mem_cons.mp hfold
    rw [List.map_cons, last?_cons, hn]
    by_cases hmem : name ∈ names
    · rw [ih htail hmem, Option.some_or]
    · obtain rfl : name = n := (List.mem_cons.mp h).resolve_right hmem
      have habsent : Absent read name (names.map fun n => (n, f n)) := by
        intro e he heq
        obtain ⟨n', hn', rfl⟩ := List.mem_map.mp he
        rw [htail n' hn'] at heq
        exact hmem (heq ▸ hn')
      rw [last?_eq_none_iff.mpr habsent, Option.none_or, if_pos rfl]

/-- Entries under other names can be left out. -/
theorem last?_filter {p : Text → Bool} (h : p name = true) :
    last? read name (entries.filter fun e => p (read e.1)) = last? read name entries := by
  induction entries with
  | nil => rfl
  | cons e entries ih =>
    rw [last?_cons, List.filter_cons, ← ih]
    split
    · rw [last?_cons]
    · next he =>
      have hne : read e.1 ≠ name := by
        rintro rfl
        exact he h
      rw [if_neg hne, Option.or_none]

end Entries

/-! ### Raw values -/

variable (s : Sources)

/-- The raw value of a setting: what the sources give, or else its default. -/
def raw (name : Text) : Json := (s.raw? name).getD (defaultOf name)

/-- No argument is for the setting. -/
def Unargued (name : Text) : Prop := Absent s.naming.read name s.arguments

/-- Neither an argument nor a variable is for the setting. -/
def Unset (name : Text) : Prop := s.Unargued name ∧ Absent Text.foldName name s.environment

/-- Where a setting is taken from. A variable counts with any value, the empty one as well. -/
inductive Supplies (name : Text) : Json → Prop
  | argument {j : Json} (h : Last s.naming.read name s.arguments j) : Supplies name j
  | environment {t : Text} (hunargued : s.Unargued name)
    (h : Last Text.foldName name s.environment t) : Supplies name (.string t)
  | dotenv {t : Text} (hunset : s.Unset name) (h : Last Text.foldName name s.dotenv (some t)) :
    Supplies name (.string t)
  | valueless (hunset : s.Unset name) (h : Last Text.foldName name s.dotenv none) :
    Supplies name (defaultOf name)
  | absent (hunset : s.Unset name) (h : Absent Text.foldName name s.dotenv) :
    Supplies name (defaultOf name)

theorem supplies_raw (name : Text) : s.Supplies name (s.raw name) := by
  unfold raw raw?
  cases harguments : s.argument? name with
  | some j => exact .argument (last?_eq_some_iff.mp harguments)
  | none =>
    have hunargued : s.Unargued name := last?_eq_none_iff.mp harguments
    cases henvironment : last? Text.foldName name s.environment with
    | some t => exact .environment hunargued (last?_eq_some_iff.mp henvironment)
    | none =>
      have hunset : s.Unset name := ⟨hunargued, last?_eq_none_iff.mp henvironment⟩
      cases hdotenv : last? Text.foldName name s.dotenv with
      | none => exact .absent hunset (last?_eq_none_iff.mp hdotenv)
      | some value =>
        have hlast := last?_eq_some_iff.mp hdotenv
        cases value with
        | none => exact .valueless hunset hlast
        | some t => exact .dotenv hunset hlast

variable {s}

/-- A setting that no source gives passes for one that is given its default. -/
theorem field_eq {α : Type} {name : Text} {check : Json → Checked α} {absent : α}
    (habsent : check (defaultOf name) = .ok absent) :
    field s name check absent = (check (s.raw name)).within (.key name) := by
  rw [field, raw]
  cases s.raw? name with
  | none => rw [Option.getD_none, habsent]; rfl
  | some j => rfl

theorem Supplies.raw_eq {name : Text} {j : Json} (h : s.Supplies name j) : s.raw name = j := by
  unfold raw raw? argument?
  cases h with
  | argument h => rw [last?_eq_some_iff.mpr h]; rfl
  | environment hunargued h =>
    rw [last?_eq_none_iff.mpr hunargued, last?_eq_some_iff.mpr h]
    rfl
  | dotenv hunset h | valueless hunset h =>
    rw [last?_eq_none_iff.mpr hunset.1, last?_eq_none_iff.mpr hunset.2, last?_eq_some_iff.mpr h]
    rfl
  | absent hunset h =>
    rw [last?_eq_none_iff.mpr hunset.1, last?_eq_none_iff.mpr hunset.2, last?_eq_none_iff.mpr h]
    rfl

/-! ### The outcome by raw values -/

/-- The sources with all entries left out but those of some names. -/
def keep (p : Text → Bool) (s : Sources) : Sources where
  arguments := s.arguments.filter fun e => p (s.naming.read e.1)
  environment := s.environment.filter fun e => p e.1.foldName
  dotenv := s.dotenv.filter fun e => p e.1.foldName
  naming := s.naming

theorem raw_keep {p : Text → Bool} {name : Text} (h : p name = true) :
    (s.keep p).raw name = s.raw name := by
  simp only [raw, raw?, argument?, keep, last?_filter h]

/-- The raw values, each given as an argument under the name of the setting. -/
def settled (s : Sources) : Sources where
  arguments := names.map fun name => (name, s.raw name)
  environment := []
  dotenv := []

theorem raw?_settled {name : Text} (h : name ∈ names) :
    s.settled.raw? name = some (s.raw name) := by
  have hargument : s.settled.argument? name = some (s.raw name) :=
    last?_map s.raw (fun _ _ => rfl) h
  rw [raw?, hargument]

theorem field_settled {α : Type} {name : Text} {check : Json → Checked α} {absent : α}
    (hname : name ∈ names) (habsent : check (defaultOf name) = .ok absent) :
    field s.settled name check absent = field s name check absent := by
  have hraw : s.settled.raw name = s.raw name := by rw [raw, raw?_settled hname]; rfl
  rw [field_eq habsent, field_eq habsent, hraw]

theorem text_settled {name t : Text} (hname : name ∈ names)
    (hdefault : defaultOf name = .string t) :
    field s.settled name Check.text t = field s name Check.text t :=
  field_settled hname (congrArg Check.text hdefault)

theorem ofSources_settled (s : Sources) : ofSources s.settled = ofSources s := by
  have hurl := @text_settled s "bitbucket_url" _ (by decide) rfl
  have htoken := @text_settled s "bitbucket_token" _ (by decide) rfl
  have hkey := @text_settled s "bitbucket_oauth2_key" _ (by decide) rfl
  have hproject := @text_settled s "bitbucket_project_key" _ (by decide) rfl
  have hslug := @text_settled s "bitbucket_repository_slug" _ (by decide) rfl
  have happroval := @field_settled s _ "pull_request_approval_enabled" Check.boolean false
    (by decide) rfl
  have htimeout := @field_settled s _ "http_timeout" Check.number _ (by decide) rfl
  have hlevel := @text_settled s "log_level" _ (by decide) rfl
  have hfields : fields s.settled = fields s := by
    simp only [fields, hurl, htoken, hkey, hproject, hslug, happroval, htimeout, hlevel]
  unfold ofSources
  rw [hfields]

theorem ofSources_congr {s' : Sources} (h : ∀ name ∈ names, s'.raw name = s.raw name) :
    ofSources s' = ofSources s := by
  have hsettled : s'.settled = s.settled := by
    rw [settled, settled, List.map_congr_left fun name hname => by rw [h name hname]]
  rw [← ofSources_settled, hsettled, ofSources_settled]

/-- What decides on a setting, and on all of them. -/
structure Precedence (s : Sources) : Prop where
  raw_iff : ∀ name ∈ names, ∀ j, s.raw name = j ↔ s.Supplies name j
  outcome : ofSources s = ofSources s.settled
  others_ignored : ∀ s' : Sources, s'.keep (· ∈ names) = s.keep (· ∈ names) →
    ofSources s' = ofSources s
  apart : ∀ (s' : Sources) (name : Text), s'.keep (· ≠ name) = s.keep (· ≠ name) →
    ∀ other ∈ names, other ≠ name → s'.raw other = s.raw other

theorem precedence (s : Sources) : s.Precedence where
  raw_iff name _ j := by
    constructor
    · rintro rfl
      exact s.supplies_raw name
    · exact Supplies.raw_eq
  outcome := (ofSources_settled s).symm
  others_ignored s' h := by
    refine ofSources_congr fun name hname => ?_
    have hkept := fun s : Sources => s.raw_keep (p := (· ∈ names)) (decide_eq_true hname)
    rw [← hkept, h, hkept]
  apart s' name h other _ hother := by
    have hkept := fun s : Sources => s.raw_keep (p := (· ≠ name)) (decide_eq_true hother)
    rw [← hkept, h, hkept]

/-- The last variable counts, case aside; though it is empty, the `.env` file has no say. -/
example : raw ⟨[], [("BITBUCKET_TOKEN", "first"), ("Bitbucket_Token", [])],
    [("BITBUCKET_TOKEN", some "entry")], .exact⟩ "bitbucket_token" = .string [] := rfl

/-- An argument in capitals is for no setting, unless the library takes it like a variable. -/
example (naming : Naming) : raw ⟨[("BITBUCKET_TOKEN", .string "x")], [], [], naming⟩
    "bitbucket_token" = if naming = .folded then .string "x" else .string [] := by
  cases naming <;> rfl

end Sources

end PullGate.Settings
