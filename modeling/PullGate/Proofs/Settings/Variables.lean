import PullGate.Proofs.Settings.Rules

/-! Variables that are set.  A setting is taken from the variable, if no argument gives it, and no
other setting is taken from elsewhere than before; for the `.env` file this takes that its values do
not refer to variables. -/

namespace PullGate

/-! ### The `.env` file without references -/

namespace Dotenv

/-- The bindings of a `.env` text, as they are written. -/
def bindings (text : Text) : List Binding :=
  let text := Text.unifyLineEnds (match text with
    | .scalar '\uFEFF' :: t => t
    | t => t)
  readBindings (text.length + 1) text

theorem entries_eq (environment : List (Text × Text)) (text : Text) :
    entries environment text = resolve environment (bindings text) := rfl

/-- Whether a value refers to a variable. -/
def refers (value : Text) : Bool :=
  value.tails.any fun t => ((Text.dropPrefix? "$\x7b" t).bind readReference?).isSome

/-- No value of a `.env` text refers to a variable. -/
def IsLiteral (text : Text) : Prop :=
  ∀ b ∈ bindings text, ∀ value ∈ b.2, refers value = false

instance (text : Text) : Decidable (IsLiteral text) :=
  inferInstanceAs (Decidable (∀ b ∈ bindings text, ∀ value ∈ b.2, refers value = false))

theorem refers_cons_eq_false_iff {c : CodePoint} {t : Text} : refers (c :: t) = false ↔
    (Text.dropPrefix? "$\x7b" (c :: t)).bind readReference? = none ∧ refers t = false := by
  simp [refers, List.tails]

/-- There is nothing to be expanded in a value without references. -/
theorem expand_eq_self {value : Text} (h : refers value = false) (value? : Text → Option Text)
    (fuel : Nat) : expand value? fuel value = value := by
  induction fuel generalizing value with
  | zero => rfl
  | succ fuel ih =>
    cases value with
    | nil => rfl
    | cons c t =>
      obtain ⟨hhere, hlater⟩ := refers_cons_eq_false_iff.mp h
      rw [expand]
      cases hdollar : Text.dropPrefix? "$\x7b" (c :: t) with
      | none => simp only [ih hlater]
      | some u =>
        have hnone : readReference? u = none := by simpa [hdollar] using hhere
        simp only [hnone, ih hlater]

/-- The environment has no part in the entries of a text without references. -/
theorem entries_congr {text : Text} (h : IsLiteral text) (environment : List (Text × Text))
    (environment' : List (Text × Text)) : entries environment' text = entries environment text := by
  rw [entries_eq, entries_eq, resolve, resolve]
  refine List.foldl_ext _ _ _ fun done b hb => ?_
  obtain ⟨key, value⟩ := b
  have hexpand : ∀ environment : List (Text × Text),
      (value.map fun v => expand (named? environment done) (v.length + 1) v) = value := by
    intro environment
    cases value with
    | none => rfl
    | some v => exact congrArg some (expand_eq_self (h _ hb v rfl) _ _)
  simp only [hexpand]

/-- A dollar sign alone is no reference. -/
example : refers "$5 and \x7b5\x7d" = false ∧ refers "a$\x7bNAME:-b\x7dc" = true := by decide

end Dotenv

/-! ### Setting a variable -/

namespace Settings

/-- Gives the variable of a key a value, in its place if it is there. -/
def setVariable (key value : Text) (environment : List (Text × Text)) : List (Text × Text) :=
  if environment.any fun e => e.1 = key then
    environment.map fun e => if e.1 = key then (key, value) else e
  else environment ++ [(key, value)]

/-- The variables that go by a name, case aside, are all spelled alike. -/
def OneSpelling (name : Text) (environment : List (Text × Text)) : Prop :=
  ∀ e ∈ environment, ∀ e' ∈ environment, e.1.foldName = name → e'.1.foldName = name → e.1 = e'.1

namespace Sources

variable {name key value : Text} {environment : List (Text × Text)}

theorem last?_replace_self (hname : key.foldName = name)
    (hkey : ∀ e ∈ environment, e.1.foldName = name → e.1 = key) :
    last? Text.foldName name (environment.map fun e => if e.1 = key then (key, value) else e) =
      (last? Text.foldName name environment).map fun _ => value := by
  induction environment with
  | nil => rfl
  | cons e environment ih =>
    obtain ⟨he, hkey⟩ := List.forall_mem_cons.mp hkey
    rw [List.map_cons, last?_cons, last?_cons, ih hkey]
    by_cases h : e.1 = key
    · rw [if_pos h, if_pos hname, if_pos (h ▸ hname)]
      cases last? Text.foldName name environment <;> rfl
    · have hne : e.1.foldName ≠ name := fun hfold => h (he hfold)
      rw [if_neg h, if_neg hne, Option.or_none, Option.or_none]

/-- A variable that is set is the last one of its name. -/
theorem last?_setVariable_self (hname : key.foldName = name)
    (hspelling : OneSpelling name environment) :
    last? Text.foldName name (setVariable key value environment) = some value := by
  unfold setVariable
  split
  · next hset =>
    obtain ⟨e, he, hkey⟩ := List.any_eq_true.mp hset
    obtain rfl : e.1 = key := of_decide_eq_true hkey
    -- no variable of the name is left with its old value, since all are spelled like this one
    rw [last?_replace_self hname fun e' he' hfold => hspelling e' he' e he hfold hname]
    cases hlast : last? Text.foldName name environment with
    | none => exact absurd hname (last?_eq_none_iff.mp hlast e he)
    | some old => rfl
  · rw [last?_append, last?_singleton, if_pos hname]
    rfl

theorem last?_setVariable_of_ne (hname : key.foldName ≠ name) :
    last? Text.foldName name (setVariable key value environment) =
      last? Text.foldName name environment := by
  unfold setVariable
  split
  · clear * - hname
    induction environment with
    | nil => rfl
    | cons e environment ih =>
      rw [List.map_cons, last?_cons, last?_cons, ih]
      by_cases h : e.1 = key
      · rw [if_pos h, if_neg hname, if_neg (h ▸ hname)]
      · rw [if_neg h]
  · rw [last?_append, last?_singleton, if_neg hname]
    rfl

/-! ### Settings that are taken from a variable -/

variable {s s' : Sources}

/-- The sources are the same but for a variable that is set. -/
structure Sets (s s' : Sources) (key value : Text) : Prop where
  environment : s'.environment = setVariable key value s.environment
  dotenv : s'.dotenv = s.dotenv

theorem Sets.raw?_self (h : Sets s s' key value) (hname : key.foldName = name)
    (hspelling : OneSpelling name s.environment) (harguments : s'.argument? name = none) :
    s'.raw? name = some (.string value) := by
  rw [raw?, harguments, h.environment, last?_setVariable_self hname hspelling]

theorem Sets.raw?_of_ne (h : Sets s s' key value) (hname : key.foldName ≠ name)
    (harguments : s'.argument? name = s.argument? name) :
    s'.raw? name = s.raw? name := by
  rw [raw?, raw?, harguments, h.environment, h.dotenv, last?_setVariable_of_ne hname]

/-- An argument may as well be given by its variable. -/
theorem Sets.ofSources_eq (h : Sets s s' key value)
    (hspelling : OneSpelling key.foldName s.environment)
    (hargument : s.argument? key.foldName = some (.string value))
    (habsent : s'.argument? key.foldName = none)
    (hothers : ∀ name, key.foldName ≠ name → s'.argument? name = s.argument? name) :
    ofSources s' = ofSources s := by
  refine ofSources_congr fun name _ => ?_
  unfold raw
  by_cases hname : key.foldName = name
  · subst hname
    rw [h.raw?_self rfl hspelling habsent, raw?, hargument]
  · rw [h.raw?_of_ne hname (hothers name hname)]

theorem coerces_of_others {v : Settings} {choice : Bool} (hv : Coerces s v)
    (hothers : ∀ name : Text, name ≠ "pull_request_approval_enabled" → s'.raw name = s.raw name)
    (hchoice : Check.boolean (s'.raw "pull_request_approval_enabled") = .ok choice) :
    Coerces s' { v with approval := choice } where
  url := (congrArg _ (hothers _ (by decide))).trans hv.url
  token := (congrArg _ (hothers _ (by decide))).trans hv.token
  oauth2Key := (congrArg _ (hothers _ (by decide))).trans hv.oauth2Key
  project := (congrArg _ (hothers _ (by decide))).trans hv.project
  repository := (congrArg _ (hothers _ (by decide))).trans hv.repository
  approval := hchoice
  timeout := (congrArg _ (hothers _ (by decide))).trans hv.timeout
  logLevel := (congrArg _ (hothers _ (by decide))).trans hv.logLevel

/-- No rule looks at the choice on the approval. -/
theorem ofSources_of_others {settings : Settings} {choice : Bool}
    (hsettings : ofSources s = .ok settings)
    (hothers : ∀ name : Text, name ≠ "pull_request_approval_enabled" → s'.raw name = s.raw name)
    (hchoice : Check.boolean (s'.raw "pull_request_approval_enabled") = .ok choice) :
    ofSources s' = .ok { settings with approval := choice } := by
  obtain ⟨v, hv, -, rfl⟩ := coerces_of_ofSources hsettings
  have hlacking : s'.lacking = s.lacking := by
    unfold lacking
    refine List.filter_congr fun name hname => ?_
    rw [hothers name (by rintro rfl; revert hname; decide)]
  rw [ofSources_of_coerces hv] at hsettings
  rw [ofSources_of_coerces (coerces_of_others hv hothers hchoice), hlacking]
  split at hsettings
  · next hnone =>
    split at hsettings
    · cases hsettings
    · next htimeout => rw [if_pos hnone, if_neg htimeout]
  · cases hsettings

/-- With the variable for the approval set to a choice, settings that were accepted are accepted
with that choice. -/
theorem Sets.ofSources_approval {settings : Settings} {choice : Bool}
    (h : Sets s s' "PULL_REQUEST_APPROVAL_ENABLED" value)
    (hspelling : OneSpelling "pull_request_approval_enabled" s.environment)
    (harguments : ∀ name, s'.argument? name = s.argument? name)
    (habsent : s.argument? "pull_request_approval_enabled" = none)
    (hchoice : Check.boolean (.string value) = .ok choice)
    (hsettings : ofSources s = .ok settings) :
    ofSources s' = .ok { settings with approval := choice } := by
  have hfold : Text.foldName "PULL_REQUEST_APPROVAL_ENABLED" = "pull_request_approval_enabled" := by
    decide
  refine ofSources_of_others hsettings (fun name hname => ?_) ?_
  · have hne : Text.foldName "PULL_REQUEST_APPROVAL_ENABLED" ≠ name :=
      fun heq => hname (heq.symm.trans hfold)
    rw [raw, raw, h.raw?_of_ne hne (harguments name)]
  · rw [raw, h.raw?_self hfold hspelling ((harguments _).trans habsent)]
    exact hchoice

end Sources

end Settings

end PullGate
