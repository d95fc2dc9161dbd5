import PullGate.Proofs.Number.Value
import PullGate.Proofs.Settings.Precedence
import PullGate.Proofs.Validation.Told
import PullGate.Text.Upper

/-! The rules on settings that are each well-formed.  Those that are required come first, all of
them in one complaint, then the timeout; settings that keep the rules are accepted as they are but
for the slashes at the end of the address. -/

namespace PullGate.Settings

/-- Settings as their raw values are read, each on its own. -/
structure Coerces (s : Sources) (v : Settings) : Prop where
  url : Check.text (s.raw "bitbucket_url") = .ok v.url
  token : Check.text (s.raw "bitbucket_token") = .ok v.token
  oauth2Key : Check.text (s.raw "bitbucket_oauth2_key") = .ok v.oauth2Key
  project : Check.text (s.raw "bitbucket_project_key") = .ok v.project
  repository : Check.text (s.raw "bitbucket_repository_slug") = .ok v.repository
  approval : Check.boolean (s.raw "pull_request_approval_enabled") = .ok v.approval
  timeout : Check.number (s.raw "http_timeout") = .ok v.timeout
  logLevel : Check.text (s.raw "log_level") = .ok v.logLevel

/-- The settings without which no run is possible. -/
def required : List Text :=
  ["bitbucket_token", "bitbucket_project_key", "bitbucket_repository_slug"]

/-- The required settings that are empty. -/
def Sources.lacking (s : Sources) : List Text :=
  required.filter fun name => s.raw name matches .string []

/-- The complaint about required settings that are empty. -/
def requiredRule (names : List Text) : Cause :=
  .rule ("Missing required setting(s): " ++ Text.join ", " (names.map Text.upper))

def timeoutRule : Cause := .rule "HTTP_TIMEOUT must be a positive number of seconds."

variable {s : Sources} {v : Settings}

/-! ### Settings on their own -/

theorem field_eq_ok_iff {α : Type} (name : Text) (check : Json → Checked α) {absent value : α}
    (habsent : check (defaultOf name) = .ok absent) :
    field s name check absent = .ok value ↔ check (s.raw name) = .ok value := by
  rw [Sources.field_eq habsent, Check.within_eq_ok_iff]

theorem fields_eq_ok_iff : fields s = .ok v ↔ Coerces s v := by
  have hurl := @field_eq_ok_iff s _ "bitbucket_url" Check.text defaultUrl v.url rfl
  have htoken := @field_eq_ok_iff s _ "bitbucket_token" Check.text [] v.token rfl
  have hkey := @field_eq_ok_iff s _ "bitbucket_oauth2_key" Check.text [] v.oauth2Key rfl
  have hproject := @field_eq_ok_iff s _ "bitbucket_project_key" Check.text [] v.project rfl
  have hslug := @field_eq_ok_iff s _ "bitbucket_repository_slug" Check.text [] v.repository rfl
  have happroval := @field_eq_ok_iff s _ "pull_request_approval_enabled" Check.boolean false
    v.approval rfl
  have htimeout := @field_eq_ok_iff s _ "http_timeout" Check.number _ v.timeout rfl
  have hlevel := @field_eq_ok_iff s _ "log_level" Check.text "INFO" v.logLevel rfl
  constructor
  · intro h
    obtain ⟨_, _, h₁, hlevel', rfl⟩ := Checked.ap_eq_ok.mp h
    obtain ⟨_, _, h₂, htimeout', rfl⟩ := Checked.ap_eq_ok.mp h₁
    obtain ⟨_, _, h₃, happroval', rfl⟩ := Checked.ap_eq_ok.mp h₂
    obtain ⟨_, _, h₄, hslug', rfl⟩ := Checked.ap_eq_ok.mp h₃
    obtain ⟨_, _, h₅, hproject', rfl⟩ := Checked.ap_eq_ok.mp h₄
    obtain ⟨_, _, h₆, hkey', rfl⟩ := Checked.ap_eq_ok.mp h₅
    obtain ⟨_, _, h₇, htoken', rfl⟩ := Checked.ap_eq_ok.mp h₆
    obtain ⟨_, _, h₈, hurl', rfl⟩ := Checked.ap_eq_ok.mp h₇
    cases h₈
    exact ⟨hurl.mp hurl', htoken.mp htoken', hkey.mp hkey', hproject.mp hproject', hslug.mp hslug',
      happroval.mp happroval', htimeout.mp htimeout', hlevel.mp hlevel'⟩
  · intro h
    simp only [fields, Checked.pure, Checked.ap, hurl.mpr h.url, htoken.mpr h.token,
      hkey.mpr h.oauth2Key, hproject.mpr h.project, hslug.mpr h.repository,
      happroval.mpr h.approval, htimeout.mpr h.timeout, hlevel.mpr h.logLevel]

/-! ### The rules -/

theorem upper_required : required.map Text.upper =
    ["BITBUCKET_TOKEN", "BITBUCKET_PROJECT_KEY", "BITBUCKET_REPOSITORY_SLUG"] := by
  decide +kernel

/-- A raw value that is read as text is empty exactly if the text is. -/
theorem lacks_eq {name value : Text} (h : Check.text (s.raw name) = .ok value) :
    (s.raw name matches .string []) = value.isEmpty := by
  rw [Check.text_eq_ok_iff.mp h]
  cases value <;> rfl

theorem missing_eq (h : Coerces s v) : v.missing = s.lacking.map Text.upper := by
  obtain ⟨htoken, hproject, hslug⟩ : _ ∧ _ ∧ _ := by
    simpa [required] using upper_required
  simp only [missing, Sources.lacking, required, List.filter_cons, List.filter_nil,
    List.filterMap_cons, List.filterMap_nil, lacks_eq h.token, lacks_eq h.project,
    lacks_eq h.repository]
  cases v.token.isEmpty <;> cases v.project.isEmpty <;> cases v.repository.isEmpty <;>
    simp [htoken, hproject, hslug]

theorem ofSources_of_coerces (h : Coerces s v) : ofSources s =
    if s.lacking = [] then
      if v.timeout.isAtMostZero then .error ⟨subject, [⟨[], timeoutRule⟩]⟩
      else .ok { v with url := Text.trimRight (· = '/') v.url }
    else .error ⟨subject, [⟨[], requiredRule s.lacking⟩]⟩ := by
  have hfields : (fields s >>= enforce) = enforce v := by rw [fields_eq_ok_iff.mpr h]; rfl
  have hmissing : ({ v with url := Text.trimRight (· = '/') v.url } : Settings).missing =
      s.lacking.map Text.upper := (missing_eq h : v.missing = _)
  unfold ofSources
  rw [hfields, enforce]
  by_cases hlacking : s.lacking = []
  · cases v.timeout.isAtMostZero <;> simp [hmissing, hlacking, Checked.fail, timeoutRule]
  · simp [hmissing, hlacking, Checked.fail, requiredRule]

theorem coerces_of_ofSources {settings : Settings} (h : ofSources s = .ok settings) :
    ∃ v, Coerces s v ∧ v.timeout.isAtMostZero = false ∧
      settings = { v with url := Text.trimRight (· = '/') v.url } := by
  cases hfields : fields s with
  | error problems =>
    rw [ofSources, hfields] at h
    cases h
  | ok v =>
    have hcoerces := fields_eq_ok_iff.mp hfields
    rw [ofSources_of_coerces hcoerces] at h
    split at h
    · split at h
      · cases h
      · next htimeout =>
        exact ⟨v, hcoerces, Bool.eq_false_of_not_eq_true htimeout, (Except.ok.inj h).symm⟩
    · cases h

theorem reasoned_field {α : Type} {name : Text} {check : Json → Checked α} {absent : α}
    (h : ∀ j, (check j).Reasoned) : (field s name check absent).Reasoned := by
  unfold field
  split
  · exact (h _).within _
  · exact Checked.reasoned_ok absent

theorem reasoned_fields (s : Sources) : (fields s).Reasoned := by
  have htext : ∀ name absent, (field s name Check.text absent).Reasoned :=
    fun _ _ => reasoned_field Check.reasoned_text
  exact ((Checked.reasoned_ok _).ap (htext _ _)).ap (htext _ _) |>.ap (htext _ _)
    |>.ap (htext _ _) |>.ap (htext _ _) |>.ap (reasoned_field Check.reasoned_boolean)
    |>.ap (reasoned_field Check.reasoned_number) |>.ap (htext _ _)

/-- Settings that are rejected are rejected for a reason. -/
theorem problems_ne_nil {r : Rejection} (h : ofSources s = .error r) : r.problems ≠ [] := by
  cases hfields : fields s with
  | error problems =>
    rw [ofSources, hfields] at h
    obtain rfl := Except.error.inj h
    rintro rfl
    obtain ⟨v, hv⟩ := reasoned_fields s (by rw [hfields]; rfl)
    rw [hfields] at hv
    cases hv
  | ok v =>
    rw [ofSources_of_coerces (fields_eq_ok_iff.mp hfields)] at h
    split at h
    · split at h <;> cases h
      exact List.cons_ne_nil _ _
    · cases h
      exact List.cons_ne_nil _ _

/-- Accepted settings are those that were read, the slashes at the end of the address taken off, and
they configure a client completely. -/
structure Adopts (v settings : Settings) : Prop where
  rest : settings = { v with url := settings.url }
  url : ∃ slashes, v.url = settings.url ++ slashes ∧ ∀ c ∈ slashes, c = .scalar '/'
  bare : ∀ c ∈ settings.url.getLast?, c ≠ .scalar '/'
  configuration : settings.toConfiguration = {
    url := settings.url
    token := v.token
    oauth2Key := v.oauth2Key
    repository := v.repository
    project := v.project }
  token : settings.toConfiguration.token ≠ []
  repository : settings.toConfiguration.repository ≠ []
  project : settings.toConfiguration.project ≠ []

theorem ne_nil_of_lacking {name value : Text} (h : s.lacking = []) (hname : name ∈ required)
    (hvalue : Check.text (s.raw name) = .ok value) : value ≠ [] := by
  rintro rfl
  have hmem : name ∈ s.lacking := List.mem_filter.mpr ⟨hname, lacks_eq hvalue⟩
  rw [h] at hmem
  cases hmem

theorem adopts_of_lacking (h : Coerces s v) (hlacking : s.lacking = []) :
    Adopts v { v with url := Text.trimRight (· = '/') v.url } where
  rest := rfl
  url := by
    obtain ⟨slashes, hurl, hslashes⟩ :=
      Text.exists_trimRight_append (fun c => c = .scalar '/') v.url
    exact ⟨slashes, hurl, fun c hc => of_decide_eq_true (hslashes c hc)⟩
  bare c hc := of_decide_eq_false (Text.getLast?_trimRight _ v.url c hc)
  configuration := rfl
  token := ne_nil_of_lacking hlacking (by decide) h.token
  repository := ne_nil_of_lacking hlacking (by decide) h.repository
  project := ne_nil_of_lacking hlacking (by decide) h.project

/-- What the rules make of settings that are well-formed, each on its own. -/
structure Judged (s : Sources) (v : Settings) : Prop where
  lacking : s.lacking ≠ [] → ofSources s = .error ⟨"Settings", [⟨[], requiredRule s.lacking⟩]⟩
  timeout : s.lacking = [] → (∃ x, v.timeout.value? = some x ∧ x ≤ 0) →
    ofSources s = .error ⟨"Settings", [⟨[], timeoutRule⟩]⟩
  accepted : s.lacking = [] → (¬∃ x, v.timeout.value? = some x ∧ x ≤ 0) →
    ∃ settings, ofSources s = .ok settings ∧ Adopts v settings

/-- Settings that are well-formed are judged by the rules alone: what is lacking is told before a
bad timeout is, and settings that keep the rules are accepted. -/
theorem judged_of_coerces (h : Coerces s v) : Judged s v := by
  have hjudged := ofSources_of_coerces h
  constructor
  · intro hlacking
    rw [hjudged, if_neg hlacking]
    rfl
  · intro hlacking htimeout
    rw [hjudged, if_pos hlacking, if_pos (Double.isAtMostZero_iff.mpr htimeout)]
    rfl
  · intro hlacking htimeout
    rw [← Double.isAtMostZero_iff] at htimeout
    rw [hjudged, if_pos hlacking, if_neg htimeout]
    exact ⟨_, rfl, adopts_of_lacking h hlacking⟩

namespace Sample

/-- Sources without a project and a repository, and with a timeout that is none. -/
def incomplete : Sources where
  arguments := []
  environment := [("BITBUCKET_TOKEN", "basic_token"), ("HTTP_TIMEOUT", "-0.0"),
    ("BITBUCKET_URL", "https://api.bitbucket.org//")]
  dotenv := [("BITBUCKET_PROJECT_KEY", some [])]

def read : Settings where
  url := "https://api.bitbucket.org//"
  token := "basic_token"
  oauth2Key := []
  project := []
  repository := []
  approval := false
  timeout := .finite true 0 0
  logLevel := "INFO"

end Sample

theorem judged_of_coerces_sample : Coerces Sample.incomplete Sample.read ∧
    ofSources Sample.incomplete = .error ⟨"Settings", [⟨[], .rule
      "Missing required setting(s): BITBUCKET_PROJECT_KEY, BITBUCKET_REPOSITORY_SLUG"⟩]⟩ := by
  have hcoerces : Coerces Sample.incomplete Sample.read := by
    constructor <;> decide +kernel
  refine ⟨hcoerces, ?_⟩
  rw [(judged_of_coerces hcoerces).lacking (by decide +kernel)]
  decide +kernel

end PullGate.Settings
