import PullGate.Analysis.File
import PullGate.Proofs.Json.Nesting
import PullGate.Proofs.Validation.Member

/-! The members behind each part of an accepted analysis document, and the document behind a loaded
analysis. -/

namespace PullGate

open Check

section Members

variable {members : List (Text × Json)}

/-- Each part of the finding is what its member comes to. -/
structure Finding.ReadFrom (members : List (Text × Json)) (f : Finding) : Prop where
  externalId : required members "external_id" trimmed = .ok f.externalId
  path : required members "path" trimmed = .ok f.path
  line : optional members "line" natural 0 = .ok f.line
  link : optional members "link" trimmed [] = .ok f.link
  message : required members "message" trimmed = .ok f.message
  severity : required members "severity" (choice Severity.words) = .ok f.severity
  kind : required members "type" (choice FindingKind.words) = .ok f.kind

theorem Finding.ofMembers_eq_ok_iff {f : Finding} :
    ofMembers members = .ok f ↔ f.ReadFrom members := by
  constructor
  · intro h
    obtain ⟨_, kind, h₁, hkind, rfl⟩ := Checked.ap_eq_ok.mp h
    obtain ⟨_, severity, h₂, hseverity, rfl⟩ := Checked.ap_eq_ok.mp h₁
    obtain ⟨_, message, h₃, hmessage, rfl⟩ := Checked.ap_eq_ok.mp h₂
    obtain ⟨_, link, h₄, hlink, rfl⟩ := Checked.ap_eq_ok.mp h₃
    obtain ⟨_, line, h₅, hline, rfl⟩ := Checked.ap_eq_ok.mp h₄
    obtain ⟨_, path, h₆, hpath, rfl⟩ := Checked.ap_eq_ok.mp h₅
    obtain ⟨_, externalId, h₇, hexternalId, rfl⟩ := Checked.ap_eq_ok.mp h₆
    cases h₇
    exact ⟨hexternalId, hpath, hline, hlink, hmessage, hseverity, hkind⟩
  · intro h
    simp only [ofMembers, Checked.pure, Checked.ap, h.externalId, h.path, h.line, h.link, h.message,
      h.severity, h.kind]

theorem Finding.ofJson_eq_ok_iff {j : Json} {f : Finding} :
    ofJson j = .ok f ↔ ∃ members, j = .object members ∧ f.ReadFrom members := by
  cases j with
  | object members => simp [ofJson, ofMembers_eq_ok_iff]
  | null | bool _ | int _ | double _ | string _ | array _ => simp [ofJson, Checked.fail]

/-- Each count is what the member under one of its two names comes to. -/
structure IssueCounts.ReadFrom (members : List (Text × Json)) (counts : IssueCounts) : Prop where
  bugs : count members "BUG" "bugs" = .ok counts.bugs
  vulnerabilities : count members "VULNERABILITY" "vulnerabilities" = .ok counts.vulnerabilities
  hotspots : count members "SECURITY_HOTSPOT" "hotspots" = .ok counts.hotspots
  codeSmells : count members "CODE_SMELL" "code_smells" = .ok counts.codeSmells

theorem IssueCounts.ofJson_eq_ok_iff {j : Json} {counts : IssueCounts} :
    ofJson j = .ok counts ↔ ∃ members, j = .object members ∧ counts.ReadFrom members := by
  constructor
  · intro h
    cases j with
    | object members =>
      obtain ⟨_, codeSmells, h₁, hcodeSmells, rfl⟩ := Checked.ap_eq_ok.mp h
      obtain ⟨_, hotspots, h₂, hhotspots, rfl⟩ := Checked.ap_eq_ok.mp h₁
      obtain ⟨_, vulnerabilities, h₃, hvulnerabilities, rfl⟩ := Checked.ap_eq_ok.mp h₂
      obtain ⟨_, bugs, h₄, hbugs, rfl⟩ := Checked.ap_eq_ok.mp h₃
      cases h₄
      exact ⟨members, rfl, hbugs, hvulnerabilities, hhotspots, hcodeSmells⟩
    | null | bool _ | int _ | double _ | string _ | array _ => cases h
  · rintro ⟨members, rfl, h⟩
    simp only [ofJson, Checked.pure, Checked.ap, h.bugs, h.vulnerabilities, h.hotspots,
      h.codeSmells]

/-- Each part of the document is what its member comes to. -/
structure Document.ReadFrom (members : List (Text × Json)) (d : Document) : Prop where
  projectKey : required members "project_key" text = .ok d.projectKey
  commit : required members "commit_sha" nonemptyText = .ok d.commit
  pullRequest : required members "pull_request_id" positive = .ok d.pullRequest
  gate : required members "quality_gate_status" (choice Gate.words) = .ok d.gate
  dashboardUrl : required members "dashboard_url" text = .ok d.dashboardUrl
  imageUrl : optional members "base_image_url" text [] = .ok d.imageUrl
  date : required members "analysis_date" dateTime = .ok d.date
  counts : optional members "issue_counts" IssueCounts.ofJson .zero = .ok d.counts
  coverage : optional members "coverage" (nullable number) none = .ok d.coverage
  duplication : optional members "duplication" (nullable number) none = .ok d.duplication
  failedConditions : optional members "failed_conditions" (list text) [] = .ok d.failedConditions
  issueCount : optional members "issue_count" (nullable natural) none = .ok d.issueCount
  annotations : optional members "annotations" (list Finding.ofJson) [] = .ok d.annotations

theorem Document.ofMembers_eq_ok_iff {d : Document} :
    ofMembers members = .ok d ↔ d.ReadFrom members := by
  constructor
  · intro h
    obtain ⟨_, annotations, h₁, hannotations, rfl⟩ := Checked.ap_eq_ok.mp h
    obtain ⟨_, issueCount, h₂, hissueCount, rfl⟩ := Checked.ap_eq_ok.mp h₁
    obtain ⟨_, failedConditions, h₃, hfailedConditions, rfl⟩ := Checked.ap_eq_ok.mp h₂
    obtain ⟨_, duplication, h₄, hduplication, rfl⟩ := Checked.ap_eq_ok.mp h₃
    obtain ⟨_, coverage, h₅, hcoverage, rfl⟩ := Checked.ap_eq_ok.mp h₄
    obtain ⟨_, counts, h₆, hcounts, rfl⟩ := Checked.ap_eq_ok.mp h₅
    obtain ⟨_, date, h₇, hdate, rfl⟩ := Checked.ap_eq_ok.mp h₆
    obtain ⟨_, imageUrl, h₈, himageUrl, rfl⟩ := Checked.ap_eq_ok.mp h₇
    obtain ⟨_, dashboardUrl, h₉, hdashboardUrl, rfl⟩ := Checked.ap_eq_ok.mp h₈
    obtain ⟨_, gate, h₁₀, hgate, rfl⟩ := Checked.ap_eq_ok.mp h₉
    obtain ⟨_, pullRequest, h₁₁, hpullRequest, rfl⟩ := Checked.ap_eq_ok.mp h₁₀
    obtain ⟨_, commit, h₁₂, hcommit, rfl⟩ := Checked.ap_eq_ok.mp h₁₁
    obtain ⟨_, projectKey, h₁₃, hprojectKey, rfl⟩ := Checked.ap_eq_ok.mp h₁₂
    cases h₁₃
    exact ⟨hprojectKey, hcommit, hpullRequest, hgate, hdashboardUrl, himageUrl, hdate, hcounts,
      hcoverage, hduplication, hfailedConditions, hissueCount, hannotations⟩
  · intro h
    simp only [ofMembers, Checked.pure, Checked.ap, h.projectKey, h.commit, h.pullRequest, h.gate,
      h.dashboardUrl, h.imageUrl, h.date, h.counts, h.coverage, h.duplication, h.failedConditions,
      h.issueCount, h.annotations]

theorem Document.ofJson_eq_ok_iff {j : Json} {d : Document} :
    ofJson j = .ok d ↔ ∃ members, j = .object members ∧ d.ReadFrom members := by
  cases j with
  | object members => simp [ofJson, ofMembers_eq_ok_iff]
  | null | bool _ | int _ | double _ | string _ | array _ => simp [ofJson, Checked.fail]

end Members

/-! ### Loading -/

/-- The text of a file with one spelling of line ends; a path that leads to no file that can be
read, or to one that is not UTF-8, has none. -/
def FileSystem.document? (files : FileSystem) (path : Text) : Option Text :=
  match files path with
  | .file content =>
    match Utf8.decode content with
    | .ok text => some (Text.unifyLineEnds text)
    | .error _ => none
  | _ => none

namespace Analysis

variable {room : Json.Room} {files : FileSystem} {path text : Text}

theorem ofJson_eq_ok_iff {j : Json} {a : Analysis} :
    ofJson j = .ok a ↔ ∃ document, Document.ofJson j = .ok document ∧ document.toAnalysis = a := by
  unfold ofJson
  cases Document.ofJson j with
  | error ps => simp
  | ok document => simp

theorem load_of_document? (h : files.document? path = some text) :
    load room files path = ofText room text := by
  unfold FileSystem.document? at h
  split at h
  · next content hfile =>
    split at h
    · next text hdecode =>
      obtain rfl := Option.some.inj h
      simp only [load, hfile, hdecode]
    · cases h
  · cases h

/-- Without a document the analysis is not loaded, and the fault is not in its JSON. -/
theorem load_of_no_document (h : files.document? path = none) :
    ∃ e, load room files path = .error e ∧ ∀ text error, e ≠ .json text error := by
  unfold FileSystem.document? at h
  unfold load
  cases hfile : files path with
  | file content =>
    rw [hfile] at h
    cases hdecode : Utf8.decode content with
    | error fault => exact ⟨.encoding fault, by simp only [hdecode], by simp⟩
    | ok text => simp [hdecode] at h
  | unreadable reason => exact ⟨_, rfl, by simp⟩
  | absent => exact ⟨_, rfl, by simp⟩
  | unnamable reason => exact ⟨_, rfl, by simp⟩
  | refused reason => exact ⟨_, rfl, by simp⟩
  | looped reason => exact ⟨_, rfl, by simp⟩

/-- A loaded analysis stands for a document that was read from the file. -/
theorem load_eq_ok_iff {a : Analysis} :
    load room files path = .ok a ↔
      ∃ text members, ∃ document : Document, files.document? path = some text ∧
        Json.readTo room.count text = .ok (.object members) ∧ document.ReadFrom members ∧
        document.toAnalysis = a := by
  constructor
  · intro h
    cases hdocument : files.document? path with
    | none =>
      obtain ⟨e, he, -⟩ := load_of_no_document hdocument
      rw [h] at he
      cases he
    | some text =>
      rw [load_of_document? hdocument, ofText] at h
      split at h
      · cases h
      · next j hread =>
        cases hj : ofJson j with
        | error rejection =>
          rw [hj] at h
          cases h
        | ok b =>
          rw [hj] at h
          obtain rfl := Except.ok.inj h
          obtain ⟨document, hofJson, htoAnalysis⟩ := ofJson_eq_ok_iff.mp hj
          obtain ⟨members, rfl, hmembers⟩ := Document.ofJson_eq_ok_iff.mp hofJson
          exact ⟨text, members, document, rfl, hread, hmembers, htoAnalysis⟩
  · rintro ⟨text, members, document, hdocument, hread, hmembers, rfl⟩
    have hofJson := Document.ofJson_eq_ok_iff.mpr ⟨members, rfl, hmembers⟩
    rw [load_of_document? hdocument, ofText, hread]
    simp only [ofJson_eq_ok_iff.mpr ⟨document, hofJson, rfl⟩]
    rfl

theorem exists_document_of_load {a : Analysis} (h : load room files path = .ok a) :
    ∃ text members, ∃ document : Document, files.document? path = some text ∧
      Json.read text = .ok (.object members) ∧ document.ReadFrom members ∧
      document.toAnalysis = a := by
  obtain ⟨text, members, document, hdocument, hread, hmembers⟩ := load_eq_ok_iff.mp h
  exact ⟨text, members, document, hdocument, Json.read_of_readTo hread, hmembers⟩

/-- JSON at fault is the JSON of the file's document. -/
theorem load_eq_json_error_iff {error : Json.ReadError} :
    load room files path = .error (.json text error) ↔
      files.document? path = some text ∧ Json.readTo room.count text = .error error := by
  constructor
  · intro h
    cases hdocument : files.document? path with
    | none =>
      obtain ⟨e, he, hne⟩ := load_of_no_document hdocument
      exact absurd (Except.error.inj (he.symm.trans h)) (hne text error)
    | some _ =>
      rw [load_of_document? hdocument, ofText] at h
      split at h
      · next e hread =>
        cases h
        exact ⟨rfl, hread⟩
      · next j _ =>
        cases hj : ofJson j with
        | error rejection =>
          rw [hj] at h
          cases h
        | ok b =>
          rw [hj] at h
          cases h
  · rintro ⟨hdocument, hread⟩
    rw [load_of_document? hdocument, ofText, hread]

end Analysis

end PullGate
