import PullGate.Proofs.Analysis.Members

/-! What an accepted document makes sure of.  The values of its members are read leniently, as
integers of any sign and as texts with any blanks around them; whichever they are, the analysis that
comes of them is within its bounds. -/

namespace PullGate

open Check

section Numbers

variable {members : List (Text × Json)} {key : Text}

/-- A member that must not be negative is its integer. -/
theorem Check.optional_natural_eq_ok_iff {absent n : Nat} :
    optional members key natural absent = .ok n ↔
      optional members key integer absent = .ok (n : Int) := by
  simp only [optional_eq_ok_iff, natural_eq_ok_iff, Int.natCast_inj]

theorem Check.required_positive_eq_ok_iff {n : Nat} :
    required members key positive = .ok n ↔
      required members key integer = .ok (n : Int) ∧ 1 ≤ n := by
  simp only [required_eq_ok_iff, positive_eq_ok_iff, ← and_assoc, exists_and_right]

/-- The number is the integer of the first of the two members that is there, or zero. -/
def IssueCounts.Says (members : List (Text × Json)) (name other : Text) (n : Nat) : Prop :=
  match (Json.lookup name members).or (Json.lookup other members) with
  | some j => integer j = .ok (n : Int)
  | none => n = 0

theorem IssueCounts.count_eq_ok_iff {name other : Text} {n : Nat} :
    count members name other = .ok n ↔ Says members name other n := by
  unfold count Says
  split
  · next j hj => rw [hj, Option.some_or, within_eq_ok_iff, natural_eq_ok_iff]
  · next hnone =>
    rw [hnone, Option.none_or, optional_eq_ok_iff]
    cases Json.lookup other members with
    | none => simp
    | some j => simp [natural_eq_ok_iff]

end Numbers

/-- The four counts that the object says. -/
structure IssueCounts.Sound (members : List (Text × Json)) (counts : IssueCounts) : Prop where
  bugs : Says members "BUG" "bugs" counts.bugs
  vulnerabilities : Says members "VULNERABILITY" "vulnerabilities" counts.vulnerabilities
  hotspots : Says members "SECURITY_HOTSPOT" "hotspots" counts.hotspots
  codeSmells : Says members "CODE_SMELL" "code_smells" counts.codeSmells

/-- The finding of an entry: its line is an integer that is not negative, and its texts have no
white space at their ends. -/
structure Finding.Sound (entry : Json) (f : Finding) : Prop where
  members : ∃ members, entry = .object members ∧ f.ReadFrom members ∧
    optional members "line" integer 0 = .ok (f.line : Int)
  externalId : f.externalId.Trimmed CodePoint.isWhiteSpace
  path : f.path.Trimmed CodePoint.isWhiteSpace
  link : f.link.Trimmed CodePoint.isWhiteSpace
  message : f.message.Trimmed CodePoint.isWhiteSpace

/-- The analysis of a document with these members. Its numbers are the integers of their members,
so that none of these was negative. -/
structure Analysis.Sound (members : List (Text × Json)) (a : Analysis) : Prop where
  commit : Json.lookup "commit_sha" members = some (.string a.commit) ∧ a.commit ≠ []
  pullRequest : required members "pull_request_id" integer = .ok (a.pullRequest : Int) ∧
    1 ≤ a.pullRequest
  counts : (Json.lookup "issue_counts" members = none ∧ a.counts = .zero) ∨
    ∃ counted, Json.lookup "issue_counts" members = some (.object counted) ∧
      a.counts.Sound counted
  imageUrl : ∃ slashes, optional members "base_image_url" text [] =
      .ok (a.imageUrl ++ List.replicate slashes (.scalar '/')) ∧
    a.imageUrl.getLast? ≠ some (.scalar '/')
  logoUrl : a.logoUrl = a.imageUrl ++ "/common/icon.png"
  annotations : (Json.lookup "annotations" members = none ∧ a.annotations = []) ∨
    ∃ entries, Json.lookup "annotations" members = some (.array entries) ∧
      List.Forall₂ Finding.Sound entries a.annotations
  uncounted : Json.lookup "issue_count" members = none ∨
      Json.lookup "issue_count" members = some .null →
    a.issueCount = a.annotations.length
  counted : ∀ j, Json.lookup "issue_count" members = some j → j ≠ .null →
    integer j = .ok (a.issueCount : Int)
  hasIssues : a.hasIssues = true ↔ 0 < a.issueCount ∨ a.annotations ≠ []

theorem IssueCounts.ReadFrom.sound {members : List (Text × Json)} {counts : IssueCounts}
    (h : counts.ReadFrom members) : counts.Sound members where
  bugs := count_eq_ok_iff.mp h.bugs
  vulnerabilities := count_eq_ok_iff.mp h.vulnerabilities
  hotspots := count_eq_ok_iff.mp h.hotspots
  codeSmells := count_eq_ok_iff.mp h.codeSmells

theorem Check.trimmed_of_required {members : List (Text × Json)} {key t : Text}
    (h : required members key trimmed = .ok t) : t.Trimmed CodePoint.isWhiteSpace := by
  obtain ⟨j, -, hj⟩ := required_eq_ok_iff.mp h
  exact trimmed_of_trimmed hj

theorem Finding.sound_of_ofJson {entry : Json} {f : Finding} (h : ofJson entry = .ok f) :
    f.Sound entry := by
  obtain ⟨members, hentry, hf⟩ := ofJson_eq_ok_iff.mp h
  refine {
    members := ⟨members, hentry, hf, Check.optional_natural_eq_ok_iff.mp hf.line⟩
    externalId := trimmed_of_required hf.externalId
    path := trimmed_of_required hf.path
    link := ?_
    message := trimmed_of_required hf.message }
  rcases optional_eq_ok_iff.mp hf.link with ⟨j, -, hj⟩ | ⟨-, hempty⟩
  · exact trimmed_of_trimmed hj
  · rw [hempty]
    exact Text.trimmed_nil _

namespace Document

variable {members : List (Text × Json)} {d : Document}

theorem ReadFrom.sound_imageUrl (h : d.ReadFrom members) :
    ∃ slashes, optional members "base_image_url" text [] =
        .ok (d.toAnalysis.imageUrl ++ List.replicate slashes (.scalar '/')) ∧
      d.toAnalysis.imageUrl.getLast? ≠ some (.scalar '/') := by
  obtain ⟨cut, hcut, hslash⟩ := Text.exists_trimRight_append (· = .scalar '/') d.imageUrl
  have hreplicate : cut = List.replicate cut.length (.scalar '/') :=
    List.eq_replicate_iff.mpr ⟨rfl, fun c hc => of_decide_eq_true (hslash c hc)⟩
  refine ⟨cut.length, ?_, fun hlast => ?_⟩
  · rw [h.imageUrl, ← hreplicate]
    exact congrArg Except.ok hcut
  · have hne := Text.getLast?_trimRight (· = .scalar '/') d.imageUrl _ hlast
    simp at hne

theorem ReadFrom.sound_annotations (h : d.ReadFrom members) :
    (Json.lookup "annotations" members = none ∧ d.annotations = []) ∨
      ∃ entries, Json.lookup "annotations" members = some (.array entries) ∧
        List.Forall₂ Finding.Sound entries d.annotations := by
  rcases optional_eq_ok_iff.mp h.annotations with ⟨j, hj, hlist⟩ | habsent
  · obtain ⟨entries, rfl, hentries⟩ := list_eq_ok_iff.mp hlist
    exact .inr ⟨entries, hj, hentries.imp fun _ _ => Finding.sound_of_ofJson⟩
  · exact .inl habsent

theorem ReadFrom.sound_counts (h : d.ReadFrom members) :
    (Json.lookup "issue_counts" members = none ∧ d.counts = .zero) ∨
      ∃ counted, Json.lookup "issue_counts" members = some (.object counted) ∧
        d.counts.Sound counted := by
  rcases optional_eq_ok_iff.mp h.counts with ⟨j, hj, hcounts⟩ | habsent
  · obtain ⟨counted, rfl, hread⟩ := IssueCounts.ofJson_eq_ok_iff.mp hcounts
    exact .inr ⟨counted, hj, hread.sound⟩
  · exact .inl habsent

/-- A count that is missing or null leaves the annotations to be counted. -/
theorem ReadFrom.issueCount_of_uncounted (h : d.ReadFrom members)
    (hnone : Json.lookup "issue_count" members = none ∨
      Json.lookup "issue_count" members = some .null) : d.issueCount = none := by
  rcases optional_eq_ok_iff.mp h.issueCount with ⟨j, hj, hcount⟩ | ⟨-, habsent⟩
  · obtain rfl : j = .null := by simpa [hj] using hnone
    exact (Except.ok.inj hcount).symm
  · exact habsent

theorem ReadFrom.integer_of_counted (h : d.ReadFrom members) {j : Json}
    (hj : Json.lookup "issue_count" members = some j) (hnull : j ≠ .null) :
    ∃ n, d.issueCount = some n ∧ integer j = .ok (n : Int) := by
  rcases optional_eq_ok_iff.mp h.issueCount with ⟨k, hk, hcount⟩ | ⟨habsent, -⟩
  · obtain rfl := Option.some.inj (hj.symm.trans hk)
    cases hn : d.issueCount with
    | none =>
      rw [hn] at hcount
      exact absurd (nullable_eq_ok_none_iff.mp hcount) hnull
    | some n =>
      rw [hn] at hcount
      exact ⟨n, rfl, natural_eq_ok_iff.mp (nullable_eq_ok_some_iff.mp hcount).2⟩
  · rw [hj] at habsent
    cases habsent

theorem ReadFrom.sound (h : d.ReadFrom members) : d.toAnalysis.Sound members where
  commit := by
    obtain ⟨j, hj, htext⟩ := required_eq_ok_iff.mp h.commit
    obtain ⟨rfl, -, hne⟩ := nonemptyText_eq_ok_iff.mp htext
    exact ⟨hj, hne⟩
  pullRequest := Check.required_positive_eq_ok_iff.mp h.pullRequest
  counts := h.sound_counts
  imageUrl := h.sound_imageUrl
  logoUrl := rfl
  annotations := h.sound_annotations
  uncounted hnone := by
    show d.issueCount.getD d.annotations.length = d.annotations.length
    rw [h.issueCount_of_uncounted hnone, Option.getD_none]
  counted j hj hnull := by
    obtain ⟨n, hn, hinteger⟩ := h.integer_of_counted hj hnull
    show integer j = .ok ((d.issueCount.getD d.annotations.length : Nat) : Int)
    rw [hn, Option.getD_some, hinteger]
  hasIssues := by simp [Analysis.hasIssues]

end Document

/-- Whatever a file holds, an analysis that is loaded from it is sound: the file is a text, the text
is a JSON object, and the analysis keeps to the bounds on its members. -/
theorem Analysis.sound_of_load {room : Json.Room} {files : FileSystem} {path : Text} {a : Analysis}
    (h : load room files path = .ok a) :
    ∃ text members, files.document? path = some text ∧ Json.read text = .ok (.object members) ∧
      a.Sound members := by
  obtain ⟨text, members, document, hdocument, hread, hmembers, rfl⟩ := exists_document_of_load h
  exact ⟨text, members, hdocument, hread, hmembers.sound⟩

namespace Analysis.Sample

/-- Numbers as text, as truth value and as whole double, blanks at ends, and no issue count. -/
def lenient : Text :=
  "\x7b\"project_key\": \"project\", \"commit_sha\": \"abc123\", \"pull_request_id\": \" 7 \", " ++
    "\"quality_gate_status\": \"OK\", \"analysis_date\": \"2024-05-01T10:00:00\", " ++
    "\"dashboard_url\": \"\", \"base_image_url\": \"https://img.example.com//\", " ++
    "\"issue_counts\": \x7b\"BUG\": true, \"hotspots\": \"3.0\"\x7d, \"issue_count\": null, " ++
    "\"annotations\": [\x7b\"external_id\": \" issue-0\", \"path\": \"src/app.py \", " ++
    "\"line\": 3.0, \"message\": \"\\u2003\", \"severity\": \"LOW\", \"type\": \"BUG\"\x7d]\x7d"

def lenientDirectory : Directory := ⟨[], [("analysis.json", .octets (Text.utf8 lenient))]⟩

end Analysis.Sample

theorem Analysis.sound_of_load_sample :
    ∃ a, load .usual Sample.lenientDirectory.system "analysis.json" = .ok a ∧
      ∃ text members, Sample.lenientDirectory.system.document? "analysis.json" = some text ∧
        Json.read text = .ok (.object members) ∧ a.Sound members := by
  have hload :
      (load .usual Sample.lenientDirectory.system "analysis.json").toOption.isSome = true := by
    decide +kernel
  cases hresult : load .usual Sample.lenientDirectory.system "analysis.json" with
  | ok a => exact ⟨a, rfl, sound_of_load hresult⟩
  | error e =>
    rw [hresult] at hload
    cases hload

end PullGate
