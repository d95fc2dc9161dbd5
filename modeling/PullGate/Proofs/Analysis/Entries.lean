import PullGate.Proofs.Analysis.Members
import PullGate.Proofs.Json.RoundTrip
import PullGate.Proofs.Validation.Problems

/-! A document against its entries.  What becomes of a list of annotations in a document is what
becomes of each of its entries on its own: their findings if all are accepted, and otherwise the
problems of each, under its index, behind those of the fields in front. -/

namespace PullGate

open Check

namespace Document

section Fields

variable {α : Type} (members : List (Text × Json)) (name : Text) (check : Json → Checked α)

/-- A field that must be there, with the verdict on it. -/
def demanded : Text × Checked Unit := (name, (required members name check).verdict)

/-- A field that may be missing, with the verdict on it. -/
def allowed (absent : α) : Text × Checked Unit :=
  (name, (optional members name check absent).verdict)

end Fields

/-- The names of the fields in front of the annotations, in their order. -/
def fieldNames : List Text :=
  ["project_key", "commit_sha", "pull_request_id", "quality_gate_status", "dashboard_url",
    "base_image_url", "analysis_date", "issue_counts", "coverage", "duplication",
    "failed_conditions", "issue_count"]

/-- The fields in front of the annotations, each with the verdict on it. -/
def fields (members : List (Text × Json)) : List (Text × Checked Unit) :=
  [demanded members "project_key" text,
    demanded members "commit_sha" nonemptyText,
    demanded members "pull_request_id" positive,
    demanded members "quality_gate_status" (choice Gate.words),
    demanded members "dashboard_url" text,
    allowed members "base_image_url" text [],
    demanded members "analysis_date" dateTime,
    allowed members "issue_counts" IssueCounts.ofJson .zero,
    allowed members "coverage" (nullable number) none,
    allowed members "duplication" (nullable number) none,
    allowed members "failed_conditions" (list text) [],
    allowed members "issue_count" (nullable natural) none]

theorem map_fst_fields (members : List (Text × Json)) :
    (fields members).map Prod.fst = fieldNames := rfl

/-- The problems of the entries, each entry checked on its own: in the order of the entries, and
under the place that the entry has in the document. -/
def entryProblems (entries : List Json) : List Problem :=
  entries.zipIdx.flatMap fun x => (Finding.ofJson x.1).problems.map fun p =>
    ⟨.key "annotations" :: .index x.2 :: p.path, p.cause⟩

variable {members : List (Text × Json)} {entries : List Json}

/-- Each field complains of nothing outside of itself. -/
theorem isIn_of_fields : ∀ field ∈ fields members, ∀ p ∈ field.2.problems,
    p.isIn field.1 = true := by
  have hdemanded : ∀ {α : Type} (name : Text) (check : Json → Checked α),
      ∀ p ∈ (demanded members name check).2.problems, p.isIn name = true :=
    fun _ _ p hp => isIn_of_required (by simpa [demanded] using hp)
  have hallowed : ∀ {α : Type} (name : Text) (check : Json → Checked α) (absent : α),
      ∀ p ∈ (allowed members name check absent).2.problems, p.isIn name = true :=
    fun _ _ _ p hp => isIn_of_optional (by simpa [allowed] using hp)
  simp only [fields, List.forall_mem_cons]
  exact ⟨hdemanded _ _, hdemanded _ _, hdemanded _ _, hdemanded _ _, hdemanded _ _, hallowed _ _ _,
    hdemanded _ _, hallowed _ _ _, hallowed _ _ _, hallowed _ _ _, hallowed _ _ _, hallowed _ _ _,
    List.forall_mem_nil _⟩

theorem problems_annotations (h : Json.lookup "annotations" members = some (.array entries)) :
    (optional members "annotations" (list Finding.ofJson) []).problems = entryProblems entries := by
  unfold Check.optional
  rw [h]
  simp only [Checked.problems_within, problems_list, List.map_flatMap, List.map_map]
  rfl

/-- All problems of a document: field by field, and entry by entry. -/
theorem problems_ofMembers (h : Json.lookup "annotations" members = some (.array entries)) :
    (ofMembers members).problems =
      (fields members).flatMap (fun field => field.2.problems) ++ entryProblems entries := by
  rw [← problems_annotations h]
  simp [ofMembers, fields, demanded, allowed, Checked.pure]

/-- Only the entries complain of something in the annotations. -/
theorem filter_isIn_annotations :
    ((fields members).flatMap (fun field => field.2.problems) ++ entryProblems entries).filter
      (Problem.isIn "annotations") = entryProblems entries := by
  have hnames : ∀ field ∈ fields members, field.1 ≠ "annotations" := by
    intro field hfield heq
    have hmem : field.1 ∈ (fields members).map Prod.fst := List.mem_map_of_mem hfield
    rw [map_fst_fields, heq] at hmem
    exact absurd hmem (by decide)
  have hfields : ((fields members).flatMap fun field => field.2.problems).filter
      (Problem.isIn "annotations") = [] := by
    refine List.filter_eq_nil_iff.mpr fun p hp => ?_
    obtain ⟨field, hfield, hp⟩ := List.mem_flatMap.mp hp
    have hhead : p.path.head? = some (.key field.1) :=
      of_decide_eq_true (isIn_of_fields field hfield p hp)
    simpa [Problem.isIn, hhead] using hnames field hfield
  have hentries : (entryProblems entries).filter (Problem.isIn "annotations") =
      entryProblems entries := by
    refine List.filter_eq_self.mpr fun p hp => ?_
    obtain ⟨x, -, hp⟩ := List.mem_flatMap.mp hp
    obtain ⟨q, -, rfl⟩ := List.mem_map.mp hp
    exact decide_eq_true rfl
  rw [List.filter_append, hfields, hentries, List.nil_append]

/-- A document is accepted if its other fields are and each of its entries is. -/
theorem accepted_iff (h : Json.lookup "annotations" members = some (.array entries)) :
    (∃ d, ofMembers members = .ok d) ↔ (∀ field ∈ fields members, field.2 = .ok ()) ∧
      ∀ entry ∈ entries, ∃ f, Finding.ofJson entry = .ok f := by
  have hentries : (∃ findings, optional members "annotations" (list Finding.ofJson) [] =
      .ok findings) ↔ ∀ entry ∈ entries, ∃ f, Finding.ofJson entry = .ok f := by
    simp [optional_eq_ok_iff, h, exists_list_eq_ok_iff]
  rw [← hentries]
  simp only [fields, List.forall_mem_cons, demanded, allowed, Checked.verdict_eq_ok_iff,
    ofMembers_eq_ok_iff]
  constructor
  · rintro ⟨d, hd⟩
    exact ⟨⟨⟨_, hd.projectKey⟩, ⟨_, hd.commit⟩, ⟨_, hd.pullRequest⟩, ⟨_, hd.gate⟩,
      ⟨_, hd.dashboardUrl⟩, ⟨_, hd.imageUrl⟩, ⟨_, hd.date⟩, ⟨_, hd.counts⟩, ⟨_, hd.coverage⟩,
      ⟨_, hd.duplication⟩, ⟨_, hd.failedConditions⟩, ⟨_, hd.issueCount⟩, List.forall_mem_nil _⟩,
      _, hd.annotations⟩
  · rintro ⟨⟨⟨_, h₁⟩, ⟨_, h₂⟩, ⟨_, h₃⟩, ⟨_, h₄⟩, ⟨_, h₅⟩, ⟨_, h₆⟩, ⟨_, h₇⟩, ⟨_, h₈⟩, ⟨_, h₉⟩,
      ⟨_, h₁₀⟩, ⟨_, h₁₁⟩, ⟨_, h₁₂⟩, -⟩, _, h₁₃⟩
    exact ⟨⟨_, _, _, _, _, _, _, _, _, _, _, _, _⟩,
      ⟨h₁, h₂, h₃, h₄, h₅, h₆, h₇, h₈, h₉, h₁₀, h₁₁, h₁₂, h₁₃⟩⟩

/-- The findings of an accepted document are those of its entries. -/
theorem annotations_eq {d : Document}
    (h : Json.lookup "annotations" members = some (.array entries))
    (hd : ofMembers members = .ok d) : entries.map Finding.ofJson = d.annotations.map .ok := by
  have hread := ofMembers_eq_ok_iff.mp hd
  rcases optional_eq_ok_iff.mp hread.annotations with ⟨j, hj, hlist⟩ | ⟨hnone, -⟩
  · obtain ⟨items, rfl, hitems⟩ := list_eq_ok_iff.mp hlist
    obtain rfl : entries = items := by simpa [h] using hj
    rw [← List.forall₂_eq_eq_eq, List.forall₂_map_left_iff, List.forall₂_map_right_iff]
    exact hitems
  · rw [h] at hnone
    cases hnone

/-- What becomes of a document, said by its fields and its entries, each checked on its own. -/
structure Composed (members : List (Text × Json)) (entries : List Json)
    (result : Except Rejection Analysis) : Prop where
  accepted_iff : (∃ a, result = .ok a) ↔ (∀ field ∈ fields members, field.2 = .ok ()) ∧
    ∀ entry ∈ entries, ∃ f, Finding.ofJson entry = .ok f
  annotations : ∀ a, result = .ok a → entries.map Finding.ofJson = a.annotations.map .ok
  problems : ∀ r, result = .error r →
    r.problems = (fields members).flatMap (fun field => field.2.problems) ++ entryProblems entries
  inAnnotations : ∀ r, result = .error r →
    r.problems.filter (Problem.isIn "annotations") = entryProblems entries
  inFields : ∀ field ∈ fields members, ∀ p ∈ field.2.problems, p.isIn field.1 = true

end Document

namespace Analysis

variable {members : List (Text × Json)} {entries : List Json}

theorem exists_ofJson_eq_ok_iff :
    (∃ a, ofJson (.object members) = .ok a) ↔ ∃ d, Document.ofMembers members = .ok d := by
  simp only [ofJson_eq_ok_iff]
  constructor
  · rintro ⟨_, d, hd, rfl⟩
    exact ⟨d, hd⟩
  · rintro ⟨d, hd⟩
    exact ⟨_, d, hd, rfl⟩

theorem problems_of_ofJson {r : Rejection} (h : ofJson (.object members) = .error r) :
    r.problems = (Document.ofMembers members).problems := by
  unfold ofJson at h
  split at h
  · cases h
  · next problems hproblems =>
    obtain rfl := Except.error.inj h
    rw [show Document.ofMembers members = .error problems from hproblems]
    rfl

/-- A document whose annotations are a list is put together from its fields and from its entries,
each checked on its own; and so is what is loaded from a file that holds it. -/
theorem composed_ofJson (h : Json.lookup "annotations" members = some (.array entries)) :
    Document.Composed members entries (ofJson (.object members)) ∧
      ∀ room files path text, FileSystem.document? files path = some text →
        Json.readTo room.count text = .ok (.object members) →
        load room files path = (ofJson (.object members)).mapError .rejected := by
  refine ⟨{
    accepted_iff := exists_ofJson_eq_ok_iff.trans (Document.accepted_iff h)
    annotations := fun a ha => ?_
    problems := fun r hr => (problems_of_ofJson hr).trans (Document.problems_ofMembers h)
    inAnnotations := fun r hr => ?_
    inFields := Document.isIn_of_fields }, fun room files path text hdocument hread => ?_⟩
  · obtain ⟨d, hd, rfl⟩ := ofJson_eq_ok_iff.mp ha
    exact Document.annotations_eq h hd
  · rw [problems_of_ofJson hr, Document.problems_ofMembers h]
    exact Document.filter_isIn_annotations
  · rw [load_of_document? hdocument, ofText, hread]

namespace Sample

/-- One entry that is accepted, and one with neither path nor a severity that is known. -/
def mixed : List Json :=
  [.object [("external_id", .string " issue-0"), ("path", .string "src/app.py"),
      ("message", .string "m"), ("severity", .string "LOW"), ("type", .string "BUG")],
    .object [("external_id", .string "issue-1"), ("message", .string "m"),
      ("severity", .string "BLOCKER"), ("type", .string "BUG")]]

/-- A document of these entries that lacks its other fields. -/
def bare : List (Text × Json) := [("annotations", .array mixed)]

/-- A document with one entry, which is none. -/
def hollow : List (Text × Json) := [("annotations", .array [.null])]

def directory : Directory :=
  ⟨[], [("analysis.json", .octets (Text.utf8 (Json.write (.object hollow))))]⟩

theorem faithful_hollow : Json.Faithful Json.Room.usual.count (.object hollow) :=
  .object (by decide) (List.forall_mem_singleton.mpr (Text.joined_of_isUnicode rfl))
    (List.forall_mem_singleton.mpr (.array (List.forall_mem_singleton.mpr .null)))

end Sample

theorem composed_ofJson_sample :
    Json.lookup "annotations" Sample.bare = some (.array Sample.mixed) ∧
    Document.entryProblems Sample.mixed =
      [⟨[.key "annotations", .index 1, .key "path"], .missing⟩,
        ⟨[.key "annotations", .index 1, .key "severity"],
          .notListed ["HIGH", "MEDIUM", "LOW"]⟩] ∧
    Document.Composed Sample.bare Sample.mixed (ofJson (.object Sample.bare)) ∧
    load .usual Sample.directory.system "analysis.json" =
      (ofJson (.object Sample.hollow)).mapError .rejected :=
  ⟨rfl, by decide +kernel, (composed_ofJson rfl).1, (composed_ofJson rfl).2 .usual
    Sample.directory.system "analysis.json" _ (by decide +kernel)
    Sample.faithful_hollow.readTo_write⟩

end Analysis

end PullGate
