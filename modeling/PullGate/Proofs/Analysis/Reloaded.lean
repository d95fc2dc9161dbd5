import PullGate.Proofs.Analysis.Loaded
import PullGate.Proofs.Json.Ascii

/-! Analyses that are loaded again.  What a check makes of a value it leaves as it is the next time:
a finding is accepted again from its own object, and a file whose annotations were exported by what
was loaded from it is loaded as before, however often. -/

namespace PullGate

/-! ### Texts without blanks at their ends -/

namespace Text

variable {p : CodePoint → Bool} {t : Text}

theorem dropWhile_eq_self (h : ∀ c ∈ t.head?, p c = false) : t.dropWhile p = t := by
  cases t with
  | nil => rfl
  | cons c t => rw [List.dropWhile_cons_of_neg (by simp [h c rfl])]

theorem Trimmed.trim_eq (h : t.Trimmed p) : trim p t = t := by
  have hright : t.reverse.dropWhile p = t.reverse := by
    apply dropWhile_eq_self
    rw [List.head?_reverse]
    exact h.last
  rw [trim, trimLeft, dropWhile_eq_self h.head, trimRight, hright, List.reverse_reverse]

end Text

/-! ### Values that are checked again -/

namespace Check

/-- A text that was trimmed is accepted as it is. -/
theorem trimmed_string {j : Json} {t : Text} (h : trimmed j = .ok t) :
    trimmed (.string t) = .ok t := by
  obtain ⟨u, -, hu, htrim⟩ := trimmed_eq_ok_iff.mp h
  refine trimmed_eq_ok_iff.mpr ⟨t, rfl, ?_, (trimmed_of_trimmed h).trim_eq⟩
  rw [← htrim]
  exact Text.isUnicode_of_subset hu (Text.trim_subset _ u)

theorem natural_int (n : Nat) : natural (.int n) = .ok n := natural_eq_ok_iff.mpr rfl

theorem choice_severity (s : Severity) : choice Severity.words (.string s.word) = .ok s := by
  cases s <;> rfl

theorem choice_kind (k : FindingKind) : choice FindingKind.words (.string k.word) = .ok k := by
  cases k <;> rfl

variable {α : Type} {check : Json → Checked α} {members : List (Text × Json)} {key : Text}
  {j : Json}

theorem required_of_lookup {v : α} (hj : Json.lookup key members = some j) (h : check j = .ok v) :
    required members key check = .ok v := required_eq_ok_iff.mpr ⟨j, hj, h⟩

theorem optional_of_lookup {absent v : α} (hj : Json.lookup key members = some j)
    (h : check j = .ok v) : optional members key check absent = .ok v :=
  optional_eq_ok_iff.mpr (.inl ⟨j, hj, h⟩)

/-- A member that may be missing is accepted from its own text. -/
theorem trimmed_of_optional {t : Text} (h : optional members key trimmed [] = .ok t) :
    trimmed (.string t) = .ok t := by
  rcases optional_eq_ok_iff.mp h with ⟨j, -, hj⟩ | ⟨-, rfl⟩
  · exact trimmed_string hj
  · rfl

theorem trimmed_string_of_required {t : Text} (h : required members key trimmed = .ok t) :
    trimmed (.string t) = .ok t := by
  obtain ⟨j, -, hj⟩ := required_eq_ok_iff.mp h
  exact trimmed_string hj

end Check

open Check

/-! ### Findings -/

namespace Finding

variable {f : Finding}

/-- A finding that was accepted is accepted from its own object, and is the same. -/
theorem ofJson_toJson {j : Json} (h : ofJson j = .ok f) : ofJson f.toJson = .ok f := by
  obtain ⟨members, -, hf⟩ := ofJson_eq_ok_iff.mp h
  exact ofJson_eq_ok_iff.mpr ⟨_, rfl, {
    externalId := required_of_lookup rfl (trimmed_string_of_required hf.externalId)
    path := required_of_lookup rfl (trimmed_string_of_required hf.path)
    line := optional_of_lookup rfl (natural_int f.line)
    link := optional_of_lookup rfl (trimmed_of_optional hf.link)
    message := required_of_lookup rfl (trimmed_string_of_required hf.message)
    severity := required_of_lookup rfl (choice_severity f.severity)
    kind := required_of_lookup rfl (choice_kind f.kind) }⟩

theorem forall₂_toJson {entries : List Json} {findings : List Finding}
    (h : List.Forall₂ (fun entry f => ofJson entry = .ok f) entries findings) :
    List.Forall₂ (fun entry f => ofJson entry = .ok f) (findings.map toJson) findings := by
  induction h with
  | nil => exact .nil
  | cons hf _ ih => exact .cons (ofJson_toJson hf) ih

theorem faithful_toJson (h : f.Writable) (depth : Nat) : Json.Faithful (depth + 1) f.toJson := by
  refine .ofKeys ["external_id", "path", "line", "link", "message", "severity", "type"] (by decide)
    rfl rfl ?_
  simp only [List.forall_mem_cons]
  exact ⟨.string h.externalId, .string h.path, .int h.line, .string h.link, .string h.message,
    .string f.severity.isAscii_word.joined, .string f.kind.isAscii_word.joined,
    List.forall_mem_nil _⟩

end Finding

/-! ### Documents -/

namespace Document

variable {members : List (Text × Json)} {d : Document}

/-- The members of a document with these findings for its annotations. -/
def exported (members : List (Text × Json)) (findings : List Finding) : List (Text × Json) :=
  Json.insert "annotations" (.array (findings.map Finding.toJson)) members

/-- A document that was accepted is accepted with its own findings for its annotations. -/
theorem ReadFrom.exported (h : d.ReadFrom members) :
    d.ReadFrom (exported members d.annotations) := by
  have hlookup : ∀ key : Text, key ≠ "annotations" →
      Json.lookup key (Document.exported members d.annotations) = Json.lookup key members :=
    fun key hkey => Json.lookup_insert_of_ne hkey _ _
  have hrequired : ∀ {α : Type} {key : Text} {check : Json → Checked α}, key ≠ "annotations" →
      required (Document.exported members d.annotations) key check =
        required members key check := by
    intro α key check hkey
    rw [Check.required, Check.required, hlookup key hkey]
  have hoptional : ∀ {α : Type} {key : Text} {check : Json → Checked α} {absent : α},
      key ≠ "annotations" → optional (Document.exported members d.annotations) key check absent =
        optional members key check absent := by
    intro α key check absent hkey
    rw [Check.optional, Check.optional, hlookup key hkey]
  have hfindings : List.Forall₂ (fun entry f => Finding.ofJson entry = .ok f)
      (d.annotations.map Finding.toJson) d.annotations := by
    rcases optional_eq_ok_iff.mp h.annotations with ⟨j, -, hlist⟩ | ⟨-, hempty⟩
    · obtain ⟨entries, -, hentries⟩ := list_eq_ok_iff.mp hlist
      exact Finding.forall₂_toJson hentries
    · rw [hempty]
      exact .nil
  exact {
    projectKey := (hrequired (by decide)).trans h.projectKey
    commit := (hrequired (by decide)).trans h.commit
    pullRequest := (hrequired (by decide)).trans h.pullRequest
    gate := (hrequired (by decide)).trans h.gate
    dashboardUrl := (hrequired (by decide)).trans h.dashboardUrl
    imageUrl := (hoptional (by decide)).trans h.imageUrl
    date := (hrequired (by decide)).trans h.date
    counts := (hoptional (by decide)).trans h.counts
    coverage := (hoptional (by decide)).trans h.coverage
    duplication := (hoptional (by decide)).trans h.duplication
    failedConditions := (hoptional (by decide)).trans h.failedConditions
    issueCount := (hoptional (by decide)).trans h.issueCount
    annotations := optional_of_lookup (Json.lookup_insert_same _ _ _)
      (list_eq_ok_iff.mpr ⟨_, rfl, hfindings⟩) }

theorem faithful_exported {depth : Nat} {findings : List Finding}
    (hmembers : Json.FaithfulMembers (depth + 2) members) (h : ∀ f ∈ findings, f.Writable) :
    Json.Faithful (depth + 3) (.object (exported members findings)) := by
  have hfindings : Json.Faithful (depth + 2) (.array (findings.map Finding.toJson)) := by
    refine .array fun item hitem => ?_
    obtain ⟨f, hf, rfl⟩ := List.mem_map.mp hitem
    exact Finding.faithful_toJson (h f hf) depth
  exact (hmembers.insert (Text.joined_of_isUnicode rfl) hfindings).faithful

end Document

/-! ### Files -/

namespace Utf8

/-- ASCII is decoded as it was encoded. -/
theorem decode_utf8 {t : Text} (h : t.IsAscii) : decode t.utf8 = .ok t := by
  have hsmall : ∀ c ∈ t, c.toNat < 0x80 :=
    fun c hc => of_decide_eq_true (List.all_eq_true.mp h c hc)
  have hoctets : t.utf8 = t.map fun c => c.toNat.toUInt8 := by
    rw [Text.utf8, List.map_eq_flatMap]
    refine List.flatMap_congr fun c hc => ?_
    rw [CodePoint.utf8, if_pos (hsmall c hc)]
  have hvalue : ∀ c ∈ t, c.toNat.toUInt8.toNat = c.toNat := by
    intro c hc
    rw [Nat.toUInt8, UInt8.toNat_ofNat']
    exact Nat.mod_eq_of_lt (Nat.lt_trans (hsmall c hc) (by decide))
  have hascii : ∀ b ∈ t.map fun c => c.toNat.toUInt8, b.toNat < 0x80 := by
    intro b hb
    obtain ⟨c, hc, rfl⟩ := List.mem_map.mp hb
    rw [hvalue c hc]
    exact hsmall c hc
  have hchars : t.map ((fun b : UInt8 => CodePoint.ofNat b.toNat) ∘ fun c => c.toNat.toUInt8) =
      t.map id := by
    refine List.map_congr_left fun c hc => ?_
    rw [Function.comp_apply, hvalue c hc, CodePoint.ofNat_toNat]
    rfl
  rw [decode, hoctets, decodeFrom_ascii hascii, List.map_map, hchars, List.map_id]

end Utf8

namespace Directory

variable {d : Directory} {path text : Text}

/-- The directory after a text was saved in a file. -/
def save (d : Directory) (path text : Text) : Directory :=
  { d with files := (path, .octets text.utf8) :: d.files }

theorem system_save (d : Directory) (h : path.any (· = '\x00') = false) :
    (d.save path text).system path = .file text.utf8 := by
  have hresolve : (d.save path text).resolve = d.resolve := rfl
  unfold system
  rw [h, hresolve]
  simp [save]

/-- What is in graphic characters is read as it was saved. -/
theorem document?_save (d : Directory) (h : path.any (· = '\x00') = false)
    (htext : text.IsGraphic) :
    (d.save path text).system.document? path = some text := by
  have hends : ∀ c ∈ text, c ≠ .scalar '\r' := by
    rintro c hc rfl
    exact absurd (List.all_eq_true.mp htext _ hc) (by decide)
  simp only [FileSystem.document?, system_save d h, Utf8.decode_utf8 htext.isAscii,
    Text.unifyLineEnds_of_forall_ne hends]

/-- A path to a document has no NUL in it. -/
theorem any_nul_of_document? (h : d.system.document? path = some text) :
    path.any (· = '\x00') = false := by
  unfold FileSystem.document? system at h
  split at h
  · next hfile =>
    split at hfile
    · cases hfile
    · next hnul => exact Bool.eq_false_iff.mpr hnul
  · cases h

end Directory

namespace Analysis

variable {room : Json.Room} {d : Directory} {path : Text} {a : Analysis}

/-- The file at the path is an export of the analysis: its annotations are the objects of the
findings. -/
def IsExported (d : Directory) (path : Text) (a : Analysis) : Prop :=
  ∃ members, d.system.document? path = some (Json.write (.object members)) ∧
    Json.lookup "annotations" members = some (.array (a.annotations.map Finding.toJson))

/-- An analysis is loaded from a file and its findings are exported to the file; a file from which
none is loaded stays as it is. -/
def reexport (room : Json.Room) (path : Text) (d : Directory) : Directory :=
  match load room d.system path, (d.system.document? path).map Json.read with
  | .ok a, some (.ok (.object members)) =>
    d.save path (Json.write (.object (Document.exported members a.annotations)))
  | _, _ => d

/-- What was loaded is loaded again from its export. -/
theorem load_reexport (h : load room d.system path = .ok a) :
    load room (reexport room path d).system path = .ok a ∧
      IsExported (reexport room path d) path a := by
  obtain ⟨text, members, document, htext, hread, hmembers, rfl⟩ := load_eq_ok_iff.mp h
  have hreexport : reexport room path d = d.save path
      (Json.write (.object (Document.exported members document.annotations))) := by
    simp only [reexport, h, htext, Option.map_some, Json.read_of_readTo hread]
    rfl
  have hfindings := (writable_of_load h).annotations
  have hdocument := d.document?_save (Directory.any_nul_of_document? htext)
    (Json.isGraphic_write (.object (Document.exported members document.annotations)))
  obtain ⟨depth, hdepth⟩ : ∃ depth, room.count = depth + 3 :=
    ⟨room.count - 3, by have := room.ample; omega⟩
  rw [hdepth] at hread
  cases Json.faithful_of_readTo (FileSystem.isUnicode_of_document? htext) hread with
  | object hnodup hjoined hvalues =>
    have hfaithful := Document.faithful_exported ⟨hnodup, hjoined, hvalues⟩ hfindings
    rw [hreexport]
    exact ⟨load_eq_ok_iff.mpr ⟨_, _, document, hdocument, hdepth ▸ hfaithful.readTo_write,
      hmembers.exported, rfl⟩, _, hdocument, Json.lookup_insert_same _ _ _⟩

/-- Whatever entry was accepted, its finding is accepted from its own object and is the same; and
whatever analysis was loaded, it is loaded again after any number of exports. -/
theorem load_reexports :
    (∀ entry f, Finding.ofJson entry = .ok f → Finding.ofJson f.toJson = .ok f) ∧
    ∀ room (d : Directory) path a, load room d.system path = .ok a → ∀ n,
      load room ((reexport room path)^[n] d).system path = .ok a ∧
        IsExported ((reexport room path)^[n + 1] d) path a := by
  refine ⟨fun entry f h => Finding.ofJson_toJson h, fun room d path a h n => ?_⟩
  have hload : load room ((reexport room path)^[n] d).system path = .ok a := by
    induction n with
    | zero => exact h
    | succ n ih =>
      rw [Function.iterate_succ_apply']
      exact (load_reexport ih).1
  rw [Function.iterate_succ_apply']
  exact ⟨hload, (load_reexport hload).2⟩

namespace Sample

/-- A document with a finding whose texts have blanks around them, and whose line is a text. -/
def blanks : Text :=
  "\x7b\"project_key\": \"project\", \"commit_sha\": \"abc123\", \"pull_request_id\": 7, " ++
    "\"quality_gate_status\": \"OK\", \"analysis_date\": 1714557600, " ++
    "\"dashboard_url\": \"https://sonar.example.com/dashboard\", " ++
    "\"annotations\": [\x7b\"external_id\": \" issue 1\", \"path\": \"\\u2003\", " ++
    "\"line\": \" +1_2.0 \", \"message\": \"a  b\\n\", \"severity\": \"LOW\", " ++
    "\"type\": \"BUG\"\x7d]\x7d"

def blankDirectory : Directory := ⟨[], [("analysis.json", .octets (Text.utf8 blanks))]⟩

end Sample

theorem load_reexports_sample :
    ∃ a, load .usual Sample.blankDirectory.system "analysis.json" = .ok a ∧
    a.annotations = [⟨"issue 1", [], 12, [], "a  b", .low, .bug⟩] ∧
    Finding.ofJson (Finding.toJson ⟨"issue 1", [], 12, [], "a  b", .low, .bug⟩) =
      .ok ⟨"issue 1", [], 12, [], "a  b", .low, .bug⟩ ∧
    load .usual ((reexport .usual "analysis.json")^[3] Sample.blankDirectory).system
      "analysis.json" = .ok a := by
  have hannotations : (load .usual Sample.blankDirectory.system "analysis.json").toOption.map
      Analysis.annotations = some [⟨"issue 1", [], 12, [], "a  b", .low, .bug⟩] := by
    decide +kernel
  obtain ⟨hfindings, hloads⟩ := load_reexports
  have hfinding : Finding.ofJson (.object [("external_id", " issue 1"), ("path", "\u2003"),
        ("line", " +1_2.0 "), ("message", "a  b\n"), ("severity", "LOW"), ("type", "BUG")]) =
      .ok ⟨"issue 1", [], 12, [], "a  b", .low, .bug⟩ := by
    decide +kernel
  cases hload : load .usual Sample.blankDirectory.system "analysis.json" with
  | error e =>
    rw [hload] at hannotations
    cases hannotations
  | ok a =>
    rw [hload] at hannotations
    exact ⟨a, rfl, Option.some.inj hannotations, hfindings _ _ hfinding,
      (hloads _ _ _ a hload 3).1⟩

end Analysis

end PullGate
