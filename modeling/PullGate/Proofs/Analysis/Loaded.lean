import PullGate.Proofs.Analysis.Members
import PullGate.Proofs.Json.Ascii
import PullGate.Proofs.Text.Utf8
import PullGate.Proofs.Validation.Kept

/-! The parts of a loaded analysis.  Whatever file it was loaded from, each of its texts and numbers
can be written as JSON and read again. -/

namespace PullGate

/-- A finding whose parts can be written and read again. -/
structure Finding.Writable (f : Finding) : Prop where
  externalId : f.externalId.Joined
  path : f.path.Joined
  line : f.line < 10 ^ Json.digitLimit
  link : f.link.Joined
  message : f.message.Joined

/-- An analysis whose parts that requests carry can be written and read again. -/
structure Analysis.Writable (a : Analysis) : Prop where
  dashboardUrl : a.dashboardUrl.Joined
  imageUrl : a.imageUrl.Joined
  coverage : a.coverage.IsCanonical
  duplication : a.duplication.IsCanonical
  failedConditions : ∀ condition ∈ a.failedConditions, condition.Joined
  annotations : ∀ f ∈ a.annotations, f.Writable

theorem Severity.isAscii_word (s : Severity) : s.word.IsAscii := by
  cases s <;> rfl

theorem FindingKind.isAscii_word (k : FindingKind) : k.word.IsAscii := by
  cases k <;> rfl

open Check

theorem Finding.keeps_ofJson : Keeps Finding.ofJson Finding.Writable := by
  intro j f hj h
  obtain ⟨members, rfl, hf⟩ := ofJson_eq_ok_iff.mp h
  cases hj with
  | object hmembers =>
    exact {
      externalId := keeps_trimmed.required hmembers hf.externalId
      path := keeps_trimmed.required hmembers hf.path
      line := keeps_natural.optional (Nat.pow_pos (by decide)) hmembers hf.line
      link := keeps_trimmed.optional Text.joined_nil hmembers hf.link
      message := keeps_trimmed.required hmembers hf.message }

/-- The parts of a document, before the analysis is made of them. -/
structure Document.Writable (d : Document) : Prop where
  dashboardUrl : d.dashboardUrl.Joined
  imageUrl : d.imageUrl.Joined
  coverage : ∀ x ∈ d.coverage, x.IsCanonical
  duplication : ∀ x ∈ d.duplication, x.IsCanonical
  failedConditions : ∀ condition ∈ d.failedConditions, condition.Joined
  annotations : ∀ f ∈ d.annotations, f.Writable

theorem Document.keeps_ofJson : Keeps Document.ofJson Document.Writable := by
  intro j d hj h
  obtain ⟨members, rfl, hd⟩ := ofJson_eq_ok_iff.mp h
  cases hj with
  | object hmembers =>
    have hmeasure := keeps_number.nullable
    exact {
      dashboardUrl := keeps_text.required hmembers hd.dashboardUrl
      imageUrl := keeps_text.optional Text.joined_nil hmembers hd.imageUrl
      coverage := hmeasure.optional (fun _ h => by cases h) hmembers hd.coverage
      duplication := hmeasure.optional (fun _ h => by cases h) hmembers hd.duplication
      failedConditions :=
        keeps_text.list.optional (List.forall_mem_nil _) hmembers hd.failedConditions
      annotations :=
        Finding.keeps_ofJson.list.optional (List.forall_mem_nil _) hmembers hd.annotations }

theorem Document.isCanonical_measure {x : Option Double} (h : ∀ d ∈ x, d.IsCanonical) :
    (measure x).IsCanonical := by
  have hzero : Double.zero.IsCanonical := ⟨by decide, .inl rfl, by decide⟩
  unfold measure
  split
  · next d =>
    split
    · exact hzero
    · exact h d rfl
  · exact hzero

theorem Document.Writable.toAnalysis {d : Document} (h : d.Writable) : d.toAnalysis.Writable where
  dashboardUrl := h.dashboardUrl
  imageUrl := h.imageUrl.trimRight _
  coverage := isCanonical_measure h.coverage
  duplication := isCanonical_measure h.duplication
  failedConditions := h.failedConditions
  annotations := h.annotations

theorem FileSystem.isUnicode_of_document? {files : FileSystem} {path text : Text}
    (h : files.document? path = some text) : Text.isUnicode text = true := by
  unfold document? at h
  split at h
  · split at h
    · next hdecode =>
      obtain rfl := Option.some.inj h
      exact Text.isUnicode_unifyLineEnds (Utf8.isUnicode_decode hdecode)
    · cases h
  · cases h

/-- Whatever is loaded can be written and read again. -/
theorem Analysis.writable_of_load {room : Json.Room} {files : FileSystem} {path : Text}
    {a : Analysis} (h : load room files path = .ok a) : a.Writable := by
  obtain ⟨text, members, document, htext, hread, hmembers, rfl⟩ := exists_document_of_load h
  have hj := Json.read_sound (FileSystem.isUnicode_of_document? htext) hread
  exact (Document.keeps_ofJson hj (Document.ofJson_eq_ok_iff.mpr ⟨_, rfl, hmembers⟩)).toAnalysis

end PullGate
