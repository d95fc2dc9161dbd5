import PullGate.Client.Basic
import PullGate.Proofs.Analysis.Loaded
import PullGate.Proofs.Json.Ascii
import PullGate.Proofs.Json.RoundTrip
import PullGate.Proofs.Text.Cut

/-! The bodies of requests.  What is sent of an analysis that was loaded is read back as it is. -/

namespace PullGate

namespace Text

variable {s t : Text}

/-- Joined pieces are joined with a separator of characters between them. -/
theorem joined_join {c : CodePoint} {sep : Text} (hsep : isUnicode (c :: sep) = true)
    {pieces : List Text} (h : ∀ piece ∈ pieces, Joined piece) :
    Joined (join (c :: sep) pieces) := by
  refine join_induction joined_nil (fun a b ha hb => ?_) h
  rw [List.append_assoc]
  refine ha.append (hb.prepend hsep) fun d hd => ?_
  obtain rfl := Option.some.inj hd
  exact (isUnicode_cons.mp hsep).1

end Text

/-! ### Texts of a report and a comment -/

open Text (isAscii_append isAscii_cons)

theorem Date.isAscii_write (d : Date) : d.write.IsAscii := by
  have hpad := fun width n => Text.isAscii_of_digits (Text.all_isDigit_padNat width n)
  unfold Date.write
  simp only [List.append_assoc, List.cons_append, isAscii_append, isAscii_cons]
  exact ⟨hpad 4 d.year, rfl, hpad 2 d.month, rfl, hpad 2 d.day⟩

theorem TimeOfDay.isAscii_write (t : TimeOfDay) : t.write.IsAscii := by
  have hpad := fun width n => Text.isAscii_of_digits (Text.all_isDigit_padNat width n)
  have hfraction : Text.IsAscii (if t.microsecond = 0 then []
      else .scalar '.' :: Text.padNat 6 t.microsecond) := by
    split
    · rfl
    · exact isAscii_cons.mpr ⟨rfl, hpad 6 t.microsecond⟩
  unfold TimeOfDay.write
  simp only [List.append_assoc, List.cons_append, isAscii_append, isAscii_cons]
  exact ⟨hpad 2 t.hour, rfl, hpad 2 t.minute, rfl, hpad 2 t.second, hfraction⟩

theorem DateTime.isAscii_writeWire (d : DateTime) : d.writeWire.IsAscii := by
  have hpad := fun width n => Text.isAscii_of_digits (Text.all_isDigit_padNat width n)
  have hoffset : ∀ offset, (writeOffset offset).IsAscii := by
    intro offset
    unfold writeOffset
    refine isAscii_cons.mpr ⟨?_, isAscii_append.mpr ⟨hpad 2 _, isAscii_cons.mpr ⟨rfl, hpad 2 _⟩⟩⟩
    split <;> rfl
  unfold writeWire writeLocal
  refine isAscii_append.mpr ⟨isAscii_append.mpr ⟨d.date.isAscii_write, ?_⟩, ?_⟩
  · exact isAscii_cons.mpr ⟨rfl, d.time.isAscii_write⟩
  · split
    · rfl
    · split
      · rfl
      · exact hoffset _

theorem Report.isAscii_counted (n : Int) {singular plural : Text} (hs : singular.IsAscii)
    (hp : plural.IsAscii) : (counted n singular plural).IsAscii := by
  refine isAscii_append.mpr ⟨isAscii_append.mpr ⟨(Text.isGraphic_ofInt n).isAscii, rfl⟩, ?_⟩
  split
  · exact hs
  · exact hp

namespace Analysis.Writable

variable {a : Analysis}

theorem logoUrl (h : a.Writable) : a.logoUrl.Joined :=
  h.imageUrl.append_isUnicode rfl

theorem description (h : a.Writable) : (Report.description a).Joined := by
  have hverdict : Text.isUnicode (Report.verdict a.gate) = true := by
    cases a.gate <;> rfl
  have hlines : Text.Joined (Text.join "\n" (a.failedConditions.map fun c => "- " ++ c)) := by
    refine Text.joined_join rfl fun piece hpiece => ?_
    obtain ⟨condition, hcondition, rfl⟩ := List.mem_map.mp hpiece
    exact (h.failedConditions condition hcondition).prepend rfl
  unfold Report.description Report.describe
  rw [List.append_assoc]
  exact (hlines.prepend rfl).prepend hverdict

theorem comment (h : a.Writable) : (Comment.text a).Joined := by
  have hdegree : Text.isUnicode (Comment.degree a) = true := by
    unfold Comment.degree
    split
    · rfl
    · split <;> rfl
  have hsecond : Text.Joined (if a.hasIssues
      then "Please refer to [dashboard](" ++ a.dashboardUrl ++ ") for details."
      else "Take a chocolate :)") := by
    split
    · exact (h.dashboardUrl.prepend rfl).append_isUnicode rfl
    · exact Text.joined_of_isUnicode rfl
  unfold Comment.text
  rw [List.append_assoc, List.append_assoc, List.append_assoc]
  exact (((hsecond.prepend rfl).prepend hdegree).prepend rfl).prepend rfl

end Analysis.Writable

/-! ### Bodies -/

open Json (Faithful)

theorem Comment.faithful_body {raw : Text} (h : raw.Joined) (depth : Nat) :
    Faithful (depth + 2) (.object [("content", .object [("raw", .string raw)])]) := by
  refine .ofKeys ["content"] (by decide) rfl rfl ?_
  refine List.forall_mem_singleton.mpr ?_
  refine .ofKeys ["raw"] (by decide) rfl rfl ?_
  exact List.forall_mem_singleton.mpr (.string h)

theorem Finding.Writable.faithful {f : Finding} (h : f.Writable) (depth : Nat) :
    Faithful (depth + 1) (AnnotationPayload.ofFinding f).toJson := by
  refine .ofKeys ["external_id", "line", "link", "summary", "path", "severity", "annotation_type"]
    (by decide) rfl rfl ?_
  simp only [List.forall_mem_cons]
  refine ⟨.string h.externalId, .int h.line, .string h.link, .string h.message, .string h.path,
    .string f.severity.isAscii_word.joined, .string f.kind.isAscii_word.joined, ?_⟩
  exact List.forall_mem_nil _

namespace RowPayload

theorem faithful_toJson {depth : Nat} {r : Row} (htitle : r.title.IsAscii)
    (hvalue : Faithful depth (standardize r.value.payload)) :
    Faithful (depth + 1) (ofRow r).toJson := by
  have hkind : r.value.kind.IsAscii := by
    cases r.value <;> rfl
  refine .ofKeys ["title", "type", "value"] (by decide) rfl rfl ?_
  simp only [List.forall_mem_cons]
  exact ⟨.string htitle.joined, .string hkind.joined, hvalue, List.forall_mem_nil _⟩

theorem faithful_percentage {depth : Nat} {d : Double} (h : d.IsCanonical) :
    Faithful depth (standardize (DataValue.percentage d).payload) := by
  rw [DataValue.payload, standardize]
  split
  · exact .double h
  · exact .null

theorem faithful_link {depth : Nat} {label href : Text} (hlabel : label.Joined)
    (hhref : href.Joined) :
    Faithful (depth + 1) (standardize (DataValue.link label href).payload) := by
  have hobject : standardize (DataValue.link label href).payload =
      .object [("text", .string label), ("href", .string href)] := rfl
  rw [hobject]
  refine .ofKeys ["text", "href"] (by decide) rfl rfl ?_
  simp only [List.forall_mem_cons]
  exact ⟨.string hlabel, .string hhref, List.forall_mem_nil _⟩

end RowPayload

namespace Analysis.Writable

variable {a : Analysis}

theorem faithful_rows (h : a.Writable) (depth : Nat) :
    ∀ r ∈ Report.rows a (ReportPayload.dashboardLink a.dashboardUrl),
      Faithful (depth + 2) (RowPayload.ofRow r).toJson := by
  unfold Report.rows
  simp only [List.forall_mem_cons]
  refine ⟨?_, ?_, ?_, ?_, ?_, ?_, List.forall_mem_nil _⟩
  · refine RowPayload.faithful_toJson rfl (.string (Text.IsAscii.joined ?_))
    exact Report.isAscii_counted _ rfl rfl
  · exact RowPayload.faithful_toJson rfl (RowPayload.faithful_percentage h.coverage)
  · refine RowPayload.faithful_toJson rfl (.string (Text.IsAscii.joined ?_))
    simp only [isAscii_append]
    exact ⟨⟨⟨Report.isAscii_counted _ rfl rfl, rfl⟩, Report.isAscii_counted _ rfl rfl⟩, rfl⟩
  · exact RowPayload.faithful_toJson rfl (RowPayload.faithful_percentage h.duplication)
  · refine RowPayload.faithful_toJson rfl (.string (Text.IsAscii.joined ?_))
    exact Report.isAscii_counted _ rfl rfl
  · exact RowPayload.faithful_toJson rfl
      (RowPayload.faithful_link (Text.joined_of_isUnicode rfl) h.dashboardUrl)

theorem faithful_report (h : a.Writable) (depth : Nat) :
    Faithful (depth + 4) (ReportPayload.ofAnalysis a).toJson := by
  have hrows : Faithful (depth + 3)
      (.array ((ReportPayload.ofAnalysis a).rows.map RowPayload.toJson)) := by
    refine .array fun item hitem => ?_
    obtain ⟨payload, hpayload, rfl⟩ := List.mem_map.mp hitem
    obtain ⟨row, hrow, rfl⟩ := List.mem_map.mp hpayload
    exact h.faithful_rows depth row hrow
  have hresult : (ReportPayload.result a.gate).IsAscii := by
    cases a.gate <;> rfl
  refine .ofKeys ["title", "details", "reporter", "created_on", "link", "logo_url", "report_type",
    "result", "data"] (by decide) rfl rfl ?_
  simp only [List.forall_mem_cons]
  exact ⟨.string (Text.joined_of_isUnicode rfl), .string h.description,
    .string (Text.joined_of_isUnicode rfl), .string a.date.isAscii_writeWire.joined,
    .string h.dashboardUrl, .string h.logoUrl, .string (Text.joined_of_isUnicode rfl),
    .string hresult.joined, hrows, List.forall_mem_nil _⟩

theorem faithful_comment (h : a.Writable) (depth : Nat) :
    Faithful (depth + 2) (.object [("content", .object [("raw", .string (Comment.text a))])]) :=
  Comment.faithful_body h.comment depth

end Analysis.Writable

end PullGate
