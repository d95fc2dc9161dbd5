import PullGate.Client.Payload

/-!
Drafts: annotations and reports whose parts are any JSON values.  A draft whose parts have the right
types is a payload.
-/

namespace PullGate

structure AnnotationDraft where
  externalId : Json
  path : Json
  line : Json
  link : Json
  message : Json
  severity : Severity
  kind : FindingKind

namespace AnnotationDraft

def subject : Text := "CloudAnnotation"

def checked (d : AnnotationDraft) : Checked AnnotationPayload :=
  Checked.pure AnnotationPayload.mk
    |>.ap ((Check.text d.externalId).within (.key "external_id"))
    |>.ap ((Check.integer d.line).within (.key "line"))
    |>.ap ((Check.text d.link).within (.key "link"))
    |>.ap ((Check.text d.message).within (.key "summary"))
    |>.ap ((Check.text d.path).within (.key "path"))
    |>.ap (Checked.pure d.severity.word)
    |>.ap (Checked.pure d.kind.word)

/-- The payload of a draft. -/
def toPayload (d : AnnotationDraft) : Except Rejection AnnotationPayload :=
  d.checked.mapError fun problems => ⟨subject, problems⟩

end AnnotationDraft

/-- A row that was not checked, with the sort of its value. -/
structure RowDraft where
  title : Json
  kind : Text
  value : Json

namespace RowDraft

def subject : Text := "CloudDataRow"

def checked (d : RowDraft) : Checked RowPayload :=
  Checked.pure RowPayload.mk
    |>.ap ((Check.text d.title).within (.key "title"))
    |>.ap (Checked.pure d.kind)
    |>.ap (Checked.pure d.value)

def toPayload (d : RowDraft) : Except Rejection RowPayload :=
  d.checked.mapError fun problems => ⟨subject, problems⟩

end RowDraft

/-- A report that was not checked. -/
structure ReportDraft where
  details : Json
  createdOn : DateTime
  link : Json
  logoUrl : Json
  gate : Gate
  rows : List RowDraft

namespace ReportDraft

def subject : Text := "CloudReport"

def checked (d : ReportDraft) (rows : List RowPayload) : Checked ReportPayload :=
  let make (details link logoUrl : Text) : ReportPayload :=
    ⟨details, d.createdOn, link, logoUrl, d.gate, rows⟩
  Checked.pure make
    |>.ap ((Check.text d.details).within (.key "details"))
    |>.ap ((Check.text d.link).within (.key "link"))
    |>.ap ((Check.text d.logoUrl).within (.key "logo_url"))

/-- The payload of a draft. Its rows are checked first, and the first bad one is the error. -/
def toPayload (d : ReportDraft) : Except Rejection ReportPayload := do
  let rows ← d.rows.mapM RowDraft.toPayload
  (d.checked rows).mapError fun problems => ⟨subject, problems⟩

end ReportDraft

end PullGate
