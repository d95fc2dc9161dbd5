import PullGate.Calendar.Writer
import PullGate.Report

/-!
The bodies of the requests that publish a report and its annotations.
-/

namespace PullGate

structure AnnotationPayload where
  externalId : Text
  line : Int
  link : Text
  summary : Text
  path : Text
  severity : Text
  kind : Text
  deriving DecidableEq

namespace AnnotationPayload

def ofFinding (f : Finding) : AnnotationPayload where
  externalId := f.externalId
  line := f.line
  link := f.link
  summary := f.message
  path := f.path
  severity := f.severity.word
  kind := f.kind.word

def toJson (a : AnnotationPayload) : Json :=
  .object [("external_id", .string a.externalId), ("line", .int a.line), ("link", .string a.link),
    ("summary", .string a.summary), ("path", .string a.path), ("severity", .string a.severity),
    ("annotation_type", .string a.kind)]

end AnnotationPayload

structure RowPayload where
  title : Text
  kind : Text
  value : Json

namespace RowPayload

def ofRow (r : Row) : RowPayload := ⟨r.title, r.value.kind, r.value.payload⟩

mutual

/-- A value with `null` for each number that is not finite. -/
def standardize : Json → Json
  | .double d => if d.isFinite then .double d else .null
  | .array items => .array (standardizeItems items)
  | .object members => .object (standardizeMembers members)
  | j => j

def standardizeItems : List Json → List Json
  | [] => []
  | item :: items => standardize item :: standardizeItems items

def standardizeMembers : List (Text × Json) → List (Text × Json)
  | [] => []
  | (key, value) :: members => (key, standardize value) :: standardizeMembers members

end

def toJson (r : RowPayload) : Json :=
  .object [("title", .string r.title), ("type", .string r.kind), ("value", standardize r.value)]

end RowPayload

structure ReportPayload where
  details : Text
  createdOn : DateTime
  link : Text
  logoUrl : Text
  gate : Gate
  rows : List RowPayload

namespace ReportPayload

def title : Text := "SonarQube"

def reporter : Text := "SonarQube"

def kind : Text := "COVERAGE"

def result : Gate → Text
  | .ok => "PASSED"
  | .error => "FAILED"

def linkLabel : Text := "Go to SonarQube"

/-- The row value that leads to the dashboard. -/
def dashboardLink (url : Text) : DataValue := .link linkLabel url

def ofAnalysis (a : Analysis) : ReportPayload where
  details := Report.description a
  createdOn := a.date
  link := a.dashboardUrl
  logoUrl := a.logoUrl
  gate := a.gate
  rows := (Report.rows a (dashboardLink a.dashboardUrl)).map RowPayload.ofRow

def toJson (r : ReportPayload) : Json :=
  .object [("title", .string title), ("details", .string r.details), ("reporter", .string reporter),
    ("created_on", .string r.createdOn.writeWire), ("link", .string r.link),
    ("logo_url", .string r.logoUrl), ("report_type", .string kind),
    ("result", .string (result r.gate)), ("data", .array (r.rows.map RowPayload.toJson))]

end ReportPayload

end PullGate
