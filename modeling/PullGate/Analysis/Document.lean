import PullGate.Analysis.Basic

/-!
The document in which an analysis is exported: its members, the checks on them, and the analysis
that an accepted document stands for.  Members with other names play no part.
-/

namespace PullGate

namespace IssueCounts

def subject : Text := "IssueCounts"

def zero : IssueCounts := ⟨0, 0, 0, 0⟩

/-- A count under the first of two names that is there. -/
def count (members : List (Text × Json)) (name other : Text) : Checked Nat :=
  match Json.lookup name members with
  | some j => (Check.natural j).within (.key name)
  | none => Check.optional members other Check.natural 0

def ofJson : Json → Checked IssueCounts
  | .object members =>
    Checked.pure IssueCounts.mk
      |>.ap (count members "BUG" "bugs")
      |>.ap (count members "VULNERABILITY" "vulnerabilities")
      |>.ap (count members "SECURITY_HOTSPOT" "hotspots")
      |>.ap (count members "CODE_SMELL" "code_smells")
  | _ => .fail (.notObject subject)

end IssueCounts

structure Document where
  projectKey : Text
  commit : Text
  pullRequest : Nat
  gate : Gate
  dashboardUrl : Text
  imageUrl : Text
  date : DateTime
  counts : IssueCounts
  coverage : Option Double
  duplication : Option Double
  failedConditions : List Text
  issueCount : Option Nat
  annotations : List Finding

namespace Document

def subject : Text := "AnalysisFile"

def ofMembers (members : List (Text × Json)) : Checked Document :=
  Checked.pure Document.mk
    |>.ap (Check.required members "project_key" Check.text)
    |>.ap (Check.required members "commit_sha" Check.nonemptyText)
    |>.ap (Check.required members "pull_request_id" Check.positive)
    |>.ap (Check.required members "quality_gate_status" (Check.choice Gate.words))
    |>.ap (Check.required members "dashboard_url" Check.text)
    |>.ap (Check.optional members "base_image_url" Check.text [])
    |>.ap (Check.required members "analysis_date" Check.dateTime)
    |>.ap (Check.optional members "issue_counts" IssueCounts.ofJson .zero)
    |>.ap (Check.optional members "coverage" (Check.nullable Check.number) none)
    |>.ap (Check.optional members "duplication" (Check.nullable Check.number) none)
    |>.ap (Check.optional members "failed_conditions" (Check.list Check.text) [])
    |>.ap (Check.optional members "issue_count" (Check.nullable Check.natural) none)
    |>.ap (Check.optional members "annotations" (Check.list Finding.ofJson) [])

def ofJson : Json → Checked Document
  | .object members => ofMembers members
  | _ => .fail (.notObject subject)

/-- A measure that is absent or zero counts as plain zero. -/
def measure : Option Double → Double
  | some d => if d.isZero then .zero else d
  | none => .zero

/-- The analysis that a document stands for. Without an issue count the annotations are counted. -/
def toAnalysis (d : Document) : Analysis where
  projectKey := d.projectKey
  commit := d.commit
  pullRequest := d.pullRequest
  gate := d.gate
  dashboardUrl := d.dashboardUrl
  imageUrl := Text.trimRight (· = '/') d.imageUrl
  date := d.date
  counts := d.counts
  coverage := measure d.coverage
  duplication := measure d.duplication
  failedConditions := d.failedConditions
  issueCount := d.issueCount.getD d.annotations.length
  annotations := d.annotations

end Document

namespace Analysis

def ofJson (j : Json) : Except Rejection Analysis :=
  match Document.ofJson j with
  | .ok d => .ok d.toAnalysis
  | .error problems => .error ⟨Document.subject, problems⟩

end Analysis

end PullGate
