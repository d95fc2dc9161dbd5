import PullGate.Finding

/-!
The outcome of one analysis of a pull request.
-/

namespace PullGate

inductive Gate where
  | ok
  | error
  deriving DecidableEq

namespace Gate

def words : List (Text × Gate) := [("OK", .ok), ("ERROR", .error)]

def word : Gate → Text
  | .ok => "OK"
  | .error => "ERROR"

def passed : Gate → Bool
  | .ok => true
  | .error => false

end Gate

structure IssueCounts where
  bugs : Nat
  vulnerabilities : Nat
  hotspots : Nat
  codeSmells : Nat
  deriving DecidableEq

/-- One analysis. There can be more issues than annotations, as only a finding in a file becomes
one. -/
structure Analysis where
  projectKey : Text
  commit : Text
  pullRequest : Nat
  gate : Gate
  dashboardUrl : Text
  imageUrl : Text
  date : DateTime
  counts : IssueCounts
  coverage : Double
  duplication : Double
  failedConditions : List Text
  issueCount : Nat
  annotations : List Finding
  deriving DecidableEq

namespace Analysis

def passed (a : Analysis) : Bool := a.gate.passed

def hasIssues (a : Analysis) : Bool := 0 < a.issueCount || !a.annotations.isEmpty

def logoUrl (a : Analysis) : Text := a.imageUrl ++ "/common/icon.png"

end Analysis

end PullGate
