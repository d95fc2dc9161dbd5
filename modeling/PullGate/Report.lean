import PullGate.Analysis.Basic

/-!
The quality report: its rows in the order of display, and its description.
-/

namespace PullGate

inductive DataValue where
  | percentage (value : Double)
  | text (value : Text)
  | link (label href : Text)
  deriving DecidableEq

namespace DataValue

def kind : DataValue → Text
  | .percentage _ => "PERCENTAGE"
  | .text _ => "TEXT"
  | .link .. => "LINK"

def payload : DataValue → Json
  | .percentage value => .double value
  | .text value => .string value
  | .link label href => .object [("text", .string label), ("href", .string href)]

end DataValue

structure Row where
  title : Text
  value : DataValue
  deriving DecidableEq

namespace Report

/-- A count with its noun, which is singular for exactly one. -/
def counted (n : Int) (singular plural : Text) : Text :=
  Text.ofInt n ++ " " ++ if n = 1 then singular else plural

def reliability (bugs : Int) : Row := ⟨"Reliability", .text (counted bugs "Bug" "Bugs")⟩

def security (vulnerabilities hotspots : Int) : Row :=
  ⟨"Security", .text (counted vulnerabilities "Vulnerability" "Vulnerabilities"
    ++ " (and " ++ counted hotspots "Hotspot" "Hotspots" ++ ")")⟩

def maintainability (codeSmells : Int) : Row :=
  ⟨"Maintainability", .text (counted codeSmells "Code Smell" "Code Smells")⟩

/-- The rows of an analysis, the last of them with the given link. -/
def rows (a : Analysis) (details : DataValue) : List Row :=
  [reliability a.counts.bugs, ⟨"Code coverage", .percentage a.coverage⟩,
    security a.counts.vulnerabilities a.counts.hotspots, ⟨"Duplication", .percentage a.duplication⟩,
    maintainability a.counts.codeSmells, ⟨"Analysis details", details⟩]

def verdict (gate : Gate) : Text :=
  if gate.passed then "Quality Gate passed" else "Quality Gate failed"

/-- The verdict on the first line, and one line for each failed condition after it. -/
def describe (gate : Gate) (failedConditions : List Text) : Text :=
  verdict gate ++ "\n" ++ Text.join "\n" (failedConditions.map fun c => "- " ++ c)

def description (a : Analysis) : Text := describe a.gate a.failedConditions

end Report

end PullGate
