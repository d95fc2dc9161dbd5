import PullGate.Validation.Scalar

/-!
Findings of an analysis, each at a line of a file, and the check that turns a JSON value into one.
-/

namespace PullGate

inductive Severity where
  | high
  | medium
  | low
  deriving DecidableEq

namespace Severity

def words : List (Text × Severity) := [("HIGH", .high), ("MEDIUM", .medium), ("LOW", .low)]

def word : Severity → Text
  | .high => "HIGH"
  | .medium => "MEDIUM"
  | .low => "LOW"

/-- The higher rank goes first. -/
def rank : Severity → Nat
  | .high => 3
  | .medium => 2
  | .low => 1

end Severity

inductive FindingKind where
  | bug
  | vulnerability
  | codeSmell
  deriving DecidableEq

namespace FindingKind

def words : List (Text × FindingKind) :=
  [("BUG", .bug), ("VULNERABILITY", .vulnerability), ("CODE_SMELL", .codeSmell)]

def word : FindingKind → Text
  | .bug => "BUG"
  | .vulnerability => "VULNERABILITY"
  | .codeSmell => "CODE_SMELL"

end FindingKind

structure Finding where
  externalId : Text
  path : Text
  line : Nat
  link : Text
  message : Text
  severity : Severity
  kind : FindingKind
  deriving DecidableEq

namespace Finding

def subject : Text := "AnnotationEntry"

def ofMembers (members : List (Text × Json)) : Checked Finding :=
  Checked.pure Finding.mk
    |>.ap (Check.required members "external_id" Check.trimmed)
    |>.ap (Check.required members "path" Check.trimmed)
    |>.ap (Check.optional members "line" Check.natural 0)
    |>.ap (Check.optional members "link" Check.trimmed [])
    |>.ap (Check.required members "message" Check.trimmed)
    |>.ap (Check.required members "severity" (Check.choice Severity.words))
    |>.ap (Check.required members "type" (Check.choice FindingKind.words))

def ofJson : Json → Checked Finding
  | .object members => ofMembers members
  | _ => .fail (.notObject subject)

/-- The object whose members a finding is read from. -/
def toJson (a : Finding) : Json :=
  .object [("external_id", .string a.externalId), ("path", .string a.path), ("line", .int a.line),
    ("link", .string a.link), ("message", .string a.message), ("severity", .string a.severity.word),
    ("type", .string a.kind.word)]

end Finding

end PullGate
