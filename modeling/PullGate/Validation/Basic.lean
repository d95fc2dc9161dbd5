import PullGate.Calendar.Reader
import PullGate.Json.Basic

/-!
Problems of a checked value, and checks that report all problems and not only the first.
-/

namespace PullGate

inductive Place where
  | key (name : Text)
  | index (i : Nat)
  deriving DecidableEq

inductive Cause where
  | missing
  | notString
  | notUnicode
  | emptyString
  | notInteger
  | integerText
  | integerSize
  | fraction
  | notFinite
  | notNumber
  | numberText
  | notBoolean
  | booleanText
  | notPositive
  | negative
  | notListed (choices : List Text)
  | notObject (subject : Text)
  | notList
  | notDateTime
  | dateTime (fault : DateTime.Fault)
  | rule (message : Text)
  deriving DecidableEq

/-- A cause and where in the checked value it lies. -/
structure Problem where
  path : List Place
  cause : Cause
  deriving DecidableEq

/-- The problems of a value that should have been a `subject`. -/
structure Rejection where
  subject : Text
  problems : List Problem
  deriving DecidableEq

/-- A checked value, or every problem found. -/
abbrev Checked (α : Type) := Except (List Problem) α

namespace Checked

protected def pure {α : Type} (value : α) : Checked α := .ok value

def fail {α : Type} (cause : Cause) : Checked α := .error [⟨[], cause⟩]

def problems {α : Type} : Checked α → List Problem
  | .ok _ => []
  | .error ps => ps

/-- Applies a checked function to a checked value; the problems of both are reported. -/
def ap {α β : Type} (f : Checked (α → β)) (x : Checked α) : Checked β :=
  match f, x with
  | .ok f, .ok x => .ok (f x)
  | .ok _, .error qs => .error qs
  | .error ps, x => .error (ps ++ x.problems)

@[simp] theorem problems_ap {α β : Type} (f : Checked (α → β)) (x : Checked α) :
    (ap f x).problems = f.problems ++ x.problems := by
  cases f <;> cases x <;> simp [ap, problems]

theorem ap_eq_ok {α β : Type} {f : Checked (α → β)} {x : Checked α} {b : β} :
    ap f x = .ok b ↔ ∃ g a, f = .ok g ∧ x = .ok a ∧ g a = b := by
  cases f <;> cases x <;> simp [ap]

/-- The problems of a part, seen from the whole. -/
def within {α : Type} (place : Place) : Checked α → Checked α
  | .ok a => .ok a
  | .error ps => .error (ps.map fun p => ⟨place :: p.path, p.cause⟩)

/-- Checks the items of a list, the first of them at index `i`. -/
def eachFrom {α : Type} (check : Json → Checked α) (i : Nat) : List Json → Checked (List α)
  | [] => .ok []
  | item :: items =>
    ap (((check item).within (.index i)).map List.cons) (eachFrom check (i + 1) items)

def each {α : Type} (check : Json → Checked α) (items : List Json) : Checked (List α) :=
  eachFrom check 0 items

end Checked

namespace Cause

/-- The list of choices as a sentence has it. -/
def alternatives : List Text → Text
  | [] => []
  | [a] => a
  | [a, b] => a ++ " or " ++ b
  | a :: rest => a ++ ", " ++ alternatives rest

def kind : Cause → Text
  | .missing => "missing"
  | .notString => "string_type"
  | .notUnicode => "string_unicode"
  | .emptyString => "string_too_short"
  | .notInteger => "int_type"
  | .integerText => "int_parsing"
  | .integerSize => "int_parsing_size"
  | .fraction => "int_from_float"
  | .notFinite => "finite_number"
  | .notNumber => "float_type"
  | .numberText => "float_parsing"
  | .notBoolean => "bool_type"
  | .booleanText => "bool_parsing"
  | .notPositive => "greater_than"
  | .negative => "greater_than_equal"
  | .notListed _ => "enum"
  | .notObject _ => "model_type"
  | .notList => "list_type"
  | .notDateTime => "datetime_type"
  | .dateTime (.date _) => "datetime_from_date_parsing"
  | .dateTime _ => "datetime_parsing"
  | .rule _ => "value_error"

def message : Cause → Text
  | .missing => "Field required"
  | .notString => "Input should be a valid string"
  | .notUnicode => "Input should be a valid string, unable to parse raw data as a unicode string"
  | .emptyString => "String should have at least 1 character"
  | .notInteger => "Input should be a valid integer"
  | .integerText => "Input should be a valid integer, unable to parse string as an integer"
  | .integerSize => "Unable to parse input string as an integer, exceeded maximum size"
  | .fraction => "Input should be a valid integer, got a number with a fractional part"
  | .notFinite => "Input should be a finite number"
  | .notNumber => "Input should be a valid number"
  | .numberText => "Input should be a valid number, unable to parse string as a number"
  | .notBoolean => "Input should be a valid boolean"
  | .booleanText => "Input should be a valid boolean, unable to interpret input"
  | .notPositive => "Input should be greater than 0"
  | .negative => "Input should be greater than or equal to 0"
  | .notListed choices =>
    "Input should be " ++ alternatives (choices.map fun c => "'" ++ c ++ "'")
  | .notObject subject => "Input should be a valid dictionary or instance of " ++ subject
  | .notList => "Input should be a valid list"
  | .notDateTime => "Input should be a valid datetime"
  | .dateTime fault =>
    match fault with
    | .date fault => "Input should be a valid datetime or date, " ++ fault.message
    | fault => "Input should be a valid datetime, " ++ fault.message
  | .rule message => "Value error, " ++ message

end Cause

namespace Place

def write : Place → Text
  | .key name => name
  | .index i => Text.ofNat i

end Place

/-- The lines that report one problem: where it lies, unless it concerns the whole, and what it
is. -/
def Problem.lines (p : Problem) : List Text :=
  let what : Text := "  " ++ p.cause.message ++ " [type=" ++ p.cause.kind ++ "]"
  if p.path.isEmpty then [what] else [Text.join "." (p.path.map Place.write), what]

/-- A rejection as a report of several lines. -/
def Rejection.message (r : Rejection) : Text :=
  let count := r.problems.length
  let noun : Text := if count = 1 then " validation error for " else " validation errors for "
  Text.join "\n" ((Text.ofNat count ++ noun ++ r.subject) :: r.problems.flatMap Problem.lines)

end PullGate
