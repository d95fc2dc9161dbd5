import PullGate.Number.Double
import PullGate.Text.Basic

/-!
JSON values. Members keep the order in which their keys first came, and integers are kept apart from
the numbers that have a fraction or an exponent.
-/

namespace PullGate

inductive Json where
  | null
  | bool (value : Bool)
  | int (value : Int)
  | double (value : Double)
  | string (value : Text)
  | array (items : List Json)
  | object (members : List (Text × Json))

namespace Json

instance : Inhabited Json := ⟨.null⟩
instance : Coe Text Json := ⟨.string⟩

def lookup (key : Text) : List (Text × Json) → Option Json
  | [] => none
  | (k, value) :: members => if k = key then some value else lookup key members

/-- Sets a member: in its place if the key is there, at the end otherwise. -/
def insert (key : Text) (value : Json) : List (Text × Json) → List (Text × Json)
  | [] => [(key, value)]
  | (k, old) :: members =>
    if k = key then (k, value) :: members else (k, old) :: insert key value members

@[simp] theorem lookup_insert_same (key : Text) (value : Json) (members : List (Text × Json)) :
    lookup key (insert key value members) = some value := by
  induction members with
  | nil => simp [insert, lookup]
  | cons m members ih =>
    simp only [insert]
    split
    · next h => simp [lookup, h]
    · next h => simp [lookup, h, ih]

@[simp] theorem lookup_insert_of_ne {key other : Text} (h : other ≠ key) (value : Json)
    (members : List (Text × Json)) :
    lookup other (insert key value members) = lookup other members := by
  induction members with
  | nil => simp [insert, lookup, h.symm]
  | cons m members ih =>
    simp only [insert]
    split
    · next hk => simp [lookup, hk, h.symm]
    · next hk => simp only [lookup, ih]

/-- The value of a member; a value that is no object has none. -/
def get? (key : Text) : Json → Option Json
  | .object members => lookup key members
  | _ => none

/-- A value counts as false if it is `null`, `false`, zero, or empty. -/
def isTruthy : Json → Bool
  | .null => false
  | .bool value => value
  | .int value => value ≠ 0
  | .double value => !value.isZero
  | .string value => !value.isEmpty
  | .array items => !items.isEmpty
  | .object members => !members.isEmpty

end Json

end PullGate
