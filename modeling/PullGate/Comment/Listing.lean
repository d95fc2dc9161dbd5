import PullGate.Json.Display

/-!
The answer to a search for comments: an object whose `values` list the comments found, each an
object with an `id`.
-/

namespace PullGate.Comment

inductive ShapeFault where
  | answer (kind : Text)
  | values (kind : Text)
  | valuesObject
  | item (kind : Text)
  | itemArray
  | itemString
  | noId
  deriving DecidableEq

def ShapeFault.message : ShapeFault → Text
  | .answer kind => "'" ++ kind ++ "' object has no attribute 'get'"
  | .values kind => "'" ++ kind ++ "' object is not subscriptable"
  | .valuesObject => "0"
  | .item kind => "'" ++ kind ++ "' object is not subscriptable"
  | .itemArray => "list indices must be integers or slices, not str"
  | .itemString => "string indices must be integers, not 'str'"
  | .noId => "'id'"

/-- The identifier of a comment, as it stands in addresses. -/
def idOf : Json → Except ShapeFault Text
  | .object members =>
    match Json.lookup "id" members with
    | some id => .ok id.display
    | none => .error .noId
  | .array _ => .error .itemArray
  | .string _ => .error .itemString
  | j => .error (.item j.kind)

def firstOf (values : Json) : Except ShapeFault (Option Text) :=
  if !values.isTruthy then .ok none
  else match values with
    | .array [] => .ok none
    | .array (comment :: _) => (idOf comment).map some
    | .string _ => .error .itemString
    | .object _ => .error .valuesObject
    | j => .error (.values j.kind)

/-- The identifier of the first comment that an answer lists, if it lists any. -/
def firstId : Json → Except ShapeFault (Option Text)
  | .object members => firstOf ((Json.lookup "values" members).getD (.array []))
  | j => .error (.answer j.kind)

end PullGate.Comment
