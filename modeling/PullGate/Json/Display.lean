import PullGate.Json.Basic
import PullGate.Number.Shortest
import PullGate.Text.Quoted

/-!
The display form of a JSON value, in which messages and addresses show it: `None`, `True` and
`False` for the three words, and quoted text inside arrays and objects. Messages also name the kind
of a value.
-/

namespace PullGate.Json

mutual

/-- A value inside another one: text in quotes. -/
def displayQuoted : Json → Text
  | .null => "None"
  | .bool value => if value then "True" else "False"
  | .int value => Text.ofInt value
  | .double value => value.write
  | .string value => value.quoted
  | .array items => .scalar '[' :: displayItems items
  | .object members => .scalar '\x7b' :: displayMembers members

def displayItems : List Json → Text
  | [] => "]"
  | [item] => displayQuoted item ++ ("]" : Text)
  | item :: items => displayQuoted item ++ .scalar ',' :: .scalar ' ' :: displayItems items

def displayMembers : List (Text × Json) → Text
  | [] => "\x7d"
  | [(key, value)] =>
    key.quoted ++ .scalar ':' :: .scalar ' ' :: displayQuoted value ++ ("\x7d" : Text)
  | (key, value) :: members =>
    key.quoted ++ .scalar ':' :: .scalar ' ' :: displayQuoted value
      ++ .scalar ',' :: .scalar ' ' :: displayMembers members

end

def kind : Json → Text
  | .null => "NoneType"
  | .bool _ => "bool"
  | .int _ => "int"
  | .double _ => "float"
  | .string _ => "str"
  | .array _ => "list"
  | .object _ => "dict"

/-- A value on its own: text as it is. -/
def display : Json → Text
  | .string value => value
  | value => displayQuoted value

end PullGate.Json
