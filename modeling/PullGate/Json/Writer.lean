import PullGate.Json.Basic
import PullGate.Number.Shortest

/-!
Writing JSON in ASCII: a code point past `~` is escaped, as two halves if it lies past U+FFFF.
`write` puts all on one line, `writeIndented` one member or item on each line.
-/

namespace PullGate.Json

def unitEscape (n : Nat) : Text := "\\u" ++ Text.padHex 4 n

/-- A code point inside a string. -/
def escape (c : CodePoint) : Text :=
  let n := c.toNat
  if c = '"' then "\\\""
  else if c = '\\' then "\\\\"
  else if c = '\n' then "\\n"
  else if c = '\r' then "\\r"
  else if c = '\t' then "\\t"
  else if c = '\x08' then "\\b"
  else if c = '\x0c' then "\\f"
  else if 0x20 ≤ n && n ≤ 0x7E then [c]
  else if n < 0x10000 then unitEscape n
  else unitEscape (0xD800 + (n - 0x10000) / 0x400) ++ unitEscape (0xDC00 + (n - 0x10000) % 0x400)

def writeString (t : Text) : Text := .scalar '"' :: t.flatMap escape ++ ("\"" : Text)

def writeDouble : Double → Text
  | .nan => "NaN"
  | .infinite negative => if negative then "-Infinity" else "Infinity"
  | d => d.write

mutual

/-- A value on one line, with a blank after each comma and colon. -/
def write : Json → Text
  | .null => "null"
  | .bool value => if value then "true" else "false"
  | .int value => Text.ofInt value
  | .double value => writeDouble value
  | .string value => writeString value
  | .array items => .scalar '[' :: writeItems items
  | .object members => .scalar '\x7b' :: writeMembers members

def writeItems : List Json → Text
  | [] => "]"
  | [item] => write item ++ ("]" : Text)
  | item :: items => write item ++ .scalar ',' :: .scalar ' ' :: writeItems items

def writeMembers : List (Text × Json) → Text
  | [] => "\x7d"
  | [(key, value)] =>
    writeString key ++ .scalar ':' :: .scalar ' ' :: write value ++ ("\x7d" : Text)
  | (key, value) :: members =>
    writeString key ++ .scalar ':' :: .scalar ' ' :: write value
      ++ .scalar ',' :: .scalar ' ' :: writeMembers members

end

mutual

/-- A value over several lines; `margin` is the blank space in front of the line it begins on. -/
def writeAt (margin : Text) : Json → Text
  | .array [] => "[\x5d"
  | .array items => .scalar '[' :: writeItemsAt (margin ++ ("  " : Text)) items
      ++ .scalar '\n' :: margin ++ ("]" : Text)
  | .object [] => "\x7b\x7d"
  | .object members => .scalar '\x7b' :: writeMembersAt (margin ++ ("  " : Text)) members
      ++ .scalar '\n' :: margin ++ ("\x7d" : Text)
  | j => write j

def writeItemsAt (margin : Text) : List Json → Text
  | [] => []
  | [item] => .scalar '\n' :: margin ++ writeAt margin item
  | item :: items =>
    .scalar '\n' :: margin ++ writeAt margin item ++ .scalar ',' :: writeItemsAt margin items

def writeMembersAt (margin : Text) : List (Text × Json) → Text
  | [] => []
  | [(key, value)] =>
    .scalar '\n' :: margin ++ writeString key ++ .scalar ':' :: .scalar ' ' :: writeAt margin value
  | (key, value) :: members =>
    .scalar '\n' :: margin ++ writeString key ++ .scalar ':' :: .scalar ' ' :: writeAt margin value
      ++ .scalar ',' :: writeMembersAt margin members

end

/-- A value over several lines, with two blanks for each level. -/
def writeIndented (j : Json) : Text := writeAt [] j

end PullGate.Json
