import PullGate.Json.Basic
import PullGate.Settings.Dotenv

/-!
Where settings come from, and which of several values of a setting counts: an argument before the
environment, the environment before the `.env` file, and of equally named entries the last.  Case
does not matter in the names of variables and of `.env` entries.
-/

namespace PullGate

/-- Lower case for names: the letters A to Z, and the Kelvin sign, whose lower case is `k`. -/
def CodePoint.foldName (c : CodePoint) : CodePoint :=
  if c = '\u212A' then 'k' else c.lowerAscii

def Text.foldName (t : Text) : Text := t.map CodePoint.foldName

namespace Settings

/-- How the settings library takes the name of an argument: as it stands, or case aside like that of
a variable.  Its releases differ in this. -/
inductive Naming where
  | exact
  | folded
  deriving DecidableEq

def Naming.read : Naming → Text → Text
  | .exact, name => name
  | .folded, name => name.foldName

structure Sources where
  arguments : List (Text × Json)
  environment : List (Text × Text)
  dotenv : List Dotenv.Binding
  naming : Naming := .exact

namespace Sources

/-- The value of the last entry whose name reads as the one that is looked for. -/
def last? {α : Type} (read : Text → Text) (name : Text) (entries : List (Text × α)) : Option α :=
  (entries.reverse.find? fun e => read e.1 = name).map Prod.snd

def argument? (s : Sources) (name : Text) : Option Json := last? s.naming.read name s.arguments

/-- The raw value of a setting. A variable that is empty still counts; a `.env` entry without a
value does not. -/
def raw? (s : Sources) (name : Text) : Option Json :=
  match s.argument? name with
  | some j => some j
  | none =>
    match last? Text.foldName name s.environment with
    | some t => some (.string t)
    | none => ((last? Text.foldName name s.dotenv).getD none).map .string

end Sources

end Settings

end PullGate
