import PullGate.Text.Digit
import PullGate.Text.Quoted

/-!
The arguments of the command: one path and a few switches in any order.  A long switch may be cut
short as long as it is plain which one is meant, and may bring its value along after an equals sign;
behind `--` nothing is a switch.
-/

namespace PullGate.CommandLine

inductive Switch where
  | help
  | approve
  | noApprove
  | project
  | repo
  | json
  deriving DecidableEq

namespace Switch

def spellings : List (Text × Switch) :=
  [("-h", .help), ("--help", .help), ("--approve", .approve), ("--no-approve", .noApprove),
    ("--project", .project), ("--repo", .repo), ("--json", .json)]

def spelled? (t : Text) : Option Switch := (spellings.find? fun s => s.1 = t).map Prod.snd

/-- The name under which messages speak of a switch. -/
def name : Switch → Text
  | .help => "-h/--help"
  | .approve => "--approve"
  | .noApprove => "--no-approve"
  | .project => "--project"
  | .repo => "--repo"
  | .json => "--json"

def takesValue : Switch → Bool
  | .project | .repo => true
  | _ => false

end Switch

inductive UsageFault where
  | ambiguous (text : Text) (spellings : List Text)
  | needsValue (switch : Switch)
  | unusedValue (switch : Switch) (value : Text)
  | conflict (switch other : Switch)
  | noPath
  | unrecognized (texts : List Text)
  deriving DecidableEq

def UsageFault.message : UsageFault → Text
  | .ambiguous text spellings =>
    "ambiguous option: " ++ text ++ " could match " ++ Text.join ", " spellings
  | .needsValue switch => "argument " ++ switch.name ++ ": expected one argument"
  | .unusedValue switch value =>
    "argument " ++ switch.name ++ ": ignored explicit argument " ++ Text.quoted value
  | .conflict switch other =>
    "argument " ++ switch.name ++ ": not allowed with argument " ++ other.name
  | .noPath => "the following arguments are required: ANALYSIS_JSON"
  | .unrecognized texts => "unrecognized arguments: " ++ Text.join " " texts

/-- An argument by its form. The text of a switch may bring a value along, after an equals sign or,
for a short one, right behind it. -/
inductive Word where
  | operand (text : Text)
  | separator
  | unknown (text : Text)
  | plain (switch : Switch)
  | assigned (switch : Switch) (value : Text)
  | joined (tail : Text)
  deriving DecidableEq

namespace Word

def separatorText : Text := "--"

/-- Whether a text with a leading minus is a number; a line end may follow it. -/
def isNegative (t : Text) : Bool :=
  let isDigit (c : CodePoint) : Bool := c.anyDigit?.isSome
  let numeral := match t.reverse with
    | .scalar '\n' :: rest => rest.reverse.drop 1
    | _ => t.drop 1
  match Text.cut? '.' numeral with
  | none => !numeral.isEmpty && numeral.all isDigit
  | some (whole, fraction) => whole.all isDigit && !fraction.isEmpty && fraction.all isDigit

/-- A text in front of an equals sign, and the value behind it. -/
def splitValue (t : Text) : Text × Option Text :=
  match Text.cut? '=' t with
  | some (start, value) => (start, some value)
  | none => (t, none)

def ofSwitch (switch : Switch) : Option Text → Word
  | some value => .assigned switch value
  | none => .plain switch

/-- A text that begins like a switch but is the spelling of none. -/
def ofOther (t : Text) : Word :=
  if isNegative t || t.any (· = .scalar ' ') then .operand t else .unknown t

/-- A text that begins with two minus signs. -/
def ofLong (t : Text) : Except UsageFault Word :=
  let (start, value) := splitValue t
  match Switch.spellings.filter fun s => start.isPrefixOf s.1 with
  | [] => .ok (ofOther t)
  | [(_, switch)] => .ok (ofSwitch switch value)
  | several => .error (.ambiguous t (several.map Prod.fst))

/-- An argument in front of any separator. -/
def ofText (t : Text) : Except UsageFault Word :=
  match t with
  | [.scalar '-'] => .ok (.operand t)
  | .scalar '-' :: c :: rest =>
    match Switch.spelled? t with
    | some switch => .ok (.plain switch)
    | none =>
      let (start, value) := splitValue t
      match Switch.spelled? start, value with
      | some switch, some value => .ok (.assigned switch value)
      | _, _ =>
        if c = '-' then ofLong t
        else if c = 'h' then .ok (.joined rest)
        else .ok (ofOther t)
  | t => .ok (.operand t)

/-- The arguments by their forms; behind the first separator all are operands. -/
def ofTexts : List Text → Except UsageFault (List Word)
  | [] => .ok []
  | t :: ts =>
    if t = separatorText then .ok (.separator :: ts.map .operand)
    else do
      let word ← ofText t
      let words ← ofTexts ts
      return word :: words

end Word

structure Arguments where
  path : Option Text := none
  approve : Option Bool := none
  project : Option Text := none
  repo : Option Text := none
  json : Bool := false
  deriving DecidableEq

inductive Request where
  | help
  | run (path : Text) (arguments : Arguments)

namespace Arguments

/-- Takes a choice on the approval, which must not go against an earlier one. -/
def choose (a : Arguments) (value : Bool) : Except UsageFault Arguments :=
  let switch (value : Bool) : Switch := if value then .approve else .noApprove
  if a.approve = some !value then .error (.conflict (switch value) (switch !value))
  else .ok { a with approve := some value }

/-- What stands behind a short `-h`: further letters are the same switch again, and anything that is
a value is too much. -/
def readTail : Text → Except UsageFault Request
  | [] => .ok .help
  | .scalar '-' :: t => .error (.unusedValue .help (.scalar '-' :: t))
  | .scalar 'h' :: .scalar '=' :: t => .error (.unusedValue .help t)
  | .scalar 'h' :: t => readTail t
  | _ => .ok .help

def assign (a : Arguments) (switch : Switch) (value : Text) : Except UsageFault Arguments :=
  match switch with
  | .project => .ok { a with project := some value }
  | .repo => .ok { a with repo := some value }
  | switch => .error (.unusedValue switch value)

/-- The request once all words are read; `extra` holds those that have no place. -/
def finish (a : Arguments) (extra : List Text) : Except UsageFault Request :=
  match a.path with
  | none => .error .noPath
  | some path => if extra.isEmpty then .ok (.run path a) else .error (.unrecognized extra)

/-- Reads words one after the other, `extra` being those so far that have no place. -/
def readWords (a : Arguments) (extra : List Text) : List Word → Except UsageFault Request
  | [] => finish a extra
  | .operand t :: .separator :: words =>
    if a.path.isNone then readWords { a with path := some t } extra words
    else readWords a (extra ++ [t, Word.separatorText]) words
  | .separator :: .operand t :: words =>
    if a.path.isNone then readWords { a with path := some t } extra words
    else readWords a (extra ++ [Word.separatorText, t]) words
  | .operand t :: words =>
    if a.path.isNone then readWords { a with path := some t } extra words
    else readWords a (extra ++ [t]) words
  | .separator :: words => readWords a (extra ++ [Word.separatorText]) words
  | .unknown t :: words => readWords a (extra ++ [t]) words
  | .joined tail :: _ => readTail tail
  | .plain .help :: _ => .ok .help
  | .plain .approve :: words => do readWords (← a.choose true) extra words
  | .plain .noApprove :: words => do readWords (← a.choose false) extra words
  | .plain .json :: words => readWords { a with json := true } extra words
  | .plain switch :: .operand t :: words => do readWords (← a.assign switch t) extra words
  | .plain switch :: _ => .error (.needsValue switch)
  | .assigned switch value :: words => do readWords (← a.assign switch value) extra words

def read (texts : List Text) : Except UsageFault Request := do
  readWords {} [] (← Word.ofTexts texts)

end Arguments

end PullGate.CommandLine
