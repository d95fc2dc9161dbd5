import PullGate.Text.Blank
import PullGate.Text.Lines

/-!
The `.env` format: one binding `key=value` a line, with optional quotes, comments and an optional
`export` in front.  Values may refer to variables and to earlier bindings as `${name}`.
-/

namespace PullGate.Dotenv

/-- A key and its value; a key without `=` has none. -/
abbrev Binding := Text × Option Text

def isInlineSpace (c : CodePoint) : Bool := c.isSpacing && c ≠ '\n'

def skipInlineSpace (t : Text) : Text := t.dropWhile isInlineSpace

def skipExport (t : Text) : Text :=
  match Text.dropPrefix? "export" t with
  | some (c :: u) => if isInlineSpace c then skipInlineSpace u else t
  | _ => t

/-- A step either gives a value and the rest, or what was left where it failed. -/
abbrev Step (α : Type) := Except Text (α × Text)

/-- A key in single quotes or bare; a comment has none. -/
def readKey (t : Text) : Step (Option Text) :=
  match t with
  | .scalar '#' :: _ => .ok (none, t)
  | .scalar '\'' :: u =>
    match Text.cut? '\'' u with
    | some (c :: key, rest) => .ok (some (c :: key), rest)
    | _ => .error t
  | t =>
    let key := t.takeWhile fun c => c ≠ .scalar '=' && c ≠ .scalar '#' && !c.isSpacing
    if key.isEmpty then .error t else .ok (some key, t.drop key.length)

/-- The text up to the first quote that no backslash stands before, and the rest behind it. -/
def cutUnescaped? (quote : CodePoint) (escaped : Bool) : Text → Option (Text × Text)
  | [] => none
  | c :: t =>
    if c = quote && !escaped then some ([], t)
    else (cutUnescaped? quote (c = '\\') t).map fun (a, b) => (c :: a, b)

/-- The closing quote of a value: the first unescaped one, or the last one if all are escaped. -/
def cutQuoted? (quote : CodePoint) (t : Text) : Option (Text × Text) :=
  (cutUnescaped? quote false t).or (Text.cutLast? quote t)

/-- What a backslash and this character stand for in single quotes. -/
def singleEscape? (c : CodePoint) : Option CodePoint :=
  if c = '\\' || c = '\'' then some c else none

/-- What a backslash and this character stand for in double quotes. -/
def doubleEscape? (c : CodePoint) : Option CodePoint :=
  if c = '\\' || c = '\'' || c = '"' then some c
  else if c = 'a' then some (.scalar '\x07')
  else if c = 'b' then some (.scalar '\x08')
  else if c = 'f' then some (.scalar '\x0c')
  else if c = 'n' then some (.scalar '\n')
  else if c = 'r' then some (.scalar '\r')
  else if c = 't' then some (.scalar '\t')
  else if c = 'v' then some (.scalar '\x0b')
  else none

/-- Replaces the escapes; a backslash before anything else stays. -/
def unescape (escape? : CodePoint → Option CodePoint) : Text → Text
  | [] => []
  | [c] => [c]
  | c :: e :: t =>
    if c = '\\' then
      match escape? e with
      | some d => d :: unescape escape? t
      | none => c :: unescape escape? (e :: t)
    else c :: unescape escape? (e :: t)

/-- Whether space and then a `#` begin here. -/
def opensComment (t : Text) : Bool :=
  (t.head?.map CodePoint.isSpacing).getD false
    && (t.dropWhile CodePoint.isSpacing).head? = some (.scalar '#')

def cutComment : Text → Text
  | [] => []
  | c :: t => if opensComment (c :: t) then [] else c :: cutComment t

def readValue (t : Text) : Step Text :=
  let quoted (quote : CodePoint) (escape? : CodePoint → Option CodePoint) (u : Text) : Step Text :=
    match cutQuoted? quote u with
    | some (value, rest) => .ok (unescape escape? value, rest)
    | none => .error t
  match t with
  | .scalar '\'' :: u => quoted '\'' singleEscape? u
  | .scalar '"' :: u => quoted '"' doubleEscape? u
  | t =>
    let line := t.takeWhile (· ≠ .scalar '\n')
    .ok (Text.trimRight CodePoint.isSpacing (cutComment line), t.drop line.length)

/-- Skips a comment, then space up to the end of the line, where nothing else may stand. -/
def endLine (t : Text) : Except Text Text :=
  let u := match skipInlineSpace t with
    | .scalar '#' :: u => u.dropWhile (· ≠ .scalar '\n')
    | _ => t
  match skipInlineSpace u with
  | [] => .ok []
  | .scalar '\n' :: rest => .ok rest
  | _ => .error u

def readAssignment (t : Text) : Step (Option Text) :=
  match skipInlineSpace t with
  | .scalar '=' :: u => (readValue (skipInlineSpace u)).map fun (value, rest) => (some value, rest)
  | t => .ok (none, t)

/-- The binding that a text begins with, blank lines skipped; a comment gives none. -/
def readBinding (t : Text) : Except Text (Option Binding × Text) := do
  let t := t.dropWhile CodePoint.isSpacing
  if t.isEmpty then return (none, [])
  let (key, t) ← readKey (skipExport t)
  let (value, t) ← readAssignment t
  let t ← endLine t
  return (key.map (·, value), t)

def skipLine (t : Text) : Text := (t.dropWhile (· ≠ .scalar '\n')).drop 1

/-- The bindings of a text. A line that is none is skipped. -/
def readBindings : (fuel : Nat) → Text → List Binding
  | 0, _ => []
  | _ + 1, [] => []
  | fuel + 1, t =>
    match readBinding t with
    | .ok (some binding, rest) => binding :: readBindings fuel rest
    | .ok (none, rest) => readBindings fuel rest
    | .error left => readBindings fuel (skipLine left)

/-- Sets the value of a key, in its place if the key is there. -/
def assign (key : Text) (value : Option Text) : List Binding → List Binding
  | [] => [(key, value)]
  | (k, old) :: bindings =>
    if k = key then (k, value) :: bindings else (k, old) :: assign key value bindings

/-- The reference that a text behind `${` gives, as name and default, and the rest behind the
closing brace. -/
def readReference? (t : Text) : Option (Text × Text × Text) :=
  let name := t.takeWhile fun c => c ≠ .scalar '\x7d' && c ≠ .scalar ':'
  match t.drop name.length with
  | .scalar '\x7d' :: rest => some (name, [], rest)
  | .scalar ':' :: .scalar '-' :: u =>
    (Text.cut? '\x7d' u).map fun (absent, rest) => (name, absent, rest)
  | _ => none

/-- Puts the values of variables in the place of the references to them. -/
def expand (value? : Text → Option Text) : (fuel : Nat) → Text → Text
  | 0, t => t
  | _ + 1, [] => []
  | fuel + 1, c :: t =>
    match Text.dropPrefix? "$\x7b" (c :: t) with
    | none => c :: expand value? fuel t
    | some u =>
      match readReference? u with
      | none => c :: expand value? fuel t
      | some (name, absent, rest) => (value? name).getD absent ++ expand value? fuel rest

/-- The value of a variable: that of an earlier binding, empty if it has none, or else that of the
environment. -/
def named? (environment : List (Text × Text)) (bindings : List Binding) (name : Text) :
    Option Text :=
  match bindings.find? fun b => b.1 = name with
  | some (_, value) => some (value.getD [])
  | none => (environment.find? fun e => e.1 = name).map Prod.snd

/-- The bindings with references replaced, each by what stands before it. -/
def resolve (environment : List (Text × Text)) (bindings : List Binding) : List Binding :=
  bindings.foldl (fun done (key, value) =>
    assign key (value.map fun v => expand (named? environment done) (v.length + 1) v) done) []

/-- The entries of a `.env` text: a key keeps the place of its first binding and the value of its
last. -/
def entries (environment : List (Text × Text)) (text : Text) : List Binding :=
  let text := Text.unifyLineEnds (match text with
    | .scalar '\uFEFF' :: t => t
    | t => t)
  resolve environment (readBindings (text.length + 1) text)

end PullGate.Dotenv
