import PullGate.Http.Percent
import PullGate.Text.Blank
import PullGate.Text.Decimal
import PullGate.Text.Quoted

/-!
Addresses: their parts, and the prepared form in which a request carries one.  Preparing lowers the
case of scheme and host, writes the host in ASCII, removes dot segments and escapes what needs it;
so two spellings of one address become one.
-/

namespace PullGate.Url

structure Parts where
  scheme : Option Text
  user : Option Text
  host : Text
  port : Option Nat
  path : Text
  query : Option Text
  fragment : Option Text

inductive Fault where
  | unparsable (url : Text)
  | noScheme (url : Text)
  | noHost (url : Text)
  | badLabel
  deriving DecidableEq

def Fault.message : Fault → Text
  | .unparsable url => "Failed to parse: " ++ url
  | .noScheme url => "Invalid URL " ++ Text.quoted url
      ++ ": No scheme supplied. Perhaps you meant https://" ++ url ++ "?"
  | .noHost url => "Invalid URL " ++ Text.quoted url ++ ": No host supplied"
  | .badLabel => "URL has an invalid label."

/-! ### Splitting -/

/-- The scheme in front of a colon, over the given characters past the first letter. -/
def splitScheme? (inner : CodePoint → Bool) (t : Text) : Option (Text × Text) :=
  match Text.cut? ':' t with
  | some (c :: scheme, rest) =>
    if c.isAlphaAscii && scheme.all inner then some (c :: scheme, rest) else none
  | _ => none

def isSchemeStart (c : CodePoint) : Bool :=
  c.isAlphaAscii || c.isDigit || c = '+' || c = '-'

def isSchemeChar (c : CodePoint) : Bool := isSchemeStart c || c = '.'

/-- An address with neither scheme nor leading slash begins with its host. -/
def markAuthority (t : Text) : Text :=
  if t.head? = some (.scalar '/') || (splitScheme? isSchemeStart t).isSome then t
  else .scalar '/' :: .scalar '/' :: t

/-- The text up to the first character of a class, and the rest from it on. -/
def upTo (stop : CodePoint → Bool) (t : Text) : Text × Text := t.span fun c => !stop c

def splitFragment (t : Text) : Text × Option Text :=
  match Text.cut? '#' t with
  | some (t, fragment) => (t, some fragment)
  | none => (t, none)

def splitQuery (t : Text) : Text × Option Text :=
  match Text.cut? '?' t with
  | some (t, query) => (t, some query)
  | none => (t, none)

def splitAuthority (t : Text) : Option Text × Text × Text :=
  let (scheme, t) : Option Text × Text := match splitScheme? isSchemeChar t with
    | some (scheme, t) => (some scheme, t)
    | none => (none, t)
  match t with
  | .scalar '/' :: .scalar '/' :: t =>
    let (authority, rest) := upTo (fun c => c = '\\' || c = '/' || c = '?' || c = '#') t
    (scheme, authority, rest)
  | t => (scheme, [], t)

/-! ### Hosts -/

/-- Nothing more, a line end at the very end apart. -/
def isEnd (t : Text) : Bool := t.isEmpty || t = "\n"

/-- The port behind a host: nothing, or a colon with at most five digits besides leading zeros. -/
def port? (t : Text) : Option (Option Nat) :=
  match t with
  | .scalar ':' :: t =>
    let (digits, rest) := Text.spanDigits t
    let significant := digits.dropWhile (· = .scalar '0')
    let port := Text.digitsValue 0 digits
    if !isEnd rest || 5 < significant.length || 65535 < port then none
    else some (if digits.isEmpty then none else some port)
  | t => if isEnd t then some none else none

/-- A registered name: no brackets, and percent signs only in escapes. -/
def isName (t : Text) : Bool :=
  t.all (fun c => c ≠ '[' && c ≠ ']' && c ≠ ':' && c ≠ '/' && c ≠ '?' && c ≠ '#')
    && Percent.wellEscaped t

/-- Four runs of one to three digits with points between. -/
def isIpv4 (t : Text) : Bool :=
  let runs := t.split '.'
  runs.length = 4 && runs.all fun r => !r.isEmpty && r.length ≤ 3 && r.all CodePoint.isDigit

/-- How many of the eight groups a run of groups fills; one in dotted form fills two, and only the
last may be one. -/
def groupCount? : List Text → Option Nat
  | [] => some 0
  | [g] =>
    if isIpv4 g then some 2
    else if !g.isEmpty && g.length ≤ 4 && g.all CodePoint.isHexDigit then some 1
    else none
  | g :: groups =>
    if !g.isEmpty && g.length ≤ 4 && g.all CodePoint.isHexDigit then
      (groupCount? groups).map (· + 1)
    else none

/-- The groups between colons; an empty text has none. -/
def groups (t : Text) : List Text := if t.isEmpty then [] else t.split ':'

/-- The text before the first double colon and the text after it. -/
def cutGap? : Text → Option (Text × Text)
  | [] => none
  | .scalar ':' :: .scalar ':' :: t => some ([], t)
  | c :: t => (cutGap? t).map fun (a, b) => (c :: a, b)

/-- An address of eight groups, of which a double colon may stand for one or more. -/
def isIpv6 (t : Text) : Bool :=
  match cutGap? t with
  | none => groupCount? (groups t) = some 8
  | some (left, right) =>
    let dotted := (groups left).any isIpv4
    match groupCount? (groups left), groupCount? (groups right) with
    | some m, some n => !dotted && m + n ≤ 7
    | _, _ => false

/-- A zone in its written form: without the mark, and escaped. -/
def normalZone (zone : Text) : Option Text :=
  let name := match Text.dropPrefix? "25" zone with
    | some (c :: name) => c :: name
    | _ => zone
  let valid := name.all (fun c => Percent.isUnreserved c || c = '%') && Percent.wellEscaped name
  if name.isEmpty || !valid then none else some (Percent.normalize Percent.isUnreserved name)

def bracketed? (t : Text) : Option (Text × Text) := do
  let (inner, rest) ← Text.cut? ']' t
  match Text.cut? '%' inner with
  | none => if isIpv6 inner then some (.scalar '[' :: inner ++ ("]" : Text), rest) else none
  | some (address, zone) =>
    let zone ← normalZone zone
    if isIpv6 address then
      some (.scalar '[' :: Text.lowerAscii address ++ .scalar '%' :: zone ++ ("]" : Text), rest)
    else none

def host? (t : Text) : Option (Text × Option Nat) := do
  match t with
  | .scalar '[' :: t =>
    let (host, rest) ← bracketed? t
    let port ← port? rest
    some (host, port)
  | t =>
    let (host, rest) := upTo (· = ':') t
    let port ← port? rest
    if isName host then some (host, port) else none

/-! ### Normal form -/

/-- What writes labels of hosts that are not in ASCII, where they can be written there. Its tables
come from outside; it writes nothing but small letters, digits and hyphens. -/
structure Idna where
  label? : Text → Option Text
  plain : ∀ label written, label? label = some written →
    ∀ c ∈ written, (c.isLowerAscii || c.isDigit || c = '-') = true

namespace Idna

/-- No other labels than those in ASCII. -/
def ascii : Idna := ⟨fun _ => none, fun _ _ h => nomatch h⟩

def write? (idna : Idna) (label : Text) : Option Text :=
  if label.all CodePoint.isAscii then some (Text.lowerAscii label) else idna.label? label

/-- A host in normal form: in lower case, zones apart, and label by label in ASCII. -/
def host? (idna : Idna) (host : Text) : Option Text :=
  if host.head? = some (.scalar '[') then
    some (if host.any (· = '%') then host else Text.lowerAscii host)
  else ((host.split '.').mapM idna.write?).map (Text.join ".")

end Idna

/-- The schemes whose addresses have a normal form. -/
def isNormalizable : Option Text → Bool
  | none => true
  | some scheme => scheme = "http" || scheme = "https"

/-- One step back for `..`, none for `.`; `done` holds the segments so far, last one first. -/
def dropDots (done : List Text) : List Text → List Text
  | [] => done.reverse
  | segment :: segments =>
    if segment = "." then dropDots done segments
    else if segment = ".." then dropDots (done.drop 1) segments
    else dropDots (segment :: done) segments

/-- A path without dot segments. It stays absolute, and keeps a slash where its last segment was one
of them. -/
def removeDots (path : Text) : Text :=
  let segments := dropDots [] (path.split '/')
  let absolute := path.head? = some (.scalar '/')
  let rooted := match segments with
    | [] => if absolute then [[]] else []
    | first :: rest => if absolute && !first.isEmpty then [] :: first :: rest else first :: rest
  let dotted := match path.reverse with
    | .scalar '.' :: .scalar '/' :: _ => true
    | .scalar '.' :: .scalar '.' :: .scalar '/' :: _ => true
    | _ => false
  Text.join "/" (if dotted then rooted ++ [[]] else rooted)

/-- The parts of an address, in normal form where its scheme has one; the host of another scheme
stays as it is. -/
def parse? (idna : Idna) (url : Text) : Option Parts := do
  let (t, fragment) := splitFragment (markAuthority url)
  let (t, query) := splitQuery t
  let (scheme, authority, path) := splitAuthority t
  let normalizable := isNormalizable (scheme.map Text.lowerAscii)
  let (user, hostPort) : Option Text × Text := match Text.cutLast? '@' authority with
    | some (user, hostPort) => (if user.isEmpty then none else some user, hostPort)
    | none => (none, authority)
  let (host, port) ← host? hostPort
  let parts : Parts := ⟨scheme.map Text.lowerAscii, user, host, port, path, query, fragment⟩
  if !normalizable then some parts
  else some { parts with
    user := user.map (Percent.normalize Percent.isUserInfo)
    host := ← idna.host? host
    path := Percent.normalize Percent.isPath (removeDots path)
    query := query.map (Percent.normalize Percent.isQuery)
    fragment := fragment.map (Percent.normalize Percent.isQuery) }

/-- A part with its mark in front, left out if it is empty. -/
def marked (mark : CodePoint) : Option Text → Text
  | none | some [] => []
  | some t => mark :: t

def Parts.write (p : Parts) (scheme : Text) : Text :=
  let user : Text := match p.user with
    | some user => user ++ ("@" : Text)
    | none => []
  let port : Text := match p.port with
    | some n => if n = 0 then [] else .scalar ':' :: Text.ofNat n
    | none => []
  let path : Text := match p.path with
    | .scalar '/' :: rest => .scalar '/' :: rest
    | path => .scalar '/' :: path
  scheme ++ "://" ++ user ++ p.host ++ port ++ path ++ marked '?' p.query ++ marked '#' p.fragment

/-- Adds form pairs to a query. -/
def addPairs (query : Option Text) (pairs : List (Text × Text)) : Option Text :=
  if pairs.isEmpty then query
  else match query with
    | none | some [] => some (Percent.encodePairs pairs)
    | some q => some (q ++ "&" ++ Percent.encodePairs pairs)

/-- Whether an address is left as it is: it has a colon but does not begin with `http`. -/
def isForeign (url : Text) : Bool :=
  url.any (· = ':') && (Text.dropPrefix? "http" (Text.lowerAscii url)).isNone

/-- The prepared form of an address, with form pairs added to its query. -/
def prepare (idna : Idna) (url : Text) (pairs : List (Text × Text)) : Except Fault Text :=
  let url := Text.trimLeft CodePoint.isSpacing url
  if isForeign url then .ok url
  else match parse? idna url with
    | none => .error (.unparsable url)
    | some parts =>
      match parts.scheme with
      | none => .error (.noScheme url)
      | some scheme =>
        match parts.host with
        | [] => .error (.noHost url)
        | c :: _ =>
          if c = '*' || c = '.' then .error .badLabel
          else .ok (Percent.finish
            (Parts.write { parts with query := addPairs parts.query pairs } scheme))

def isSendable (url : Text) : Bool :=
  let url := Text.lowerAscii url
  (Text.dropPrefix? "https://" url).isSome || (Text.dropPrefix? "http://" url).isSome

/-- User and password of a prepared address, if it has both parts and one is not empty. -/
def credentials? (url : Text) : Option (Text × Text) :=
  let (_, authority, _) := splitAuthority (splitQuery (splitFragment url).1).1
  match Text.cutLast? '@' authority with
  | none => none
  | some (userInfo, _) =>
    match Text.cut? ':' userInfo with
    | none => none
    | some (user, password) =>
      if user.isEmpty && password.isEmpty then none
      else some (Percent.decode user, Percent.decode password)

end PullGate.Url
