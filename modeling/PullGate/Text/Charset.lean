import PullGate.Text.Blank
import PullGate.Text.Wide

/-!
The charset of a body: what its content type tells of it, what its first octets show, and the text
of the body in that charset.
-/

namespace PullGate

inductive Charset where
  | utf8
  | latin1
  | ascii
  | windows1252
  | utf8Marked
  | utf16
  | utf16Little
  | utf16Big
  | utf32
  | utf32Little
  | utf32Big
  deriving DecidableEq

namespace Charset

/-- Why a codec gives no text, whatever the octets are. -/
structure Fault where
  message : Text
  deriving DecidableEq

/-! ### Octets in a charset -/

/-- The characters of Windows-1252 from 0x80 to 0x9F; zero marks the five unassigned ones. -/
def windowsHigh : List Nat :=
  [0x20AC, 0, 0x201A, 0x192, 0x201E, 0x2026, 0x2020, 0x2021, 0x2C6, 0x2030, 0x160, 0x2039, 0x152, 0,
    0x17D, 0, 0, 0x2018, 0x2019, 0x201C, 0x201D, 0x2022, 0x2013, 0x2014, 0x2DC, 0x2122, 0x161,
    0x203A, 0x153, 0, 0x17E, 0x178]

def windowsHigh? (n : Nat) : Option Nat :=
  if n < 0xA0 then (windowsHigh[n - 0x80]?).filter (· ≠ 0) else some n

/-- The character of one octet, in a charset that has one for each. -/
def single (high? : Nat → Option Nat) (b : UInt8) : Option CodePoint :=
  (if b.toNat < 0x80 then some b.toNat else high? b.toNat).map CodePoint.ofNat

/-- The characters of octets, without a mark in front that tells the order of the octets. -/
def scan : Charset → Octets → Scan
  | .utf8, o => Utf8.scan o
  | .latin1, o => o.map (single some)
  | .ascii, o => o.map (single fun _ => none)
  | .windows1252, o => o.map (single windowsHigh?)
  | .utf8Marked, 0xEF :: 0xBB :: 0xBF :: o => Utf8.scan o
  | .utf8Marked, o => Utf8.scan o
  | .utf16, o => Utf16.scanMarked o
  | .utf16Little, o => Utf16.scan false o
  | .utf16Big, o => Utf16.scan true o
  | .utf32, o => Utf32.scanMarked o
  | .utf32Little, o => Utf32.scan false o
  | .utf32Big, o => Utf32.scan true o

/-! ### Names -/

/-- A charset name with every run of punctuation as one underscore. -/
def normalName (t : Text) : Text :=
  let mark (c : CodePoint) : CodePoint :=
    if c.isAlphaAscii || c.isDigit || c = '.' then c.lowerAscii else '_'
  Text.join "_" ((Text.split '_' (t.map mark)).filter fun part => !part.isEmpty)

def names : List (Charset × List Text) :=
  [(.utf8, ["utf_8", "utf8", "u8", "utf", "utf8_ucs2", "utf8_ucs4", "cp65001"]),
    (.latin1, ["latin_1", "latin1", "latin", "l1", "iso_8859_1", "iso8859_1", "iso8859", "8859",
      "cp819", "ibm819", "iso_ir_100", "iso_8859_1_1987", "csisolatin1"]),
    (.ascii, ["ascii", "646", "us", "us_ascii", "iso646_us", "iso_ir_6", "cp367", "ibm367",
      "csascii", "ansi_x3.4_1968", "ansi_x3.4_1986", "ansi_x3_4_1968", "iso_646.irv_1991"]),
    (.windows1252, ["cp1252", "1252", "windows_1252"]),
    (.utf8Marked, ["utf_8_sig"]),
    (.utf16, ["utf_16", "utf16", "u16"]),
    (.utf16Little, ["utf_16_le", "utf_16le", "unicodelittleunmarked"]),
    (.utf16Big, ["utf_16_be", "utf_16be", "unicodebigunmarked"]),
    (.utf32, ["utf_32", "utf32", "u32"]),
    (.utf32Little, ["utf_32_le", "utf_32le"]),
    (.utf32Big, ["utf_32_be", "utf_32be"])]

def ofName? (name : Text) : Option Charset :=
  (names.find? fun entry => normalName name ∈ entry.2).map Prod.fst

/-! ### Content types -/

/-- What a content type tells of the charset. A `charset` parameter may come without a value. -/
inductive Mention where
  | nothing
  | bare
  | named (name : Text)
  deriving DecidableEq

def isQuoting (c : CodePoint) : Bool := c = '"' || c = '\'' || c = ' '

/-- The name of a parameter, and its value if it has one, without quotes and blanks around them. -/
def parameter (t : Text) : Text × Option Text :=
  let t := Text.trim CodePoint.isSpacing t
  match Text.cut? '=' t with
  | some (name, value) =>
    (Text.lowerAscii (Text.trim isQuoting name), some (Text.trim isQuoting value))
  | none => (Text.lowerAscii t, none)

/-- What a content type tells of the charset: its last `charset` parameter, else Latin-1 for text,
and UTF-8 for JSON. -/
def mention (contentType : Text) : Mention :=
  match contentType.split ';' with
  | [] => .nothing
  | kind :: parameters =>
    match (parameters.map parameter).reverse.find? fun (p : Text × Option Text) =>
      p.1 = "charset" with
    | some (_, some name) => .named name
    | some (_, none) => .bare
    | none =>
      if Text.containsText "text" kind then .named "ISO-8859-1"
      else if Text.containsText "application/json" kind then .named "utf-8"
      else .nothing

/-! ### First octets -/

/-- The charset of JSON text by its first octets: a mark, or how zeros lie among the first four. -/
def guess? (o : Octets) : Option Charset :=
  match o.take 4 with
  | [0xFF, 0xFE, 0x00, 0x00] | [0x00, 0x00, 0xFE, 0xFF] => some .utf32
  | 0xEF :: 0xBB :: 0xBF :: _ => some .utf8Marked
  | 0xFF :: 0xFE :: _ | 0xFE :: 0xFF :: _ => some .utf16
  | first =>
    match first.map fun b => b == 0 with
    | [true, false, true, false] => some .utf16Big
    | [false, true, false, true] => some .utf16Little
    | [true, true, true, false] => some .utf32Big
    | [false, true, true, true] => some .utf32Little
    | zeros => if true ∈ zeros then none else some .utf8

end Charset

end PullGate
