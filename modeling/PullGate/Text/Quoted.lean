import PullGate.Text.Decimal
import PullGate.Text.Printable

/-!
The quoted form in which messages show a text: in single quotes, or in double quotes where the text
holds single ones only, with escapes for whatever would not show.
-/

namespace PullGate

/-- How a code point stands between the given quotes. -/
def CodePoint.escaped (quote c : CodePoint) : Text :=
  if c = quote || c = '\\' then ['\\', c]
  else if c = '\n' then "\\n"
  else if c = '\r' then "\\r"
  else if c = '\t' then "\\t"
  else if c.isPrintable then [c]
  else if c.toNat < 0x100 then "\\x" ++ Text.padHex 2 c.toNat
  else if c.toNat < 0x10000 then "\\u" ++ Text.padHex 4 c.toNat
  else "\\U" ++ Text.padHex 8 c.toNat

namespace Text

/-- The quote that needs no escape, single quotes first. -/
def quoteFor (t : Text) : CodePoint :=
  if t.any (· = '\'') && !t.any (· = '"') then '"' else '\''

def quoted (t : Text) : Text :=
  let quote := quoteFor t
  quote :: t.flatMap (CodePoint.escaped quote) ++ [quote]

end Text

end PullGate
