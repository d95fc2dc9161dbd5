import PullGate.Text.Basic

/-!
Line ends: one spelling for all three, and the lines of a printed text.
-/

namespace PullGate.Text

/-- Every line end, `\r\n` or a lone `\r`, written as `\n`. -/
def unifyLineEnds : Text → Text
  | [] => []
  | .scalar '\r' :: .scalar '\n' :: t => '\n' :: unifyLineEnds t
  | c :: t => (if c = '\r' then .scalar '\n' else c) :: unifyLineEnds t

/-- The code points that end a line of printed text, besides `\r\n`. -/
def isLineEnd (c : CodePoint) : Bool :=
  let n := c.toNat
  (0xA ≤ n && n ≤ 0xD) || (0x1C ≤ n && n ≤ 0x1E) || n = 0x85 || n = 0x2028 || n = 0x2029

/-- The lines of a text, without their ends; an end at the very end opens no further line. -/
def lines (t : Text) : List Text := go [] t
where
  /-- `line` holds the current line, last code point first. -/
  go (line : Text) : Text → List Text
    | [] => if line.isEmpty then [] else [line.reverse]
    | .scalar '\r' :: .scalar '\n' :: t => line.reverse :: go [] t
    | c :: t => if isLineEnd c then line.reverse :: go [] t else go (c :: line) t

end PullGate.Text
