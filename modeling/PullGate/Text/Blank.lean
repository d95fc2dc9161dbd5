import PullGate.Text.Basic

/-!
The two classes of blanks: the Unicode property White_Space, and the wider class of spacing, which
also takes the four information separators U+001C to U+001F.
-/

namespace PullGate.CodePoint

/-- The ranges of the Unicode property White_Space. -/
def whiteSpaceRanges : List (Nat × Nat) :=
  [(0x9, 0xD), (0x20, 0x20), (0x85, 0x85), (0xA0, 0xA0), (0x1680, 0x1680), (0x2000, 0x200A),
    (0x2028, 0x2029), (0x202F, 0x202F), (0x205F, 0x205F), (0x3000, 0x3000)]

def isWhiteSpace (c : CodePoint) : Bool := inRanges whiteSpaceRanges c.toNat

/-- White space, or one of the information separators. -/
def isSpacing (c : CodePoint) : Bool :=
  c.isWhiteSpace || (0x1C ≤ c.toNat && c.toNat ≤ 0x1F)

end PullGate.CodePoint
