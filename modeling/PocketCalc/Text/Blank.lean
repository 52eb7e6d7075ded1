/-
  PocketCalc.Text.Blank
  ─────────────────────
  **BLANKS AND SYMBOLS.**

  The white space characters of Unicode, and the symbols and punctuation marks
  beyond ASCII that no word begins with.  Both tables list ranges of code points,
  both ends included, in ascending order.
-/

namespace PocketCalc.Text

/-- Does a range of the table hold the code point? -/
def isWithin (ranges : List (Nat × Nat)) (n : Nat) : Bool :=
  ranges.any fun r => r.1 ≤ n && n ≤ r.2

/-- The ranges of white space. -/
def blankRanges : List (Nat × Nat) := [
  (0x9, 0xD), (0x20, 0x20), (0x85, 0x85), (0xA0, 0xA0), (0x1680, 0x1680), (0x2000, 0x200A),
  (0x2028, 0x2029), (0x202F, 0x202F), (0x205F, 0x205F), (0x3000, 0x3000)]

/-- Is the character white space? -/
def isBlank (c : Char) : Bool := isWithin blankRanges c.toNat

/-- The ranges of symbols and punctuation marks beyond ASCII. -/
def symbolRanges : List (Nat × Nat) := [
  (0x80, 0xA9), (0xAB, 0xB1), (0xB4, 0xB4), (0xB6, 0xB8), (0xBB, 0xBB), (0xBF, 0xBF),
  (0xD7, 0xD7), (0xF7, 0xF7), (0x2C2, 0x2C5), (0x300, 0x344), (0x2000, 0x206F), (0x207A, 0x207E),
  (0x208A, 0x208E), (0x20A0, 0x20FF), (0x2190, 0x245F), (0x2500, 0x2775), (0x2794, 0x2BFF),
  (0x3000, 0x3004), (0x3008, 0x3020), (0xE000, 0xF8FF), (0xFE00, 0xFE6F), (0xFF00, 0xFF0F),
  (0xFFE0, 0xFFFF), (0x1F000, 0x1F0FF), (0x1F200, 0x1FBEF)]

/-- Is the character a symbol or a punctuation mark beyond ASCII? -/
def isSymbol (c : Char) : Bool := isWithin symbolRanges c.toNat

end PocketCalc.Text
