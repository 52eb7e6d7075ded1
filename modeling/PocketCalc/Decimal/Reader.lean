/-
  PocketCalc.Decimal.Reader
  ─────────────────────────
  **READING DECIMALS.**

  A written decimal is a mantissa part, and optionally `e` or `E` and an
  exponent.  The first point of the mantissa part is taken out; the characters
  behind it, underscores apart, are the decimal places.  What is left is one
  optional sign and digits, among which underscores may stand except at the
  start.  The exponent is one optional sign and digits alone.  An exponent that
  takes the scale out of the 64-bit words is refused; the places alone never do,
  for no text has that many characters.
-/
import PocketCalc.Decimal.Plain

namespace PocketCalc.Decimal

/-! ## §1. Whole numbers. -/

/-- Digits alone, at least one. -/
def readDigits (cs : List Char) : Option Nat :=
  if !cs.isEmpty && cs.all Char.isDigit then some (Nat.ofDigitChars 10 cs 0) else none

/-- Digits and underscores, with a digit at the start; underscores count for
nothing. -/
def readSpacedDigits (cs : List Char) : Option Nat :=
  if cs.head? == some '_' then none
  else if cs.all (fun c => c.isDigit || c == '_') then readDigits (cs.filter (· != '_'))
  else none

/-- A whole number with an optional sign, its digits read by `read`. -/
def readSigned (read : List Char → Option Nat) : List Char → Option Int
  | '-' :: cs => (read cs).map fun n => -(n : Int)
  | '+' :: cs => (read cs).map fun n => (n : Int)
  | cs => (read cs).map fun n => (n : Int)

/-! ## §2. Decimals. -/

/-- The letters that introduce an exponent. -/
def isExponentMark (c : Char) : Bool := c == 'e' || c == 'E'

/-- The least scale an exponent may lead to. -/
def minScale : Int := -9223372036854775808

/-- The largest scale an exponent may lead to. -/
def maxScale : Int := 9223372036854775807

/-- The exponent written behind the mantissa part: zero if nothing is there. -/
def readExponent : List Char → Option Int
  | [] => some 0
  | _ :: cs => readSigned readDigits cs

/-- Reads a written decimal, keeping the pair that is written. -/
def read (cs : List Char) : Option Decimal :=
  let base := cs.takeWhile (fun c => !isExponentMark c)
  let whole := base.takeWhile (· != '.')
  let fraction := (base.dropWhile (· != '.')).drop 1
  match readExponent (cs.dropWhile (fun c => !isExponentMark c)),
      readSigned readSpacedDigits (whole ++ fraction) with
  | some exponent, some mantissa =>
      let scale := ((fraction.filter (· != '_')).length : Int) - exponent
      if exponent = 0 ∨ minScale ≤ scale ∧ scale ≤ maxScale then some ⟨mantissa, scale⟩ else none
  | _, _ => none

/-- Reads a decimal written as a string. -/
def ofText? (s : String) : Option Decimal := read s.toList

/-- Reads what is typed so far: a final point is left out, and neither an empty
text nor a lone minus sign is a number.  The number comes in normal form. -/
def readTyped (cs : List Char) : Option Decimal :=
  let s := if cs.getLast? == some '.' then cs.dropLast else cs
  if s.isEmpty || s == ['-'] then none else (read s).map normalized

end PocketCalc.Decimal
