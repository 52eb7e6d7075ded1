/-
  PocketCalc.Decimal.Plain
  ────────────────────────
  **PLAIN TEXT OF A DECIMAL.**

  The plain text of a number has an optional minus sign, its integer digits
  and, only if the number is not whole, a point and its fraction digits:
  no exponent, no needless zero, and never a signed zero.  It is the text in
  which numbers are stored and reopened for editing.

  The second text, `display`, is the one of the log: it switches to an exponent
  when the plain text would be mostly zeros.
-/
import PocketCalc.Decimal.Basic
import PocketCalc.Decimal.Digits

namespace PocketCalc

namespace Decimal

/-! ## §1. Plain text. -/

/-- A number cut into its sign, its integer digits and its fraction digits. -/
structure Parts where
  negative : Bool
  integer : List Char
  fraction : List Char
  deriving DecidableEq, Repr

/-- The parts of a number: the integer part has at least one digit, the fraction
part does not end in a zero digit, and zero has no sign. -/
def parts (x : Decimal) : Parts :=
  let v := x.normalized
  let ds := digits v.mantissa.natAbs
  if v.mantissa = 0 then ⟨false, ['0'], []⟩
  else if v.scale ≤ 0 then
    ⟨decide (v.mantissa < 0), ds ++ List.replicate (-v.scale).toNat '0', []⟩
  else
    let s := v.scale.toNat
    let padded := List.replicate (s + 1 - ds.length) '0' ++ ds
    let cut := padded.length - s
    ⟨decide (v.mantissa < 0), padded.take cut, padded.drop cut⟩

/-- The minus sign of a negative number. -/
def sign (negative : Bool) : List Char := if negative then ['-'] else []

/-- A fraction part behind its point; nothing for a whole number. -/
def pointed (point : Char) (fraction : List Char) : List Char :=
  if fraction.isEmpty then [] else point :: fraction

/-- The plain text of a number, character by character. -/
def plain (x : Decimal) : List Char :=
  let p := x.parts
  sign p.negative ++ p.integer ++ pointed '.' p.fraction

/-- The plain text of a number. -/
def plainText (x : Decimal) : String := String.ofList x.plain

/-! ## §2. Text with an exponent. -/

/-- More leading zeros than this after the point call for an exponent. -/
def leadingZeroLimit : Nat := 5

/-- More appended zeros than this call for an exponent. -/
def trailingZeroLimit : Nat := 15

/-- The text of a number in the log: plain, unless that text would start with
more than `leadingZeroLimit` zeros after its point (then one digit stands before
the point and the power of ten follows) or end in more than `trailingZeroLimit`
zeros (then the digits are followed by their number). -/
def display (x : Decimal) : String :=
  let v := x.normalized
  let ds := digits v.mantissa.natAbs
  let n : Int := ds.length
  if n + leadingZeroLimit < v.scale then
    String.ofList (sign (decide (v.mantissa < 0)) ++ ds.take 1 ++ pointed '.' (ds.drop 1)
      ++ ['E', '-'] ++ digits (v.scale - n + 1).natAbs)
  else if (trailingZeroLimit : Int) < -v.scale then
    String.ofList (sign (decide (v.mantissa < 0)) ++ ds ++ ['e', '+'] ++ digits v.scale.natAbs)
  else v.plainText

end Decimal

end PocketCalc
