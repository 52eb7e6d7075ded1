/-
  PocketCalc.Decimal.Rounding
  ───────────────────────────
  **ROUNDING TO NEAREST, HALVES AWAY FROM ZERO.**

  One rule serves both the quotient of two decimals and the shortening of a
  decimal for the screen: `roundedQuotient` divides two whole numbers and goes
  to the nearest one, a tie going away from zero.  `divideAt` and `roundAt`
  shift their operands by a power of ten so that the wanted decimal places
  become the unit, and apply that rule.

  Shift amounts are words of 32 bits: only the residue of the amount modulo
  `2 ^ 32` counts.
-/
import PocketCalc.Decimal.Basic

namespace PocketCalc

/-! ## §1. Whole quotients. -/

/-- The quotient of `num` by a nonzero `den`, rounded to the nearest whole
number; a tie goes away from zero. -/
def roundedQuotient (num den : Int) : Int :=
  let a := num.natAbs
  let b := den.natAbs
  let q := if b ≤ 2 * (a % b) then a / b + 1 else a / b
  if decide (num < 0) = decide (den < 0) then (q : Int) else -(q : Int)

/-- Shift amounts count modulo this number. -/
def shiftModulus : Int := 4294967296

/-- The factor of a shift by `k` decimal places. -/
def shiftFactor (k : Int) : Nat := tenPow (k % shiftModulus).toNat

namespace Decimal

/-! ## §2. Quotients and shortening. -/

/-- The quotient of `x` by `y` to the given number of decimal places, in normal
form; there is none when `y` is zero.  The number of places may be negative. -/
def divideAt (x y : Decimal) (places : Int) : Option Decimal :=
  if y.mantissa = 0 then none
  else
    let shift := y.scale + places - x.scale
    let quotient :=
      if 0 ≤ shift then roundedQuotient (x.mantissa * (shiftFactor shift : Int)) y.mantissa
      else roundedQuotient x.mantissa (y.mantissa * (shiftFactor (-shift) : Int))
    some (normalized ⟨quotient, places⟩)

/-- The number `x` rounded to the given number of decimal places; a number that
is short enough already is returned as it is. -/
def roundAt (x : Decimal) (places : Int) : Decimal :=
  if x.scale ≤ places then x
  else ⟨roundedQuotient x.mantissa (shiftFactor (x.scale - places) : Int), places⟩

end Decimal

end PocketCalc
