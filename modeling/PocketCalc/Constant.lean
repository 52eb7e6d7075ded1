/-
  PocketCalc.Constant
  ───────────────────
  **THE CONSTANTS π AND e.**

  Both constants are fixed decimals of one hundred places, computed in whole
  numbers with ten guard digits that are cut off at the end:

      π = 16 · arctan (1/5) − 4 · arctan (1/239)
      e = Σ 1 / k!

  Every term of a series is a truncated quotient, and a series stops at its
  first zero term.  The number of digits is counted in the same words as the
  amount of a shift.
-/
import PocketCalc.Decimal.Rounding

namespace PocketCalc

/-- The named constants. -/
inductive Constant where
  | pi
  | e
  deriving DecidableEq, Repr

namespace Constant

/-- Decimal places kept for a constant. -/
def places : Nat := 100

/-- Further places carried through a series, to absorb its truncations. -/
def guardPlaces : Nat := 10

/-- The power of ten by which a series of so many digits is multiplied. -/
def seriesScale (digits : Nat) : Nat := shiftFactor (digits + guardPlaces : Nat)

/-! ## §1. The arctangent series. -/

/-- The terms of `scale · arctan (1/q)` from the `k`-th on, without their
signs: `scale / (q ^ (2 k + 1) · (2 k + 1))`, up to the first zero term. -/
def arctanTerms (q scale k : Nat) : List Nat :=
  let term := scale / (Nat.pow q (2 * k + 1) * (2 * k + 1))
  if h : term = 0 then [] else term :: arctanTerms q scale (k + 1)
termination_by scale - k
decreasing_by
  have hle : Nat.pow q (2 * k + 1) * (2 * k + 1) ≤ scale :=
    Nat.le_of_not_lt fun hlt => h (Nat.div_eq_of_lt hlt)
  have hpos : 0 < Nat.pow q (2 * k + 1) := by
    rcases Nat.eq_zero_or_pos (Nat.pow q (2 * k + 1)) with h0 | h0
    · exact absurd (show scale / (Nat.pow q (2 * k + 1) * (2 * k + 1)) = 0 by
        rw [h0, Nat.zero_mul, Nat.div_zero]) h
    · exact h0
  have hge : 2 * k + 1 ≤ Nat.pow q (2 * k + 1) * (2 * k + 1) :=
    Nat.le_mul_of_pos_left _ hpos
  omega

/-- The first term, less the second, plus the third, and so on. -/
def alternatingSum (terms : List Nat) : Int :=
  terms.foldr (fun (t : Nat) (rest : Int) => (t : Int) - rest) 0

/-- `scale · arctan (1/q)`, summed term by term. -/
def arctanScaled (q scale : Nat) : Int := alternatingSum (arctanTerms q scale 0)

/-- `10 ^ digits · π`, if the number of digits fits into a word. -/
def piScaled (digits : Nat) : Int :=
  let scale := seriesScale digits
  Int.tdiv (16 * arctanScaled 5 scale - 4 * arctanScaled 239 scale) (tenPow guardPlaces : Int)

/-! ## §2. The exponential series. -/

/-- The terms of the exponential series from `term` on: each is the one before
it, divided by `k`, `k + 1` and so on, up to the first zero term. -/
def exponentialTerms (term k : Nat) : List Nat :=
  if term = 0 then [] else term :: exponentialTerms (term / k) (k + 1)
termination_by 2 * term + (2 - k)
decreasing_by
  rcases k with _ | _ | k
  · rw [Nat.div_zero]
    omega
  · rw [Nat.zero_add, Nat.div_one]
    omega
  · have : term / (k + 1 + 1) < term := Nat.div_lt_self (by omega) (by omega)
    omega

/-- `10 ^ digits · e`, if the number of digits fits into a word. -/
def eScaled (digits : Nat) : Nat :=
  (exponentialTerms (seriesScale digits) 1).foldr (· + ·) 0 / tenPow guardPlaces

/-! ## §3. The values. -/

/-- The decimal of π. -/
def piDecimal : Decimal := Decimal.normalized ⟨piScaled places, places⟩

/-- The decimal of e. -/
def eDecimal : Decimal := Decimal.normalized ⟨eScaled places, places⟩

/-- The decimal that a constant stands for. -/
def value : Constant → Decimal
  | .pi => piDecimal
  | .e => eDecimal

end Constant

end PocketCalc
