/-
  PocketCalc.Proofs.Decimal.Factorial
  ───────────────────────────────────
  **WHOSE FACTORIAL IS COMPUTED.**

  The factorial is meant for the whole numbers from zero to the limit, whatever pair of a
  mantissa and a scale they are written as, and every other number is to be refused.  So it
  is, as long as the zeros behind the mantissa can be counted in one word.  A number with
  more zeros is taken for the one whose zeros are what is left of the count, and there are
  such numbers that are not refused.

      factorialOf_eq            the product is the factorial of a whole number
      factorial_of_neg          negative numbers are refused
      factorial_wrapped         the zeros are counted in one word
      factorial_policy          which number has which factorial
      factorial_zeros_lost      a number of 4294967297 digits that has a factorial
-/
import Mathlib.Data.Nat.Factorial.Basic
import Mathlib.Tactic.NormNum.Pow
import Mathlib.Tactic.Positivity
import PocketCalc.Proofs.Decimal.Rational

namespace PocketCalc

/-! ## §1. The product. -/

/-- The product is the factorial of a whole number. -/
theorem factorialOf_eq (n : ℕ) : factorialOf n = n.factorial := by
  induction n with
  | zero => rfl
  | succ n ih => rw [factorialOf, ih, Nat.factorial_succ]

namespace Decimal

/-! ## §2. Whole numbers and their zeros. -/

theorem toRat_ofInt (n : ℤ) : (ofInt n).toRat = n := by
  unfold toRat ofInt
  dsimp only
  rw [neg_zero, zpow_zero, mul_one]

theorem toRat_neg_iff (x : Decimal) : x.toRat < 0 ↔ x.mantissa < 0 := by
  have hpow : (0 : ℚ) < 10 ^ (-x.scale) := zpow_pos (by norm_num) _
  unfold toRat
  rw [← not_le, mul_nonneg_iff_of_pos_right hpow, not_le, Int.cast_lt_zero]

/-- Behind a positive mantissa stand fewer zeros than the number counts. -/
theorem zeros_lt_toRat {m : ℤ} (hm : 0 < m) (zeros : ℕ) : (zeros : ℚ) < toRat ⟨m, -zeros⟩ := by
  have hone : (1 : ℚ) ≤ m := by exact_mod_cast hm
  have hpow : (zeros : ℚ) < 10 ^ zeros := by
    rw [← tenPow_cast]
    exact_mod_cast lt_tenPow zeros
  unfold toRat
  dsimp only
  rw [neg_neg, zpow_natCast]
  calc (zeros : ℚ) < 10 ^ zeros := hpow
    _ = 1 * 10 ^ zeros := (one_mul _).symm
    _ ≤ m * 10 ^ zeros := mul_le_mul_of_nonneg_right hone (by positivity)

/-! ## §3. Which number has which factorial. -/

/-- Negative numbers are refused, however many zeros they have. -/
theorem factorial_of_neg {x : Decimal} (h : x.toRat < 0) :
    x.factorial = .error .invalidExpression := by
  have hm : x.normalized.mantissa < 0 := by
    rwa [← toRat_neg_iff, toRat_normalized]
  unfold factorial
  exact if_pos (.inr hm)

/-- The zeros behind the mantissa are counted in one word. -/
theorem factorial_wrapped {x : Decimal} (h : x.normalized.scale < 0) :
    x.factorial
      = factorial ⟨x.normalized.mantissa, -(-x.normalized.scale % shiftModulus)⟩ := by
  -- The mantissa ends in no zero digit, so the pair with fewer zeros is normal too.
  have hmod : x.normalized.mantissa % 10 ≠ 0 := by
    rcases (isNormal_normalized x).cases with hzero | hmod
    · rw [hzero] at h
      exact absurd h (by decide)
    · exact hmod
  have hnonneg : 0 ≤ -x.normalized.scale % shiftModulus := Int.emod_nonneg _ (by decide)
  have hnormal := isNormal_of_mod (-(-x.normalized.scale % shiftModulus)) hmod
  unfold IsNormal at hnormal
  have hshift : shiftFactor (- -(-x.normalized.scale % shiftModulus))
      = shiftFactor (-x.normalized.scale) := by
    unfold shiftFactor
    rw [neg_neg, Int.emod_emod_of_dvd _ (dvd_refl _)]
  unfold factorial
  rw [hnormal]
  dsimp only
  rw [hshift]
  congr 1
  exact propext ⟨fun hbad => hbad.imp_left fun _ => by omega,
    fun hbad => hbad.imp_left fun _ => by omega⟩

/-- **THE FACTORIAL IS THAT OF THE WHOLE NUMBERS UP TO THE LIMIT, AND REFUSED FOR EVERY OTHER
NUMBER WHOSE ZEROS FIT INTO A WORD.**  The factorial depends on the number alone and is
computed for each of the whole numbers up to the limit, whatever pair stands for it.  A
number that is none of them is refused if it is negative, or if behind the mantissa of its
normal pair there are fewer zeros than a word can count.  Of any more zeros only those
beyond the full words are left, so the last part brings every number back to the first two. -/
theorem factorial_policy (x : Decimal) :
    (∀ n : ℕ, n ≤ factorialLimit → x.toRat = n → x.factorial = .ok (ofInt n.factorial))
      ∧ (x.toRat < 0 ∨ -x.normalized.scale < shiftModulus →
          (∀ n : ℕ, n ≤ factorialLimit → x.toRat ≠ n) →
          x.factorial = .error .invalidExpression)
      ∧ (shiftModulus ≤ -x.normalized.scale →
          x.factorial
            = factorial ⟨x.normalized.mantissa, -(-x.normalized.scale % shiftModulus)⟩) := by
  refine ⟨?_, ?_, ?_⟩
  · intro n hn hx
    rw [← factorialOf_eq]
    refine factorial_of_le hn ((normalized_eq_iff _ _).2 ?_)
    rw [hx, toRat_ofInt, Int.cast_natCast]
  · intro hzeros hnone
    rcases hzeros with hneg | hfits
    · exact factorial_of_neg hneg
    · cases h : x.factorial with
      | error e => rw [factorial_error h]
      | ok v =>
        -- No zeros are lost, so what is accepted is a whole number up to the limit.
        obtain ⟨n, hn, hnormal⟩ := exists_of_factorial hfits h
        have hx := (normalized_eq_iff _ _).1 hnormal
        rw [toRat_ofInt, Int.cast_natCast] at hx
        exact absurd hx (hnone n hn)
  · intro hzeros
    have hmodulus : (0 : ℤ) < shiftModulus := by decide
    exact factorial_wrapped (by omega)

/-- Three thousand has a factorial, three thousand and one has none, and a one with
4294967299 zeros has the factorial of a thousand. -/
theorem factorial_policy_limit :
    factorial ⟨3, -3⟩ = .ok (ofInt (Nat.factorial 3000))
      ∧ factorial ⟨3001, 0⟩ = .error .invalidExpression
      ∧ factorial ⟨1, -4294967299⟩ = .ok (ofInt (Nat.factorial 1000)) := by
  have hsmall (y : Decimal) (n : ℕ) (hn : n ≤ factorialLimit) (hy : y.toRat = n) :=
    (factorial_policy y).1 n hn hy
  refine ⟨?_, ?_, ?_⟩
  · refine hsmall ⟨3, -3⟩ 3000 (by decide) ?_
    norm_num [toRat]
  · refine (factorial_policy ⟨3001, 0⟩).2.1 (.inr (by decide +kernel)) ?_
    intro n hn hx
    have hlimit : n ≤ 3000 := hn
    norm_num [toRat] at hx
    norm_cast at hx
    omega
  · have hnormal : (⟨1, -4294967299⟩ : Decimal).normalized = ⟨1, -4294967299⟩ :=
      isNormal_of_mod _ (by decide)
    rw [(factorial_policy ⟨1, -4294967299⟩).2.2 (by rw [hnormal]; decide), hnormal]
    refine hsmall ⟨1, -3⟩ 1000 (by decide) ?_
    norm_num [toRat]

/-- A one with 4294967296 zeros is none of the whole numbers up to the limit, and has the
factorial of one. -/
theorem factorial_zeros_lost :
    (∀ n : ℕ, n ≤ factorialLimit → toRat ⟨1, -4294967296⟩ ≠ n)
      ∧ factorial ⟨1, -4294967296⟩ = .ok (ofInt (Nat.factorial 1)) := by
  refine ⟨?_, ?_⟩
  · -- The power is not worked out: the number exceeds the count of its zeros.
    intro n hn hx
    have hzeros : ((4294967296 : ℕ) : ℚ) < toRat ⟨1, -4294967296⟩ :=
      zeros_lt_toRat one_pos 4294967296
    rw [hx] at hzeros
    have hcount : 4294967296 < n := by exact_mod_cast hzeros
    have hlimit : n ≤ 3000 := hn
    omega
  · decide +kernel

end Decimal

end PocketCalc
