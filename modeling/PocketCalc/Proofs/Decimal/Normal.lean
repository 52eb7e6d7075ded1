/-
  PocketCalc.Proofs.Decimal.Normal
  ────────────────────────────────
  **NORMAL DECIMALS.**

  A decimal is in normal form if normalizing leaves it as it is.  Normalizing
  twice is normalizing once, so every result that was normalized once is in
  normal form, and so is every value that an operation returns.
-/
import PocketCalc.Evaluation.Arithmetic

namespace PocketCalc

namespace Decimal

/-! ## §1. Normalizing twice. -/

/-- Is the number the normal pair of its value? -/
def IsNormal (x : Decimal) : Prop := x.normalized = x

instance (x : Decimal) : Decidable x.IsNormal := inferInstanceAs (Decidable (x.normalized = x))

/-- A number is zero, or it is a mantissa that does not end in a zero digit with
as many zeros behind it as normalizing takes off. -/
theorem normalized_cases (x : Decimal) :
    (x.mantissa = 0 ∧ x.normalized = ⟨0, 0⟩) ∨
      ∃ (c : Int) (j : Nat), c % 10 ≠ 0 ∧ x.mantissa = c * (tenPow j : Int)
        ∧ x.normalized = ⟨c, x.scale - j⟩ := by
  obtain ⟨m, s⟩ := x
  by_cases h : m = 0
  · left
    exact ⟨h, by rw [normalized, if_pos h]⟩
  · right
    obtain ⟨c, j, hc, hm⟩ := exists_mul_tenPow h
    refine ⟨c, j, hc, hm, ?_⟩
    rw [hm]
    exact normalized_mul_tenPow j s hc

/-- Zero has no zeros behind it. -/
theorem normalized_zero (s : Int) : normalized ⟨0, s⟩ = ⟨0, 0⟩ := if_pos rfl

/-- A mantissa that does not end in a zero digit is normal at every scale. -/
theorem isNormal_of_mod {c : Int} (s : Int) (hc : c % 10 ≠ 0) : IsNormal ⟨c, s⟩ := by
  have h := normalized_mul_tenPow 0 s hc
  rw [tenPow_zero] at h
  unfold IsNormal
  simpa only [Int.natCast_one, Int.mul_one, Int.natCast_zero, Int.sub_zero] using h

@[simp] theorem isNormal_normalized (x : Decimal) : x.normalized.IsNormal := by
  rcases normalized_cases x with ⟨-, h⟩ | ⟨c, j, hc, -, h⟩
  · rw [h]
    rfl
  · rw [h]
    exact isNormal_of_mod _ hc

@[simp] theorem normalized_normalized (x : Decimal) : x.normalized.normalized = x.normalized :=
  isNormal_normalized x

/-- Zero has one normal pair. -/
theorem normalized_eq_zero {x : Decimal} (h : x.normalized.mantissa = 0) :
    x.normalized = ⟨0, 0⟩ := by
  rcases normalized_cases x with ⟨-, hx⟩ | ⟨c, j, hc, -, hx⟩
  · exact hx
  · rw [hx] at h
    dsimp only at h
    omega

end Decimal

/-- Is the token in normal form, if it is a number? -/
def Token.IsNormal : Token → Prop
  | .number x => x.IsNormal
  | _ => True

/-! ## §2. The operations. -/

theorem isNormal_of_apply {op : Operator} {x y v : Decimal} (h : op.apply x y = .ok v) :
    v.IsNormal := by
  cases op with
  | divide =>
    cases hq : x.divideAt y divisionPlaces with
    | none =>
      simp only [Operator.apply, hq] at h
      cases h
    | some q =>
      simp only [Operator.apply, hq] at h
      cases h
      exact Decimal.isNormal_normalized q
  | factorial => cases h
  | _ =>
    cases h
    exact Decimal.isNormal_normalized _

/-- An operator that joins two operands refuses nothing but a zero divisor. -/
theorem apply_error {op : Operator} {x y : Decimal} {e : EvalError} (hop : op ≠ .factorial)
    (h : op.apply x y = .error e) : e = .divisionByZero := by
  cases op with
  | divide =>
    cases hq : x.divideAt y divisionPlaces with
    | none =>
      simp only [Operator.apply, hq] at h
      cases h
      rfl
    | some q =>
      simp only [Operator.apply, hq] at h
      cases h
  | factorial => exact absurd rfl hop
  | _ => cases h

/-- A factorial refuses nothing but its operand. -/
theorem factorial_error {x : Decimal} {e : EvalError} (h : x.factorial = .error e) :
    e = .invalidExpression := by
  unfold Decimal.factorial at h
  dsimp only at h
  split at h
  · cases h
    rfl
  · split at h
    · cases h
    · cases h
      rfl

/-! ## §3. Factorials. -/

theorem shiftFactor_of_lt {k : Int} (hk : 0 ≤ k) (hlt : k < shiftModulus) :
    shiftFactor k = tenPow k.toNat := by
  unfold shiftFactor
  rw [Int.emod_eq_of_lt hk hlt]

/-- A whole number other than zero is its normal mantissa with zeros behind it, and it has
fewer of them than it counts. -/
theorem normalized_natCast {k : Nat} (hk : k ≠ 0) :
    ∃ (c : Int) (j : Nat), 0 < c ∧ j < k ∧ k = c.toNat * tenPow j
      ∧ ∀ s : Int, Decimal.normalized ⟨k, s⟩ = ⟨c, s - j⟩ := by
  obtain ⟨c, j, hc, hkc⟩ := Decimal.exists_mul_tenPow (m := (k : Int)) (by omega)
  have hcpos : 0 < c := by
    rcases Int.lt_or_le 0 c with h | h
    · exact h
    · have hmul := Int.mul_nonpos_of_nonpos_of_nonneg h (Int.natCast_nonneg (tenPow j))
      omega
  have hkc' : k = c.toNat * tenPow j := by
    refine Int.natCast_inj.1 ?_
    rw [Int.natCast_mul, Int.toNat_of_nonneg (Int.le_of_lt hcpos)]
    exact hkc
  have hj : j < k := by
    rw [hkc']
    exact Nat.lt_of_lt_of_le (lt_tenPow j) (Nat.le_mul_of_pos_left _ (by omega))
  refine ⟨c, j, hcpos, hj, hkc', fun s => ?_⟩
  rw [hkc]
  exact Decimal.normalized_mul_tenPow j s hc

/-- Full words of zeros are lost: the factorial of a whole number that is not too large is
computed, with any number of such words behind it. -/
theorem factorial_of_words {x : Decimal} {k : Nat} (words : Nat) (hk : k ≤ factorialLimit)
    (h : x.normalized = Decimal.normalized ⟨k, -(words * shiftModulus)⟩) :
    x.factorial = .ok (Decimal.ofInt (factorialOf k)) := by
  unfold Decimal.factorial
  dsimp only
  rw [h]
  by_cases h0 : k = 0
  · rw [h0]
    rfl
  · obtain ⟨c, j, hc, hj, hkc, hnormal⟩ := normalized_natCast h0
    have hlimit : k ≤ 3000 := hk
    have hmodulus : (j : Int) < shiftModulus := by
      unfold shiftModulus
      omega
    -- Of the zeros those are left that belong to the number itself.
    have hshift : shiftFactor (-(-(words * shiftModulus) - (j : Int))) = tenPow j := by
      have hzeros : -(-(words * shiftModulus) - (j : Int)) = j + words * shiftModulus := by omega
      unfold shiftFactor
      rw [hzeros, Int.add_mul_emod_self_right, Int.emod_eq_of_lt (by omega) hmodulus,
        Int.toNat_natCast]
    have hscale : ¬ 0 < -(words * shiftModulus) - (j : Int) := by
      unfold shiftModulus
      omega
    rw [hnormal]
    dsimp only
    rw [if_neg (not_or.2 ⟨hscale, by omega⟩), hshift, ← hkc, if_pos hk]

/-- The factorial of a whole number that is not too large is computed. -/
theorem factorial_of_le {x : Decimal} {k : Nat} (hk : k ≤ factorialLimit)
    (h : x.normalized = (Decimal.ofInt k).normalized) :
    x.factorial = .ok (Decimal.ofInt (factorialOf k)) :=
  factorial_of_words 0 hk (h.trans (by simp [Decimal.ofInt]))

/-- A number whose factorial is computed is a whole number that is not too large, with full
words of zeros behind it. -/
theorem exists_words_of_factorial {x v : Decimal} (h : x.factorial = .ok v) :
    ∃ k words : Nat, k ≤ factorialLimit
      ∧ x.normalized = Decimal.normalized ⟨k, -(words * shiftModulus)⟩ := by
  unfold Decimal.factorial at h
  dsimp only at h
  split at h
  · cases h
  · next hsign =>
    rw [not_or, Int.not_lt, Int.not_lt] at hsign
    obtain ⟨hs, hm⟩ := hsign
    split at h
    · next hlimit =>
      refine ⟨_, (-x.normalized.scale / shiftModulus).toNat, hlimit, ?_⟩
      have hmodulus : (0 : Int) < shiftModulus := by decide
      have hwords : 0 ≤ -x.normalized.scale / shiftModulus :=
        Int.ediv_nonneg (by omega) (Int.le_of_lt hmodulus)
      have hrest : 0 ≤ -x.normalized.scale % shiftModulus :=
        Int.emod_nonneg _ (Int.ne_of_gt hmodulus)
      have hsplit := Int.emod_add_mul_ediv (-x.normalized.scale) shiftModulus
      unfold shiftFactor
      rw [Int.natCast_mul, Int.toNat_of_nonneg hm, Int.toNat_of_nonneg hwords]
      rcases x.normalized_cases with ⟨-, hx⟩ | ⟨c, j, hc, -, hx⟩
      · rw [hx]
        dsimp only
        rw [Int.zero_mul]
        rfl
      · rw [hx] at hrest hsplit ⊢
        dsimp only at hrest hsplit ⊢
        rw [Decimal.normalized_mul_tenPow _ _ hc, Int.toNat_of_nonneg hrest,
          Int.mul_comm _ shiftModulus]
        congr 1
        omega
    · cases h

/-- A number whose factorial is computed is a whole number that is not too large,
unless its shift exceeds the words that shifts are counted in. -/
theorem exists_of_factorial {x v : Decimal} (hscale : -x.normalized.scale < shiftModulus)
    (h : x.factorial = .ok v) :
    ∃ k, k ≤ factorialLimit ∧ x.normalized = (Decimal.ofInt k).normalized := by
  obtain ⟨k, words, hk, hx⟩ := exists_words_of_factorial h
  refine ⟨k, hk, hx.trans ?_⟩
  by_cases h0 : k = 0
  · rw [h0]
    exact (Decimal.normalized_zero _).trans (Decimal.normalized_zero _).symm
  · obtain ⟨c, j, -, -, -, hnormal⟩ := normalized_natCast h0
    rw [hx, hnormal] at hscale
    dsimp only at hscale
    have hwords : words = 0 := by
      unfold shiftModulus at hscale
      omega
    rw [hwords, Int.natCast_zero, Int.zero_mul]
    rfl

end PocketCalc
