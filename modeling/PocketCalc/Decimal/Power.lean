/-
  PocketCalc.Decimal.Power
  ────────────────────────
  **POWERS OF TEN, AND CUTTING NUMBERS IN HALVES.**

  Long whole numbers are taken apart by halves: a number of level `k` has at most
  `span k = 2 ^ k` decimal digits, and one division by `tenPow (span k)` cuts a
  number of level `k + 1` into two of level `k`.  This file has the levels, and
  the first thing done with them: the trailing zero digits of a number are taken
  off by halves (`withoutZeros`), and what is left does not end in a zero digit.
-/

namespace PocketCalc

/-! ## §1. Powers of ten. -/

/-- The `k`-th power of ten. -/
def tenPow (k : Nat) : Nat := Nat.pow 10 k

theorem tenPow_zero : tenPow 0 = 1 := rfl

theorem tenPow_succ (k : Nat) : tenPow (k + 1) = tenPow k * 10 := rfl

theorem tenPow_pos (k : Nat) : 0 < tenPow k := Nat.pow_pos (by decide)

/-- Digits are cut off in one place after the other. -/
theorem tenPow_add (j k : Nat) : tenPow (j + k) = tenPow j * tenPow k := Nat.pow_add 10 j k

/-- A number has no more digits than its own value. -/
theorem lt_tenPow (k : Nat) : k < tenPow k := Nat.lt_pow_self (by decide)

theorem tenPow_mono {j k : Nat} (h : j ≤ k) : tenPow j ≤ tenPow k :=
  Nat.pow_le_pow_right (by decide) h

/-! ## §2. Levels. -/

/-- The most digits that a number of level `k` has: two to the power of `k`. -/
def span : Nat → Nat
  | 0 => 1
  | k + 1 => span k + span k

theorem lt_span (k : Nat) : k < span k := by
  induction k with
  | zero => exact Nat.zero_lt_one
  | succ k ih =>
    rw [span]
    omega

/-- The first level from `k` on that holds a number, but at most `fuel` levels
further up. -/
def levelFrom (n : Nat) : Nat → Nat → Nat
  | 0, k => k
  | fuel + 1, k => if n < tenPow (span k) then k else levelFrom n fuel (k + 1)

/-- The level of a number. -/
def level (n : Nat) : Nat := levelFrom n n 0

/-- The search ends at a level that holds the number, if the last level does. -/
theorem lt_tenPow_levelFrom (n fuel k : Nat) (h : n < tenPow (span (k + fuel))) :
    n < tenPow (span (levelFrom n fuel k)) := by
  induction fuel generalizing k with
  | zero => exact h
  | succ fuel ih =>
    rw [levelFrom]
    split
    · next hlt => exact hlt
    · exact ih (k + 1) (by rw [Nat.add_right_comm]; exact h)

/-- A number has at most as many digits as its level says. -/
theorem lt_tenPow_level (n : Nat) : n < tenPow (span (level n)) := by
  refine lt_tenPow_levelFrom n n 0 ?_
  rw [Nat.zero_add]
  exact Nat.lt_trans (lt_span n) (lt_tenPow (span n))

/-! ## §3. Trailing zeros. -/

/-- A number of level `k` without its trailing zero digits, and how many they
are. -/
def withoutZeros : Nat → Nat → Nat × Nat
  | 0, n => (n, 0)
  | k + 1, n =>
      if n % tenPow (span k) = 0 then
        let rest := withoutZeros k (n / tenPow (span k))
        (rest.1, rest.2 + span k)
      else withoutZeros k n

/-- The zero digits taken off are all that is missing. -/
theorem withoutZeros_mul (k n : Nat) :
    (withoutZeros k n).1 * tenPow (withoutZeros k n).2 = n := by
  induction k generalizing n with
  | zero => rw [withoutZeros, tenPow_zero, Nat.mul_one]
  | succ k ih =>
    rw [withoutZeros]
    split
    · next hz =>
      rw [tenPow_add, ← Nat.mul_assoc, ih]
      exact Nat.div_mul_cancel (Nat.dvd_of_mod_eq_zero hz)
    · exact ih n

/-- What is left of a nonzero number of level `k` does not end in a zero digit. -/
theorem withoutZeros_mod (k n : Nat) (h : n % tenPow (span k) ≠ 0) :
    (withoutZeros k n).1 % 10 ≠ 0 := by
  induction k generalizing n with
  | zero => exact h
  | succ k ih =>
    rw [withoutZeros]
    split
    · next hz =>
      refine ih _ fun hd => h ?_
      obtain ⟨a, ha⟩ := Nat.dvd_of_mod_eq_zero hd
      have hn := Nat.div_mul_cancel (Nat.dvd_of_mod_eq_zero hz)
      rw [span, tenPow_add, ← hn, ha, Nat.mul_right_comm]
      exact Nat.mul_mod_right _ a
    · next hz => exact ih n hz

/-- Two numbers that do not end in a zero digit are the same, and so are the
numbers of zero digits put behind them, if the outcome is. -/
theorem eq_of_mul_tenPow {a b i j : Nat} (ha : a % 10 ≠ 0) (hb : b % 10 ≠ 0)
    (h : a * tenPow i = b * tenPow j) : a = b ∧ i = j := by
  induction i generalizing j with
  | zero =>
    cases j with
    | zero => exact ⟨by simpa only [tenPow_zero, Nat.mul_one] using h, rfl⟩
    | succ j =>
      rw [tenPow_zero, Nat.mul_one, tenPow_succ, ← Nat.mul_assoc] at h
      exact absurd (by rw [h, Nat.mul_mod_left]) ha
  | succ i ih =>
    cases j with
    | zero =>
      rw [tenPow_zero, Nat.mul_one, tenPow_succ, ← Nat.mul_assoc] at h
      exact absurd (by rw [← h, Nat.mul_mod_left]) hb
    | succ j =>
      rw [tenPow_succ, tenPow_succ, ← Nat.mul_assoc, ← Nat.mul_assoc] at h
      obtain ⟨hab, hij⟩ := ih (Nat.eq_of_mul_eq_mul_right (by decide) h)
      exact ⟨hab, by rw [hij]⟩

end PocketCalc
