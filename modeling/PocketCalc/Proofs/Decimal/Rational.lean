/-
  PocketCalc.Proofs.Decimal.Rational
  ──────────────────────────────────
  **THE NUMBER THAT A DECIMAL STANDS FOR.**

  A pair of a mantissa and a scale stands for a rational number.  Normalizing
  changes the pair and keeps the number, and among the pairs of one number there
  is one normal pair.

      toRat_normalized     normalizing keeps the number
      normalized_eq_iff    same normal pair, same number
-/
import Mathlib.Algebra.Order.Field.Power
import Mathlib.Data.Rat.Cast.Order
import PocketCalc.Proofs.Decimal.Normal

namespace PocketCalc.Decimal

/-- The number that a decimal stands for. -/
def toRat (x : Decimal) : ℚ := x.mantissa * (10 : ℚ) ^ (-x.scale)

/-! ## §1. One number, many pairs. -/

theorem tenPow_cast (j : Nat) : (tenPow j : ℚ) = 10 ^ j := by
  unfold tenPow
  exact Nat.cast_pow 10 j

/-- Zeros move from the mantissa to the scale. -/
theorem toRat_mul_tenPow (c : Int) (j : Nat) (s : Int) :
    toRat ⟨c * (tenPow j : Int), s⟩ = toRat ⟨c, s - j⟩ := by
  have hten : (10 : ℚ) ≠ 0 := by norm_num
  have hsplit : (10 : ℚ) ^ (-(s - j)) = 10 ^ j * 10 ^ (-s) := by
    rw [← zpow_natCast, ← zpow_add₀ hten]
    congr 1
    omega
  unfold toRat
  dsimp only
  rw [hsplit, Int.cast_mul, Int.cast_natCast, tenPow_cast, mul_assoc]

/-- **Normalizing keeps the number.** -/
theorem toRat_normalized (x : Decimal) : x.normalized.toRat = x.toRat := by
  rcases x.normalized_cases with ⟨hzero, h⟩ | ⟨c, j, -, hm, h⟩
  · rw [h]
    unfold toRat
    rw [hzero]
    simp
  · obtain ⟨m, s⟩ := x
    dsimp only at hm h
    rw [h, hm, toRat_mul_tenPow]

/-! ## §2. The normal pair. -/

/-- A normal pair is zero at scale zero, or its mantissa does not end in a zero
digit. -/
theorem IsNormal.cases {x : Decimal} (h : x.IsNormal) : x = ⟨0, 0⟩ ∨ x.mantissa % 10 ≠ 0 := by
  rcases x.normalized_cases with ⟨-, hx⟩ | ⟨c, j, hc, -, hx⟩
  · left
    rw [← h, hx]
  · right
    rw [← h, hx]
    exact hc

theorem toRat_eq_zero_iff (x : Decimal) : x.toRat = 0 ↔ x.mantissa = 0 := by
  have hpow : (10 : ℚ) ^ (-x.scale) ≠ 0 := zpow_ne_zero _ (by norm_num)
  unfold toRat
  rw [mul_eq_zero, Int.cast_eq_zero]
  exact or_iff_left hpow

/-- Of two pairs of one number, the one of larger scale has the other mantissa
with zeros behind it. -/
theorem mantissa_eq_of_toRat {x y : Decimal} (hscale : x.scale ≤ y.scale)
    (h : x.toRat = y.toRat) :
    y.mantissa = x.mantissa * (tenPow (y.scale - x.scale).toNat : Int) := by
  have hpow : (10 : ℚ) ^ (-y.scale) ≠ 0 := zpow_ne_zero _ (by norm_num)
  have hx : x.toRat = toRat ⟨x.mantissa * (tenPow (y.scale - x.scale).toNat : Int), y.scale⟩ := by
    rw [toRat_mul_tenPow]
    unfold toRat
    dsimp only
    congr 3
    omega
  rw [hx] at h
  unfold toRat at h
  exact (Int.cast_inj.1 (mul_right_cancel₀ hpow h)).symm

/-- A normal pair has the least scale among the pairs of its number. -/
theorem IsNormal.scale_le {x y : Decimal} (hy : y.IsNormal) (hne : y.mantissa ≠ 0)
    (h : x.toRat = y.toRat) : y.scale ≤ x.scale := by
  rcases Int.lt_or_le x.scale y.scale with hlt | hle
  · rcases hy.cases with hzero | hmod
    · rw [hzero] at hne
      exact absurd rfl hne
    · have hm := mantissa_eq_of_toRat (Int.le_of_lt hlt) h
      obtain ⟨k, hk⟩ : ∃ k, (y.scale - x.scale).toNat = k + 1 :=
        ⟨(y.scale - x.scale).toNat - 1, by omega⟩
      rw [hk, tenPow_succ, Int.natCast_mul, ← Int.mul_assoc] at hm
      exact absurd hm (by omega)
  · exact hle

/-- **A number has one normal pair.** -/
theorem IsNormal.eq {x y : Decimal} (hx : x.IsNormal) (hy : y.IsNormal)
    (h : x.toRat = y.toRat) : x = y := by
  by_cases hzero : x.toRat = 0
  · have hx0 := (toRat_eq_zero_iff x).1 hzero
    have hy0 := (toRat_eq_zero_iff y).1 (h ▸ hzero)
    rw [← hx, ← hy, normalized, normalized, if_pos hx0, if_pos hy0]
  · have hx0 : x.mantissa ≠ 0 := fun h0 => hzero ((toRat_eq_zero_iff x).2 h0)
    have hy0 : y.mantissa ≠ 0 := fun h0 => hzero (h ▸ (toRat_eq_zero_iff y).2 h0)
    have hscale : x.scale = y.scale :=
      Int.le_antisymm (hx.scale_le hx0 h.symm) (hy.scale_le hy0 h)
    have hm := mantissa_eq_of_toRat (Int.le_of_eq hscale) h
    rw [hscale, Int.sub_self, Int.toNat_zero, tenPow_zero, Int.natCast_one, Int.mul_one] at hm
    obtain ⟨m, s⟩ := x
    obtain ⟨n, t⟩ := y
    dsimp only at hscale hm
    rw [hscale, hm]

/-- **Two pairs have the same normal pair if they stand for the same number.** -/
theorem normalized_eq_iff (x y : Decimal) : x.normalized = y.normalized ↔ x.toRat = y.toRat := by
  constructor
  · intro h
    rw [← toRat_normalized x, h, toRat_normalized y]
  · intro h
    refine IsNormal.eq (isNormal_normalized x) (isNormal_normalized y) ?_
    rw [toRat_normalized, toRat_normalized, h]

end PocketCalc.Decimal
