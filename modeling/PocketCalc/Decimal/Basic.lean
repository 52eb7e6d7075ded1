/-
  PocketCalc.Decimal.Basic
  ────────────────────────
  **EXACT DECIMALS.**

  A decimal is a whole mantissa together with a scale: it stands for
  `mantissa · 10 ^ (-scale)`.  The same number has many such pairs, and the
  arithmetic below keeps whichever pair falls out of it.  `normalized` chooses
  one of them: the pair whose mantissa does not end in a zero digit, and
  `0 · 10 ^ 0` for zero.

  Sums, differences and products are exact: nothing is rounded here.
-/
import PocketCalc.Decimal.Power

namespace PocketCalc

/-! ## §1. The numbers. -/

/-- The number `mantissa · 10 ^ (-scale)`; a negative scale appends zeros. -/
structure Decimal where
  mantissa : Int
  scale : Int
  deriving DecidableEq, Repr, Inhabited

namespace Decimal

/-- The whole number `n`. -/
def ofInt (n : Int) : Decimal := ⟨n, 0⟩

/-! ## §2. The normal pair. -/

/-- Takes the trailing zero digits off the mantissa, lowering the scale by their
number; zero becomes `0 · 10 ^ 0`. -/
def normalized (x : Decimal) : Decimal :=
  if x.mantissa = 0 then ⟨0, 0⟩
  else
    let rest := withoutZeros (level x.mantissa.natAbs) x.mantissa.natAbs
    ⟨x.mantissa.sign * (rest.1 : Int), x.scale - rest.2⟩

theorem withoutZeros_level_mod {n : Nat} (h : n ≠ 0) : (withoutZeros (level n) n).1 % 10 ≠ 0 :=
  withoutZeros_mod _ _ (by rw [Nat.mod_eq_of_lt (lt_tenPow_level n)]; exact h)

/-- A nonzero mantissa is one that does not end in a zero digit, times a power of
ten. -/
theorem exists_mul_tenPow {m : Int} (h : m ≠ 0) :
    ∃ (c : Int) (j : Nat), c % 10 ≠ 0 ∧ m = c * (tenPow j : Int) := by
  have hn : m.natAbs ≠ 0 := Int.natAbs_ne_zero.2 h
  have hmod := withoutZeros_level_mod hn
  have hmul := withoutZeros_mul (level m.natAbs) m.natAbs
  rcases Int.natAbs_eq m with hm | hm
  · refine ⟨(withoutZeros (level m.natAbs) m.natAbs).1,
      (withoutZeros (level m.natAbs) m.natAbs).2, ?_, ?_⟩
    · omega
    · rw [← Int.natCast_mul, hmul]
      exact hm
  · refine ⟨-(withoutZeros (level m.natAbs) m.natAbs).1,
      (withoutZeros (level m.natAbs) m.natAbs).2, ?_, ?_⟩
    · omega
    · rw [Int.neg_mul, ← Int.natCast_mul, hmul]
      exact hm

/-- The normal pair has the mantissa that does not end in a zero digit. -/
theorem normalized_mul_tenPow {c : Int} (j : Nat) (s : Int) (hc : c % 10 ≠ 0) :
    normalized ⟨c * (tenPow j : Int), s⟩ = ⟨c, s - j⟩ := by
  have hc0 : c ≠ 0 := by
    intro h
    rw [h] at hc
    exact hc rfl
  have hpos : (0 : Int) < (tenPow j : Int) := Int.natCast_pos.2 (tenPow_pos j)
  have hm : c * (tenPow j : Int) ≠ 0 := Int.mul_ne_zero hc0 (Int.ne_of_gt hpos)
  have habs : (c * (tenPow j : Int)).natAbs = c.natAbs * tenPow j := by
    rw [Int.natAbs_mul, Int.natAbs_natCast]
  have hcn : c.natAbs % 10 ≠ 0 := by omega
  obtain ⟨ha, hi⟩ := eq_of_mul_tenPow (withoutZeros_level_mod (Int.natAbs_ne_zero.2 hm)) hcn
    ((withoutZeros_mul _ _).trans habs)
  have hsign : (c * (tenPow j : Int)).sign = c.sign := by
    rw [Int.sign_mul, Int.sign_eq_one_of_pos hpos, Int.mul_one]
  rw [normalized, if_neg hm]
  simp only [ha, hi, hsign, Int.sign_mul_natAbs]

/-! ## §3. Exact arithmetic. -/

/-- The mantissa of `x` written at scale `s`, for any `s` that is at least the
scale of `x`; zero is zero at every scale. -/
def mantissaAt (x : Decimal) (s : Int) : Int :=
  if x.mantissa = 0 then 0 else x.mantissa * (tenPow (s - x.scale).toNat : Int)

/-- The opposite number, at the same scale. -/
def neg (x : Decimal) : Decimal := ⟨-x.mantissa, x.scale⟩

/-- The sum, at the larger of the two scales. -/
def add (x y : Decimal) : Decimal :=
  let s := if x.scale ≤ y.scale then y.scale else x.scale
  ⟨x.mantissaAt s + y.mantissaAt s, s⟩

/-- The difference, at the larger of the two scales. -/
def sub (x y : Decimal) : Decimal := add x (neg y)

/-- The product; the scales add up. -/
def mul (x y : Decimal) : Decimal :=
  ⟨x.mantissa * y.mantissa, x.scale + y.scale⟩

instance : Neg Decimal := ⟨neg⟩
instance : Add Decimal := ⟨add⟩
instance : Sub Decimal := ⟨sub⟩
instance : Mul Decimal := ⟨mul⟩

end Decimal

end PocketCalc
