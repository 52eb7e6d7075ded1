/-
  PocketCalc.Proofs.Decimal.Shortening
  ────────────────────────────────────
  **SHORTENED NUMBERS ARE ROUNDED.**

  A number that has more decimal places than are wanted is divided by a power of ten, any
  other is left as it is.  Both follow the one rule of rounding, for a number that is short
  enough is a multiple of the unit of the last place already.  So the two cases never
  disagree: not on two pairs of one number, and not on two numbers that lie close together.

      isRounded_roundAt    a shortened number is rounded, and so is one that is left alone
      roundAt_roundAt      what was shortened is short enough
      roundAt_neg          a sign goes through
      roundAt_mono         the order of two numbers is kept, whatever pairs they have
      roundAt_rounds       all of it together
-/
import PocketCalc.Proofs.Decimal.Rounding

namespace PocketCalc.Decimal

variable {x y : Decimal} {places : ℤ}

/-! ## §1. The two cases. -/

theorem roundAt_of_le (h : x.scale ≤ places) : x.roundAt places = x := if_pos h

theorem roundAt_of_lt (h : places < x.scale) :
    x.roundAt places
      = ⟨roundedQuotient x.mantissa (shiftFactor (x.scale - places) : ℤ), places⟩ :=
  if_neg (not_le.2 h)

/-- No more places are left than are wanted. -/
theorem scale_roundAt_le (x : Decimal) (places : ℤ) : (x.roundAt places).scale ≤ places := by
  rcases le_or_gt x.scale places with h | h
  · rw [roundAt_of_le h]
    exact h
  · rw [roundAt_of_lt h]

/-- The factor of a shift is never zero, so there is a quotient by it. -/
theorem shiftFactor_ne_zero (k : ℤ) : (shiftFactor k : ℤ) ≠ 0 := by
  unfold shiftFactor
  exact_mod_cast (tenPow_pos _).ne'

/-- A number that is short enough is a multiple of the unit of the last place. -/
theorem exists_multiple (h : x.scale ≤ places) : ∃ k : ℤ, x.toRat = k * 10 ^ (-places) := by
  refine ⟨x.mantissa * (tenPow (places - x.scale).toNat : ℤ), ?_⟩
  have hscale : places - ((places - x.scale).toNat : ℤ) = x.scale := by omega
  have hzeros := toRat_mul_tenPow x.mantissa (places - x.scale).toNat places
  rw [hscale] at hzeros
  exact hzeros.symm

/-- In units of the last place a number is a quotient by the factor of the shift. -/
theorem toRat_eq_quotient (h : places < x.scale) (hshift : x.scale - places < shiftModulus) :
    x.toRat = x.mantissa / ((shiftFactor (x.scale - places) : ℤ) : ℚ) * 10 ^ (-places) := by
  have hten : (10 : ℚ) ≠ 0 := by norm_num
  rw [Int.cast_natCast, shiftFactor_cast (by omega) hshift, div_eq_mul_inv, ← zpow_neg, mul_assoc,
    ← zpow_add₀ hten]
  unfold toRat
  congr 2
  omega

/-- **A shortened number is rounded**, and a number that is left alone is its own
rounding. -/
theorem isRounded_roundAt (x : Decimal) (hshift : x.scale - places < shiftModulus) :
    IsRounded (10 ^ (-places)) x.toRat (x.roundAt places).toRat := by
  have hstep : (0 : ℚ) < 10 ^ (-places) := zpow_pos (by norm_num) _
  rcases le_or_gt x.scale places with h | h
  · rw [roundAt_of_le h]
    exact IsRounded.self (exists_multiple h) hstep
  · have hquotient :=
      (isRounded_roundedQuotient x.mantissa (shiftFactor_ne_zero (x.scale - places))).scale hstep
    rw [one_mul, ← toRat_eq_quotient h hshift] at hquotient
    rw [roundAt_of_lt h]
    exact hquotient

/-! ## §2. What follows from the rule. -/

/-- **What was shortened is short enough.** -/
theorem roundAt_roundAt (x : Decimal) (places : ℤ) :
    (x.roundAt places).roundAt places = x.roundAt places :=
  roundAt_of_le (scale_roundAt_le x places)

/-- **A sign goes through.** -/
theorem roundAt_neg (x : Decimal) (places : ℤ) : (-x).roundAt places = -x.roundAt places := by
  rcases le_or_gt x.scale places with h | h
  · rw [roundAt_of_le h]
    exact roundAt_of_le h
  · have hneg : places < (-x).scale := h
    have hquotient :=
      (roundedQuotient_neg x.mantissa (shiftFactor_ne_zero (x.scale - places))).1
    rw [roundAt_of_lt h, roundAt_of_lt hneg]
    show (⟨roundedQuotient (-x.mantissa) _, places⟩ : Decimal) = ⟨-roundedQuotient _ _, places⟩
    rw [← hquotient]
    rfl

/-- **The order of two numbers is kept**, whatever pairs they have. -/
theorem roundAt_mono (hx : x.scale - places < shiftModulus) (hy : y.scale - places < shiftModulus)
    (h : x.toRat ≤ y.toRat) : (x.roundAt places).toRat ≤ (y.roundAt places).toRat :=
  (isRounded_roundAt x hx).mono (isRounded_roundAt y hy) (zpow_pos (by norm_num) _) h

/-- **A SHORTENED NUMBER IS THE NEAREST ONE THAT IS SHORT ENOUGH.**  A decimal is shortened
to a number of places that may be negative, by fewer places than a word can count.  One
that is short enough is left as it is.  The outcome is a multiple of the unit of the last
place, off by half that unit at most, and if by half of it, away from zero.  So shortening
twice is shortening once, a sign goes through, and the order of two numbers is kept
whatever pairs they have; two pairs of one number are shortened to the same number. -/
theorem roundAt_rounds (x : Decimal) (places : ℤ) (hshift : x.scale - places < shiftModulus) :
    let r := x.roundAt places
    (x.scale ≤ places → r = x)
      ∧ (∃ k : ℤ, r.toRat = k * 10 ^ (-places))
      ∧ 2 * |x.toRat - r.toRat| ≤ 10 ^ (-places)
      ∧ (2 * |x.toRat - r.toRat| = 10 ^ (-places) → |x.toRat| < |r.toRat|)
      ∧ r.roundAt places = r
      ∧ (-x).roundAt places = -r
      ∧ (∀ y : Decimal, y.scale - places < shiftModulus → x.toRat ≤ y.toRat →
          r.toRat ≤ (y.roundAt places).toRat)
      ∧ ∀ y : Decimal, y.scale - places < shiftModulus → x.toRat = y.toRat →
          r.toRat = (y.roundAt places).toRat := by
  intro r
  have hrounded : IsRounded (10 ^ (-places)) x.toRat r.toRat := isRounded_roundAt x hshift
  refine ⟨roundAt_of_le, hrounded.multiple, hrounded.near, hrounded.tie, roundAt_roundAt x places,
    roundAt_neg x places, fun y hy h => roundAt_mono hshift hy h, fun y hy h => ?_⟩
  exact le_antisymm (roundAt_mono hshift hy h.le) (roundAt_mono hy hshift h.ge)

/-- To two places, minus a hundred and twenty-five thousandths lies half way between `-0.13`
and `-0.12`, and goes away from zero.  The same number with one more zero follows, its
opposite goes the other way, and `-0.12`, which is greater and short enough already, stays
above it. -/
theorem roundAt_rounds_tie :
    let x : Decimal := ⟨-125, 3⟩
    let y : Decimal := ⟨-12, 2⟩
    let r : Decimal := ⟨-13, 2⟩
    x.scale - 2 < shiftModulus ∧ x.roundAt 2 = r
      ∧ 2 * |x.toRat - r.toRat| = 10 ^ (-2 : ℤ) ∧ |x.toRat| < |r.toRat|
      ∧ (-x).roundAt 2 = ⟨13, 2⟩
      ∧ (roundAt ⟨-1250, 4⟩ 2).toRat = r.toRat
      ∧ y.roundAt 2 = y ∧ r.toRat ≤ y.toRat := by
  intro x y r
  have hshift : x.scale - 2 < shiftModulus := by decide
  have hx : x.toRat = -125 / 1000 := by norm_num [x, toRat]
  have hr : r.toRat = -13 / 100 := by norm_num [r, toRat]
  have hshort : x.roundAt 2 = r := by decide +kernel
  have htie : 2 * |x.toRat - r.toRat| = 10 ^ (-2 : ℤ) := by
    rw [hx, hr]
    norm_num [abs_of_nonneg, abs_of_neg]
  obtain ⟨-, -, -, haway, -, hneg, hmono, hsame⟩ := roundAt_rounds x 2 hshift
  rw [hshort] at haway hneg hmono hsame
  have hy : y.roundAt 2 = y := roundAt_of_le (by decide)
  have hle := hmono y (by decide) (by rw [hx]; norm_num [y, toRat])
  rw [hy] at hle
  exact ⟨hshift, hshort, htie, haway htie, hneg,
    (hsame ⟨-1250, 4⟩ (by decide) (by rw [hx]; norm_num [toRat])).symm, hy, hle⟩

end PocketCalc.Decimal
