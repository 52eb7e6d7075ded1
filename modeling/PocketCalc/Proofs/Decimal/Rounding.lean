/-
  PocketCalc.Proofs.Decimal.Rounding
  ──────────────────────────────────
  **EVERY QUOTIENT IS ROUNDED CORRECTLY.**

  The rule is said of numbers, not of pairs of a mantissa and a scale: of the multiples
  of a step the nearest one is taken, and of two that are equally near the one farther
  away from zero.  A number has at most one such multiple.  So whatever follows the rule
  depends on the number alone, and changes its sign with it.

      IsRounded.unique             the rule leaves no choice
      IsRounded.mono               it keeps the order of the numbers
      isRounded_roundedQuotient    whole quotients follow it, with step one
      divideAt_rounds              so do quotients of decimals, with a power of ten
-/
import Mathlib.Algebra.Order.Field.Basic
import Mathlib.Tactic.FieldSimp
import Mathlib.Tactic.Linarith
import Mathlib.Tactic.Positivity
import Mathlib.Tactic.Ring
import PocketCalc.Decimal.Rounding
import PocketCalc.Proofs.Decimal.Rational

namespace PocketCalc

/-! ## §1. The rule. -/

/-- The number `q` is the multiple of `step` nearest to `r`, and of two that are equally
near the one farther away from zero. -/
structure IsRounded (step r q : ℚ) : Prop where
  multiple : ∃ k : ℤ, q = k * step
  near : 2 * |r - q| ≤ step
  tie : 2 * |r - q| = step → |r| < |q|

namespace IsRounded

variable {step r r' q q' x y : ℚ}

theorem neg (h : IsRounded step r q) : IsRounded step (-r) (-q) := by
  have hdistance : |-r - -q| = |r - q| := by
    rw [← abs_neg (r - q)]
    congr 1
    ring
  obtain ⟨k, hk⟩ := h.multiple
  refine ⟨⟨-k, by rw [hk]; push_cast; ring⟩, ?_, ?_⟩
  · rw [hdistance]
    exact h.near
  · rw [hdistance, abs_neg, abs_neg]
    exact h.tie

/-- The unit chosen anew. -/
theorem scale (h : IsRounded step r q) {s : ℚ} (hs : 0 < s) :
    IsRounded (step * s) (r * s) (q * s) := by
  have hdistance : 2 * |r * s - q * s| = 2 * |r - q| * s := by
    rw [← sub_mul, abs_mul, abs_of_pos hs, mul_assoc]
  obtain ⟨k, hk⟩ := h.multiple
  refine ⟨⟨k, by rw [hk, mul_assoc]⟩, ?_, ?_⟩
  · rw [hdistance]
    exact mul_le_mul_of_nonneg_right h.near hs.le
  · intro htie
    rw [hdistance] at htie
    rw [abs_mul, abs_mul]
    exact mul_lt_mul_of_pos_right (h.tie (mul_right_cancel₀ hs.ne' htie)) (abs_pos.2 hs.ne')

/-- The greater one of two multiples is at least one step away. -/
theorem add_step_le (h : IsRounded step r q) (h' : IsRounded step r' q') (hstep : 0 < step)
    (hlt : q < q') : q + step ≤ q' := by
  obtain ⟨k, hk⟩ := h.multiple
  obtain ⟨k', hk'⟩ := h'.multiple
  have hkk : k + 1 ≤ k' := by
    rw [hk, hk'] at hlt
    exact Int.add_one_le_iff.2 (Int.cast_lt.1 (lt_of_mul_lt_mul_right hlt hstep.le))
  have hcast : (k : ℚ) + 1 ≤ k' := by exact_mod_cast hkk
  have hmul := mul_le_mul_of_nonneg_right hcast hstep.le
  rw [hk, hk']
  linarith

/-- Of two multiples that are near enough, the greater one is the next, and the number lies
half way between them: the distances add up to one step at least. -/
theorem halfway (h : IsRounded step r q) (h' : IsRounded step r q') (hstep : 0 < step)
    (hlt : q < q') : q' = q + step ∧ r = q + step / 2 := by
  have hgap := h.add_step_le h' hstep hlt
  have hq := abs_le.1 (show |r - q| ≤ step / 2 by linarith [h.near])
  have hq' := abs_le.1 (show |r - q'| ≤ step / 2 by linarith [h'.near])
  exact ⟨by linarith, by linarith⟩

/-- Of two multiples that follow the rule, neither is smaller. -/
theorem le (h : IsRounded step r q) (h' : IsRounded step r q') (hstep : 0 < step) : q' ≤ q := by
  by_contra hlt
  obtain ⟨hnext, hr⟩ := h.halfway h' hstep (not_le.1 hlt)
  have htie : |r| < |q| := h.tie (by
    rw [hr, add_sub_cancel_left, abs_of_pos (half_pos hstep)]
    ring)
  have htie' : |r| < |q'| := h'.tie (by
    rw [hr, hnext, add_sub_add_left_eq_sub, abs_of_neg (by linarith)]
    ring)
  -- One of the two lies between zero and the tie.
  obtain ⟨k, hk⟩ := h.multiple
  rcases lt_or_ge k 0 with hneg | hpos
  · have hq' : q' ≤ 0 := by
      have hle : (k : ℚ) + 1 ≤ 0 := by exact_mod_cast hneg
      have hmul := mul_nonpos_of_nonpos_of_nonneg hle hstep.le
      rw [hnext, hk]
      linarith
    rw [abs_of_nonpos hq', abs_of_nonpos (by linarith)] at htie'
    linarith
  · have hq : 0 ≤ q := by
      rw [hk]
      exact mul_nonneg (by exact_mod_cast hpos) hstep.le
    rw [abs_of_nonneg hq, abs_of_nonneg (by linarith)] at htie
    linarith

/-- **The rule leaves no choice.** -/
theorem unique (h : IsRounded step r q) (h' : IsRounded step r q') (hstep : 0 < step) : q = q' :=
  le_antisymm (h'.le h hstep) (h.le h' hstep)

/-- **A greater number has no smaller rounding.** -/
theorem mono (h : IsRounded step r q) (h' : IsRounded step r' q') (hstep : 0 < step)
    (hle : r ≤ r') : q ≤ q' := by
  by_contra hnot
  have hlt := not_le.1 hnot
  -- The two multiples are one step apart, so there is room for one number only.
  have hgap := h'.add_step_le h hstep hlt
  have hq := abs_le.1 (show |r - q| ≤ step / 2 by linarith [h.near])
  have hq' := abs_le.1 (show |r' - q'| ≤ step / 2 by linarith [h'.near])
  obtain rfl : r = r' := le_antisymm hle (by linarith)
  exact hlt.ne' (h.unique h' hstep)

/-- A multiple is its own rounding. -/
theorem self (hmultiple : ∃ k : ℤ, r = k * step) (hstep : 0 < step) : IsRounded step r r where
  multiple := hmultiple
  near := by
    rw [sub_self, abs_zero, mul_zero]
    exact hstep.le
  tie := by
    rw [sub_self, abs_zero, mul_zero]
    exact fun htie => absurd htie hstep.ne

/-- The rule for a quotient, without a division in the distance. -/
theorem near_quotient (h : IsRounded step (x / y) q) (hy : y ≠ 0) :
    2 * |x - q * y| ≤ |y| * step ∧ (2 * |x - q * y| = |y| * step → |x / y| < |q|) := by
  have hdistance : 2 * |x - q * y| = |y| * (2 * |x / y - q|) := by
    have hmul : x - q * y = y * (x / y - q) := by
      field_simp
    rw [hmul, abs_mul]
    ring
  rw [hdistance]
  refine ⟨mul_le_mul_of_nonneg_left h.near (abs_nonneg y), fun htie => h.tie ?_⟩
  exact mul_left_cancel₀ (abs_ne_zero.2 hy) htie

end IsRounded

/-! ## §2. Whole quotients. -/

/-- The quotient of two natural numbers: the remainder tells which neighbour is nearer. -/
theorem isRounded_natural (a : ℕ) {b : ℕ} (hb : 0 < b) :
    IsRounded 1 (a / b) (if b ≤ 2 * (a % b) then a / b + 1 else a / b : ℕ) := by
  have hb' : (0 : ℚ) < b := by exact_mod_cast hb
  -- The quotient is its whole part and a rest below one, and the rest decides.
  have hvalue : (a : ℚ) / b = (a / b : ℕ) + (a % b : ℕ) / (b : ℚ) := by
    have hsplit : (a : ℚ) = b * (a / b : ℕ) + (a % b : ℕ) := by
      exact_mod_cast (Nat.div_add_mod a b).symm
    rw [hsplit]
    field_simp
  have hrest : ((a % b : ℕ) : ℚ) / b < 1 := by
    rw [div_lt_one hb']
    exact_mod_cast Nat.mod_lt a hb
  have hpos : (0 : ℚ) ≤ (a % b : ℕ) / (b : ℚ) := by positivity
  have hwhole : (0 : ℚ) ≤ (a / b : ℕ) := Nat.cast_nonneg _
  rw [hvalue]
  split
  · next hup =>
    have hhalf : 1 ≤ 2 * (((a % b : ℕ) : ℚ) / b) := by
      rw [← mul_div_assoc, one_le_div hb']
      exact_mod_cast hup
    refine ⟨⟨((a / b + 1 : ℕ) : ℤ), by rw [Int.cast_natCast, mul_one]⟩, ?_, fun _ => ?_⟩
    · push_cast
      rw [abs_of_neg (by linarith)]
      linarith
    · push_cast
      rw [abs_of_nonneg (by linarith), abs_of_nonneg (by linarith)]
      linarith
  · next hdown =>
    have hhalf : 2 * (((a % b : ℕ) : ℚ) / b) < 1 := by
      rw [← mul_div_assoc, div_lt_one hb']
      exact_mod_cast not_le.1 hdown
    have hdistance : |((a / b : ℕ) : ℚ) + (a % b : ℕ) / (b : ℚ) - (a / b : ℕ)|
        = (a % b : ℕ) / (b : ℚ) := by
      rw [add_sub_cancel_left, abs_of_nonneg hpos]
    refine ⟨⟨((a / b : ℕ) : ℤ), by rw [Int.cast_natCast, mul_one]⟩, ?_, fun htie => ?_⟩
    · rw [hdistance]
      exact hhalf.le
    · rw [hdistance] at htie
      exact absurd htie hhalf.ne

/-- **The quotient of two whole numbers is rounded**, whatever their signs. -/
theorem isRounded_roundedQuotient (num : ℤ) {den : ℤ} (hden : den ≠ 0) :
    IsRounded 1 (num / den) (roundedQuotient num den) := by
  have hnatural := isRounded_natural num.natAbs (Int.natAbs_pos.2 hden)
  rw [Nat.cast_natAbs, Nat.cast_natAbs, Int.cast_abs, Int.cast_abs] at hnatural
  unfold roundedQuotient
  dsimp only
  generalize (if den.natAbs ≤ 2 * (num.natAbs % den.natAbs) then num.natAbs / den.natAbs + 1
    else num.natAbs / den.natAbs) = q at hnatural ⊢
  -- The signs of the operands decide the sign of the quotient.
  rcases lt_or_ge num 0 with hn | hn
  · have hn' : (num : ℚ) < 0 := by exact_mod_cast hn
    rw [abs_of_neg hn'] at hnatural
    rcases lt_or_ge den 0 with hd | hd
    · have hd' : (den : ℚ) < 0 := by exact_mod_cast hd
      rw [abs_of_neg hd', neg_div_neg_eq] at hnatural
      rw [if_pos (by simp [hn, hd]), Int.cast_natCast]
      exact hnatural
    · have hd' : (0 : ℚ) ≤ den := by exact_mod_cast hd
      have h := hnatural.neg
      rw [abs_of_nonneg hd', neg_div, neg_neg] at h
      rw [if_neg (by simp [hn, hd]), Int.cast_neg, Int.cast_natCast]
      exact h
  · have hn' : (0 : ℚ) ≤ num := by exact_mod_cast hn
    rw [abs_of_nonneg hn'] at hnatural
    rcases lt_or_ge den 0 with hd | hd
    · have hd' : (den : ℚ) < 0 := by exact_mod_cast hd
      have h := hnatural.neg
      rw [abs_of_neg hd', div_neg, neg_neg] at h
      rw [if_neg (by simp [hn, hd]), Int.cast_neg, Int.cast_natCast]
      exact h
    · have hd' : (0 : ℚ) ≤ den := by exact_mod_cast hd
      rw [abs_of_nonneg hd'] at hnatural
      rw [if_pos (by simp [hn.not_gt, hd.not_gt]), Int.cast_natCast]
      exact hnatural

/-- The rule in whole numbers. -/
theorem roundedQuotient_near (num : ℤ) {den : ℤ} (hden : den ≠ 0) :
    2 * |num - roundedQuotient num den * den| ≤ |den|
      ∧ (2 * |num - roundedQuotient num den * den| = |den| →
          |num| < |roundedQuotient num den * den|) := by
  have hden' : (den : ℚ) ≠ 0 := Int.cast_ne_zero.2 hden
  obtain ⟨hnear, htie⟩ := (isRounded_roundedQuotient num hden).near_quotient hden'
  rw [mul_one, abs_div, div_lt_iff₀ (abs_pos.2 hden'), ← abs_mul] at htie
  rw [mul_one] at hnear
  exact ⟨by exact_mod_cast hnear, by exact_mod_cast htie⟩

/-- A sign goes through to the quotient. -/
theorem roundedQuotient_neg (num : ℤ) {den : ℤ} (hden : den ≠ 0) :
    roundedQuotient (-num) den = -roundedQuotient num den
      ∧ roundedQuotient num (-den) = -roundedQuotient num den := by
  have hopposite := (isRounded_roundedQuotient num hden).neg
  have hnum := isRounded_roundedQuotient (-num) hden
  have hden' := isRounded_roundedQuotient num (neg_ne_zero.2 hden)
  rw [Int.cast_neg, neg_div] at hnum
  rw [Int.cast_neg, div_neg] at hden'
  exact ⟨by exact_mod_cast hnum.unique hopposite one_pos,
    by exact_mod_cast hden'.unique hopposite one_pos⟩

/-! ## §3. Quotients of decimals. -/

namespace Decimal

theorem shiftFactor_cast {k : ℤ} (hk : 0 ≤ k) (hlt : k < shiftModulus) :
    (shiftFactor k : ℚ) = 10 ^ k := by
  rw [shiftFactor_of_lt hk hlt, tenPow_cast, ← zpow_natCast, Int.toNat_of_nonneg hk]

theorem toRat_neg (x : Decimal) : (-x).toRat = -x.toRat := by
  show ((-x.mantissa : ℤ) : ℚ) * 10 ^ (-x.scale) = -(x.mantissa * 10 ^ (-x.scale))
  rw [Int.cast_neg, neg_mul]

theorem IsNormal.neg {x : Decimal} (h : x.IsNormal) : (-x).IsNormal := by
  rcases h.cases with rfl | hmod
  · rfl
  · refine isNormal_of_mod _ ?_
    show -x.mantissa % 10 ≠ 0
    omega

/-- The quotient of two decimals in units of the last place is that of two whole numbers. -/
theorem toRat_div_toRat (x y : Decimal) (places : ℤ) :
    x.toRat / y.toRat * 10 ^ places
      = x.mantissa / y.mantissa * 10 ^ (y.scale + places - x.scale) := by
  have hten : (10 : ℚ) ≠ 0 := by norm_num
  unfold toRat
  rw [zpow_sub₀ hten, zpow_add₀ hten, zpow_neg, zpow_neg]
  field_simp

variable {x y : Decimal} {places shift : ℤ}

/-- The shift goes to the numerator, or as its opposite to the denominator. -/
theorem isRounded_shifted (x : Decimal) (hy : y.mantissa ≠ 0) (hshift : |shift| < shiftModulus) :
    IsRounded 1 (x.mantissa / y.mantissa * 10 ^ shift)
      (if 0 ≤ shift then roundedQuotient (x.mantissa * (shiftFactor shift : ℤ)) y.mantissa
        else roundedQuotient x.mantissa (y.mantissa * (shiftFactor (-shift) : ℤ)) : ℤ) := by
  obtain ⟨hlower, hupper⟩ := abs_lt.1 hshift
  split
  · next hpos =>
    have h := isRounded_roundedQuotient (x.mantissa * (shiftFactor shift : ℤ)) hy
    rwa [Int.cast_mul, Int.cast_natCast, shiftFactor_cast hpos hupper, mul_div_right_comm] at h
  · next hneg =>
    have hpos : 0 ≤ -shift := by omega
    have hfactor : (shiftFactor (-shift) : ℚ) = (10 ^ shift)⁻¹ := by
      rw [shiftFactor_cast hpos (by omega), zpow_neg]
    have hden : y.mantissa * (shiftFactor (-shift) : ℤ) ≠ 0 := by
      refine mul_ne_zero hy ?_
      rw [shiftFactor_of_lt hpos (by omega)]
      exact_mod_cast (tenPow_pos _).ne'
    have h := isRounded_roundedQuotient x.mantissa hden
    rwa [Int.cast_mul, Int.cast_natCast, hfactor, div_mul_eq_div_div, div_inv_eq_mul] at h

/-- **There is a quotient by every number but zero, and it follows the rule.** -/
theorem divideAt_cases (x y : Decimal) (hshift : |y.scale + places - x.scale| < shiftModulus) :
    (y.toRat = 0 ∧ x.divideAt y places = none)
      ∨ y.toRat ≠ 0 ∧ ∃ q, x.divideAt y places = some q ∧ q.IsNormal
          ∧ IsRounded (10 ^ (-places)) (x.toRat / y.toRat) q.toRat := by
  have hten : (0 : ℚ) < 10 := by norm_num
  unfold divideAt
  by_cases hy : y.mantissa = 0
  · rw [if_pos hy]
    exact .inl ⟨(toRat_eq_zero_iff y).2 hy, rfl⟩
  · rw [if_neg hy]
    refine .inr ⟨fun h => hy ((toRat_eq_zero_iff y).1 h), _, rfl, isNormal_normalized _, ?_⟩
    -- In units of the last place the quotient is a whole one.
    have hscaled := (isRounded_shifted x hy hshift).scale (zpow_pos hten (-places))
    rw [one_mul, ← toRat_div_toRat, mul_assoc, ← zpow_add₀ hten.ne', add_neg_cancel, zpow_zero,
      mul_one] at hscaled
    rw [toRat_normalized]
    exact hscaled

/-- There is no other normal decimal that follows the rule. -/
theorem divideAt_eq_some {q : Decimal} (hshift : |y.scale + places - x.scale| < shiftModulus)
    (hy : y.toRat ≠ 0) (hnormal : q.IsNormal)
    (hrounded : IsRounded (10 ^ (-places)) (x.toRat / y.toRat) q.toRat) :
    x.divideAt y places = some q := by
  rcases divideAt_cases x y hshift with ⟨hzero, -⟩ | ⟨-, p, hp, hpnormal, hprounded⟩
  · exact absurd hzero hy
  · have hstep : (0 : ℚ) < 10 ^ (-places) := zpow_pos (by norm_num) _
    rw [hp, hpnormal.eq hnormal (hprounded.unique hrounded hstep)]

theorem divideAt_eq_none (x : Decimal) (places : ℤ) (hy : y.toRat = 0) :
    x.divideAt y places = none := by
  unfold divideAt
  rw [if_pos ((toRat_eq_zero_iff y).1 hy)]

/-- The quotient depends on the two numbers alone. -/
theorem divideAt_congr {x' y' : Decimal} (hshift : |y.scale + places - x.scale| < shiftModulus)
    (hshift' : |y'.scale + places - x'.scale| < shiftModulus) (hx : x'.toRat = x.toRat)
    (hy : y'.toRat = y.toRat) : x'.divideAt y' places = x.divideAt y places := by
  rcases divideAt_cases x y hshift with ⟨hzero, hnone⟩ | ⟨hne, q, hq, hnormal, hrounded⟩
  · rw [hnone, divideAt_eq_none x' places (hy.trans hzero)]
  · rw [← hx, ← hy] at hrounded
    rw [hq]
    exact divideAt_eq_some hshift' (hy ▸ hne) hnormal hrounded

/-- The quotient by the opposite, and that of the opposite, is the opposite one. -/
theorem divideAt_neg (hshift : |y.scale + places - x.scale| < shiftModulus) :
    (-x).divideAt y places = (x.divideAt y places).map (- ·)
      ∧ x.divideAt (-y) places = (x.divideAt y places).map (- ·) := by
  rcases divideAt_cases x y hshift with ⟨hzero, hnone⟩ | ⟨hne, q, hq, hnormal, hrounded⟩
  · have hzero' : (-y).toRat = 0 := by rw [toRat_neg, hzero, neg_zero]
    rw [hnone, divideAt_eq_none (-x) places hzero, divideAt_eq_none x places hzero']
    exact ⟨rfl, rfl⟩
  · have hopposite := hrounded.neg
    rw [← toRat_neg] at hopposite
    rw [hq]
    constructor
    · refine divideAt_eq_some hshift hne hnormal.neg ?_
      rw [toRat_neg x, neg_div]
      exact hopposite
    · refine divideAt_eq_some hshift ?_ hnormal.neg ?_
      · rw [toRat_neg]
        exact neg_ne_zero.2 hne
      · rw [toRat_neg y, div_neg]
        exact hopposite

/-- **EVERY QUOTIENT IS ROUNDED CORRECTLY.**  Two decimals are divided to a number of
places that may be negative, and the shift between their scales fits in 32 bits.  There
is no quotient exactly if the divisor is zero.  Otherwise it is in normal form, a
multiple of the unit of the last place, off by half that unit at most, and if by half of
it, away from zero.  So it depends on the two numbers alone, and changes its sign with
either of them.  The same holds of whole numbers, with one as the unit. -/
theorem divideAt_rounds (x y : Decimal) (places : ℤ)
    (hshift : |y.scale + places - x.scale| < shiftModulus) :
    (x.divideAt y places = none ↔ y.toRat = 0)
      ∧ (∀ q, x.divideAt y places = some q →
          q.IsNormal ∧ (∃ k : ℤ, q.toRat = k * 10 ^ (-places))
            ∧ 2 * |x.toRat - q.toRat * y.toRat| ≤ |y.toRat| * 10 ^ (-places)
            ∧ (2 * |x.toRat - q.toRat * y.toRat| = |y.toRat| * 10 ^ (-places) →
                |x.toRat / y.toRat| < |q.toRat|))
      ∧ (∀ x' y' : Decimal, |y'.scale + places - x'.scale| < shiftModulus →
          x'.toRat = x.toRat → y'.toRat = y.toRat →
            x'.divideAt y' places = x.divideAt y places)
      ∧ (-x).divideAt y places = (x.divideAt y places).map (- ·)
      ∧ x.divideAt (-y) places = (x.divideAt y places).map (- ·)
      ∧ ∀ num den : ℤ, den ≠ 0 →
          2 * |num - roundedQuotient num den * den| ≤ |den|
            ∧ (2 * |num - roundedQuotient num den * den| = |den| →
                |num| < |roundedQuotient num den * den|)
            ∧ roundedQuotient (-num) den = -roundedQuotient num den
            ∧ roundedQuotient num (-den) = -roundedQuotient num den := by
  obtain ⟨hnegx, hnegy⟩ := divideAt_neg hshift
  refine ⟨?_, ?_, fun x' y' hshift' hx hy => divideAt_congr hshift hshift' hx hy, hnegx, hnegy, ?_⟩
  · refine ⟨fun hnone => ?_, divideAt_eq_none x places⟩
    rcases divideAt_cases x y hshift with ⟨hzero, -⟩ | ⟨-, q, hq, -⟩
    · exact hzero
    · exact nomatch hnone.symm.trans hq
  · intro q hq
    rcases divideAt_cases x y hshift with ⟨-, hnone⟩ | ⟨hne, p, hp, hnormal, hrounded⟩
    · exact nomatch hnone.symm.trans hq
    · obtain rfl : p = q := Option.some.inj (hp.symm.trans hq)
      exact ⟨hnormal, hrounded.multiple, hrounded.near_quotient hne⟩
  · intro num den hden
    obtain ⟨hnear, htie⟩ := roundedQuotient_near num hden
    exact ⟨hnear, htie, roundedQuotient_neg num hden⟩

/-- One divided by minus eight is `-0.125`, which lies half way between `-0.12` and
`-0.13`.  To two places it goes away from zero, whatever pairs the two numbers have. -/
theorem divideAt_rounds_tie :
    let x : Decimal := ⟨100, 2⟩
    let y : Decimal := ⟨-80, 1⟩
    let q : Decimal := ⟨-13, 2⟩
    |y.scale + 2 - x.scale| < shiftModulus ∧ x.divideAt y 2 = some q
      ∧ 2 * |x.toRat - q.toRat * y.toRat| = |y.toRat| * 10 ^ (-2 : ℤ)
      ∧ |x.toRat / y.toRat| < |q.toRat|
      ∧ (⟨1, 0⟩ : Decimal).divideAt ⟨-8, 0⟩ 2 = some q
      ∧ (-x).divideAt y 2 = some ⟨13, 2⟩ := by
  intro x y q
  have hshift : |y.scale + 2 - x.scale| < shiftModulus := by decide
  have hx : x.toRat = 1 := by norm_num [x, toRat]
  have hy : y.toRat = -8 := by norm_num [y, toRat]
  have hq : q.toRat = -13 / 100 := by norm_num [q, toRat]
  have hquotient : x.divideAt y 2 = some q := by decide +kernel
  have htie : 2 * |x.toRat - q.toRat * y.toRat| = |y.toRat| * 10 ^ (-2 : ℤ) := by
    rw [hx, hy, hq]
    norm_num [abs_of_nonneg, abs_of_neg]
  obtain ⟨-, hrounds, hsame, hneg, -, -⟩ := divideAt_rounds x y 2 hshift
  obtain ⟨-, -, -, haway⟩ := hrounds q hquotient
  refine ⟨hshift, hquotient, htie, haway htie, ?_, ?_⟩
  · rw [hsame ⟨1, 0⟩ ⟨-8, 0⟩ (by decide) (by rw [hx]; norm_num [toRat])
      (by rw [hy]; norm_num [toRat]), hquotient]
  · rw [hneg, hquotient]
    rfl

end Decimal

end PocketCalc
