/-
  PocketCalc.Decimal.Digits
  ─────────────────────────
  **THE DIGITS OF A WHOLE NUMBER.**

  The digits are written by halves: those of the leading half without zeros in
  front, those of every other part with as many zeros as it takes to fill its
  place.  Written like this they are the digits that division by ten, digit by
  digit, would give:

      digits n = Nat.toDigits 10 n
-/
import PocketCalc.Decimal.Power

namespace PocketCalc

/-! ## §1. Writing digits. -/

/-- The `span k` digits of a number of level `k`, zeros in front included. -/
def paddedDigits : Nat → Nat → List Char
  | 0, n => [Nat.digitChar n]
  | k + 1, n =>
      paddedDigits k (n / tenPow (span k)) ++ paddedDigits k (n % tenPow (span k))

/-- The digits of a number of level `k`, without zeros in front. -/
def leadingDigits : Nat → Nat → List Char
  | 0, n => [Nat.digitChar n]
  | k + 1, n =>
      if n < tenPow (span k) then leadingDigits k n
      else leadingDigits k (n / tenPow (span k)) ++ paddedDigits k (n % tenPow (span k))

/-- The decimal digits of a whole number, most significant first. -/
def digits (n : Nat) : List Char := leadingDigits (level n) n

/-! ## §2. Digit by digit. -/

/-- The last `w` digits of a number. -/
def lastDigits : Nat → Nat → List Char
  | 0, _ => []
  | w + 1, n => lastDigits w (n / 10) ++ [Nat.digitChar (n % 10)]

/-- The last digits are those of the leading part and those of the rest. -/
theorem lastDigits_add (v w n : Nat) :
    lastDigits (v + w) n = lastDigits v (n / tenPow w) ++ lastDigits w (n % tenPow w) := by
  induction w generalizing n with
  | zero => rw [tenPow_zero, Nat.div_one, lastDigits, List.append_nil, Nat.add_zero]
  | succ w ih =>
    have hd : n / 10 / tenPow w = n / tenPow (w + 1) := by
      rw [tenPow_succ, Nat.div_div_eq_div_mul, Nat.mul_comm]
    have hm : n % tenPow (w + 1) / 10 = n / 10 % tenPow w := by
      rw [tenPow_succ, Nat.mul_comm, Nat.mod_mul_right_div_self]
    have hl : n % tenPow (w + 1) % 10 = n % 10 := by
      rw [tenPow_succ, Nat.mod_mul_left_mod]
    rw [← Nat.add_assoc, lastDigits, lastDigits, ih, hd, hm, hl, List.append_assoc]

/-- Digits written by halves are those written one by one. -/
theorem paddedDigits_eq (k n : Nat) (h : n < tenPow (span k)) :
    paddedDigits k n = lastDigits (span k) n := by
  induction k generalizing n with
  | zero =>
    have hn : n % 10 = n := Nat.mod_eq_of_lt h
    rw [paddedDigits, span, lastDigits, lastDigits, hn, List.nil_append]
  | succ k ih =>
    rw [span, tenPow_add] at h
    rw [paddedDigits, span, lastDigits_add, ih _ (Nat.div_lt_of_lt_mul h),
      ih _ (Nat.mod_lt _ (tenPow_pos _))]

theorem toDigits_append_lastDigits (w a b : Nat) (ha : 0 < a) (hb : b < tenPow w) :
    Nat.toDigits 10 a ++ lastDigits w b = Nat.toDigits 10 (a * tenPow w + b) := by
  induction w generalizing b with
  | zero =>
    have : b = 0 := by rw [tenPow_zero] at hb; omega
    rw [this, lastDigits, List.append_nil, tenPow_zero, Nat.mul_one, Nat.add_zero]
  | succ w ih =>
    have hb' : b / 10 < tenPow w := Nat.div_lt_of_lt_mul (by
      rw [tenPow_succ, Nat.mul_comm] at hb
      exact hb)
    have he : 10 * (a * tenPow w + b / 10) + b % 10 = a * tenPow (w + 1) + b := by
      rw [tenPow_succ, ← Nat.mul_assoc]
      omega
    have hpos : 0 < a * tenPow w + b / 10 :=
      Nat.lt_of_lt_of_le (Nat.mul_pos ha (tenPow_pos w)) (Nat.le_add_right _ _)
    have hlast : [Nat.digitChar (b % 10)] = Nat.toDigits 10 (b % 10) :=
      (Nat.toDigits_of_lt_base (Nat.mod_lt _ (by decide))).symm
    rw [lastDigits, ← List.append_assoc, ih _ hb', hlast,
      Nat.toDigits_append_toDigits (by decide) hpos (Nat.mod_lt _ (by decide)), he]

theorem leadingDigits_eq (k n : Nat) (h : n < tenPow (span k)) :
    leadingDigits k n = Nat.toDigits 10 n := by
  induction k generalizing n with
  | zero => exact (Nat.toDigits_of_lt_base h).symm
  | succ k ih =>
    rw [leadingDigits]
    split
    · next hlt => exact ih n hlt
    · next hge =>
      rw [span, tenPow_add] at h
      have hq : 0 < n / tenPow (span k) :=
        Nat.div_pos (Nat.le_of_not_lt hge) (tenPow_pos _)
      have hr := Nat.mod_lt n (tenPow_pos (span k))
      rw [ih _ (Nat.div_lt_of_lt_mul h), paddedDigits_eq k _ hr,
        toDigits_append_lastDigits _ _ _ hq hr, Nat.mul_comm, Nat.div_add_mod]

/-- The digits are those that division by ten gives. -/
theorem digits_eq (n : Nat) : digits n = Nat.toDigits 10 n :=
  leadingDigits_eq (level n) n (lt_tenPow_level n)

end PocketCalc
