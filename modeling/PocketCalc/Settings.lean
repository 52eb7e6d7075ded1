/-
  PocketCalc.Settings
  ───────────────────
  **DISPLAY SETTINGS.**

  Settings say which separators a shown number has and how many decimal places
  of it are shown.  They never touch the number itself.
-/
import PocketCalc.Evaluation.Arithmetic

namespace PocketCalc

/-- Separators and the number of decimal places shown. -/
structure Settings where
  decimalSeparator : Char := '.'
  groupSeparator : Char := ','
  shownPlaces : Nat := 10
  deriving DecidableEq, Repr

namespace Settings

/-- No more places are shown than a quotient has. -/
def maxShownPlaces : Nat := divisionPlaces

/-- Chooses the decimal separator; groups are then set apart by a point if that
is a comma, and by a comma otherwise. -/
def withDecimalSeparator (s : Settings) (c : Char) : Settings :=
  { s with decimalSeparator := c, groupSeparator := if c = ',' then '.' else ',' }

/-- Chooses how many places are shown, up to `maxShownPlaces`. -/
def withShownPlaces (s : Settings) (n : Nat) : Settings :=
  { s with shownPlaces := min n maxShownPlaces }

/-- The comma as decimal separator, or the point. -/
def withDecimalComma (s : Settings) (comma : Bool) : Settings :=
  s.withDecimalSeparator (if comma then ',' else '.')

/-- Is the comma the decimal separator? -/
def hasDecimalComma (s : Settings) : Bool := s.decimalSeparator == ','

/-- The number of places that numbers are rounded to: the number shown, taken as
a signed word of 64 bits. -/
def roundingPlaces (s : Settings) : Int := Int.bmod s.shownPlaces 18446744073709551616

end Settings

end PocketCalc
