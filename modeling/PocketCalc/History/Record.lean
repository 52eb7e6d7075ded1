/-
  PocketCalc.History.Record
  ─────────────────────────
  **RECORDS OF CALCULATIONS.**

  A record is a formula together with the value it had.  A history is a list of
  records, oldest first.
-/
import PocketCalc.Formula.Basic

namespace PocketCalc

/-- A formula and the value it had. -/
structure Record where
  formula : Formula
  result : Decimal
  deriving DecidableEq, Repr

/-- The records of the past, oldest first. -/
abbrev History := List Record

end PocketCalc
