/-
  PocketCalc.Evaluation.Arithmetic
  ────────────────────────────────
  **THE OPERATIONS ON VALUES, AND WHY THEY REFUSE.**

  Sums, differences and products are exact; a quotient is rounded to a hundred
  decimal places.  Every result is in normal form.
-/
import PocketCalc.Formula.Basic
import PocketCalc.Decimal.Rounding

namespace PocketCalc

/-! ## §1. Refusals. -/

/-- Why a formula has no value. -/
inductive EvalError where
  /-- A divisor is exactly zero. -/
  | divisionByZero
  /-- The formula is empty, or holds no value at all. -/
  | missingFormula
  /-- An operator without operand, an unmatched bracket, a refused factorial. -/
  | invalidExpression
  deriving DecidableEq, Repr

/-- The wording in the log. -/
def EvalError.message : EvalError → String
  | .divisionByZero => "division par zéro"
  | .missingFormula => "formule manquante"
  | .invalidExpression => "expression invalide"

/-- The wording on the result screen. -/
def EvalError.shortMessage : EvalError → String
  | .divisionByZero => "Division par zéro"
  | .missingFormula => "Formule manquante"
  | .invalidExpression => "Expression invalide"

/-! ## §2. Operations. -/

/-- Decimal places of a quotient. -/
def divisionPlaces : Nat := 100

/-- The value of two operands joined by an operator; a factorial joins nothing. -/
def Operator.apply (op : Operator) (x y : Decimal) : Except EvalError Decimal :=
  match op with
  | .plus => .ok (x + y).normalized
  | .minus => .ok (x - y).normalized
  | .times => .ok (x * y).normalized
  | .divide =>
      match x.divideAt y divisionPlaces with
      | some q => .ok q.normalized
      | none => .error .divisionByZero
  | .factorial => .error .invalidExpression

/-- The largest whole number whose factorial is computed. -/
def factorialLimit : Nat := 3000

/-- The product of the numbers from one to `n`. -/
def factorialOf : Nat → Nat
  | 0 => 1
  | n + 1 => (n + 1) * factorialOf n

/-- The factorial of a whole number from zero to `factorialLimit`; every other
number is refused. -/
def Decimal.factorial (x : Decimal) : Except EvalError Decimal :=
  let v := x.normalized
  if 0 < v.scale ∨ v.mantissa < 0 then .error .invalidExpression
  else
    let n := v.mantissa.toNat * shiftFactor (-v.scale)
    if n ≤ factorialLimit then .ok (Decimal.ofInt (factorialOf n))
    else .error .invalidExpression

end PocketCalc
