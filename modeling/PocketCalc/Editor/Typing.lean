/-
  PocketCalc.Editor.Typing
  ────────────────────────
  **THE KEYS THAT APPEND.**

  - A value right behind another value is multiplied with it: the product sign
    is implied (2π, (1)(2), 3!4).
  - A sign replaces a final plus or minus.  Behind a product or quotient sign a
    minus opens a bracket, any other sign replaces it.  At the start of the
    formula or of a bracket only a minus is accepted.
  - A factorial is accepted only right behind a number being typed.
-/
import PocketCalc.Editor.Basic

namespace PocketCalc.Editor

/-! ## §1. Numbers. -/

/-- A digit key.  What is no decimal digit is ignored; a lone zero gives way to
the digit. -/
def typeDigit (e : Editor) (d : Nat) : Editor :=
  if 9 < d then e
  else
    let e := e.restartIfEvaluated.multiplyBehindAppended.dropPendingPoint
    let e := if e.typing then e.pop else { e with typing := true, typed := [] }
    let kept := if e.typed = ['0'] then [] else e.typed
    { e with typed := kept ++ [Nat.digitChar d] }.pushTyped

/-- The decimal point.  A number has one point at most; without a digit in front
of it, a zero is supplied. -/
def typePoint (e : Editor) : Editor :=
  let e := e.restartIfEvaluated
  if e.hasPoint || e.typed.contains '.' then e
  else
    let e :=
      if e.typing then e.pop
      else { e.multiplyBehindAppended with typing := true, typed := ['0'] }
    { e with typed := e.typed ++ ['.'], hasPoint := true, pointPending := true }.pushTyped.push .point

/-! ## §2. Operators. -/

/-- Is the token a plus or minus sign? -/
def isSign : Token → Bool
  | .operator op => op.isAdditive
  | _ => false

/-- The formula without its final plus and minus signs. -/
def withoutFinalSigns (f : Formula) : Formula := (f.reverse.dropWhile isSign).reverse

/-- Puts an operator that joins two operands at the end of the formula. -/
def placeOperator (e : Editor) (op : Operator) : Editor :=
  let base := withoutFinalSigns e.formula
  match base.getLast? with
  | some (.operator .times) | some (.operator .divide) =>
      if op = .minus then
        { e with
          formula := base ++ [.leftBracket, .operator op], openBrackets := e.openBrackets + 1 }
      else { e with formula := base.dropLast ++ [.operator op] }
  | none | some .leftBracket =>
      if op = .minus then { e with formula := base ++ [.operator op] }
      else { e with formula := base }
  | some _ => { e with formula := base ++ [.operator op] }

/-- The factorial key. -/
def typeFactorial (e : Editor) : Editor :=
  if e.appended = .factorial || !e.typing then e
  else (e.closeNumber.push (.operator .factorial)).note .factorial

/-- An operator key. -/
def typeOperator (e : Editor) (op : Operator) : Editor :=
  if op = .factorial then e.typeFactorial
  else (e.closeNumber.note .other).placeOperator op

/-! ## §3. Constants and brackets. -/

/-- The key of a constant. -/
def typeConstant (e : Editor) (c : Constant) : Editor :=
  (e.closeNumber.multiplyBehindValue.push (.constant c)).note .constant

/-- The left bracket. -/
def typeLeftBracket (e : Editor) : Editor :=
  let e := e.closeNumber.multiplyBehindValue.push .leftBracket
  { e with openBrackets := e.openBrackets + 1, appended := .other }

/-- The right bracket; without an open bracket it is ignored. -/
def typeRightBracket (e : Editor) : Editor :=
  if e.openBrackets = 0 then e
  else
    let e := e.closeNumber
    { e.push .rightBracket with openBrackets := e.openBrackets - 1, appended := .rightBracket }

end PocketCalc.Editor
