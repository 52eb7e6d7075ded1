/-
  PocketCalc.Editor.Evaluating
  ────────────────────────────
  **EQUALS AND RECALL.**

  Equals completes the formula: it ends the number being typed and closes the
  brackets that are still open.  Recall puts a formula of the history in place of
  the one that is shown.
-/
import PocketCalc.Editor.Basic

namespace PocketCalc.Editor

/-- Completes the formula for evaluation.  A formula that was just evaluated is
evaluated once more as it is. -/
def complete (e : Editor) : Editor :=
  let e := if e.evaluated then e else e.closeNumber
  { e with
    formula := e.formula ++ List.replicate e.openBrackets .rightBracket
    openBrackets := 0
    evaluated := true }

/-- Keeps the outcome of an evaluation. -/
def keep (e : Editor) (result : Option Decimal) : Editor := { e with lastResult := result }

/-- The record to recall: the last one if the formula is empty, and the one
before it otherwise, for the last one may be on the screen. -/
def recallable (e : Editor) (history : History) : Option Record :=
  if e.formula.isEmpty then history.getLast? else history.dropLast.getLast?

/-- Puts a formula in place of the one shown, ready to be evaluated again. -/
def load (e : Editor) (f : Formula) : Editor :=
  { e.restart with
    formula := f
    openBrackets := f.count .leftBracket - f.count .rightBracket
    evaluated := true }

end PocketCalc.Editor
