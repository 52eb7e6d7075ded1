/-
  PocketCalc.Editor.Erasing
  ─────────────────────────
  **THE KEYS THAT TAKE BACK.**

  Erasing takes the last visible effect back: a pending point, the last digit of
  a number, or else the last token.  An implied product sign leaves together with
  the value that it was inserted for.  A number that comes to stand at the end
  can be typed on.
-/
import PocketCalc.Editor.Typing

namespace PocketCalc.Editor

/-- Takes an implied product sign at the end away. -/
def dropImpliedTimes (e : Editor) : Editor :=
  let n := e.formula.length
  let implied := e.impliedTimes.filter (· < n)
  if 0 < n ∧ implied.getLast? = some (n - 1) then
    { e.pop with impliedTimes := implied.dropLast }
  else { e with impliedTimes := implied }

/-- Brings the state in step with the last token: what was appended last is read
off it, and a final number is typed on. -/
def resync (e : Editor) : Editor :=
  match e.formula.getLast? with
  | some (.number v) => e.pop.resume v.plain
  | some (.constant _) => e.note .constant
  | some .rightBracket => e.note .rightBracket
  | some (.operator .factorial) => e.note .factorial
  | _ => e

/-- The text of the last number `v`, the one being typed or else the plain one,
without its last character. -/
def shortened (e : Editor) (v : Decimal) : List Char :=
  (if e.typing && !e.typed.isEmpty then e.typed else v.plain).dropLast

/-- Takes the last token away, and counts the brackets. -/
def removeToken (e : Editor) : Editor :=
  match e.formula.getLast? with
  | some .leftBracket => { e.pop with openBrackets := e.openBrackets - 1 }
  | some .rightBracket => { e.pop with openBrackets := e.openBrackets + 1 }
  | _ => e.pop

/-- The key that erases the last symbol. -/
def erase (e : Editor) : Editor :=
  let e := { e with evaluated := false, appended := .other }
  if e.pointPending then
    { e with
      pointPending := false
      hasPoint := false
      formula := withoutFinalPoint e.formula
      typed := if e.typed.getLast? = some '.' then e.typed.dropLast else e.typed }
  else
    let closed := { e with typed := [], typing := false, hasPoint := false }
    match e.formula.getLast? with
    | some (.number v) =>
        let text := e.shortened v
        if text.isEmpty || text == ['-'] then closed.pop.dropImpliedTimes.resync
        else closed.pop.resume text
    | _ => closed.removeToken.dropImpliedTimes.resync

/-- The key that clears everything, the last result included. -/
def clear (e : Editor) : Editor := { e.restart with lastResult := none }

end PocketCalc.Editor
