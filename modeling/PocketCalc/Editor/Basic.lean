/-
  PocketCalc.Editor.Basic
  ───────────────────────
  **THE STATE OF THE FORMULA EDITOR.**

  The editor holds the formula typed so far.  It has no cursor: every key acts
  at the end.  A number that is being typed is held twice, as the text typed and
  as the last number token of the formula; a decimal point at the very end of
  that text stands behind it as the token `point`.

  After a calculation the editor is `evaluated`: the next digit starts afresh,
  the next operator goes on from the result.
-/
import PocketCalc.Rendering
import PocketCalc.History.Record

namespace PocketCalc

/-! ## §1. The state. -/

/-- What the last key appended, as far as the next digit has to know: behind a
constant, a right bracket or a factorial, a digit is multiplied. -/
inductive Appended where
  | constant
  | rightBracket
  | factorial
  | other
  deriving DecidableEq, Repr

/-- The state of the editor. -/
structure Editor where
  formula : Formula := []
  /-- The text of the number being typed. -/
  typed : List Char := []
  /-- Is a number being typed? -/
  typing : Bool := false
  /-- Does the number being typed have its decimal point? -/
  hasPoint : Bool := false
  /-- Is that point the last thing typed? -/
  pointPending : Bool := false
  /-- Does the formula stand as it was last evaluated? -/
  evaluated : Bool := false
  appended : Appended := .other
  /-- Left brackets that wait for their partner. -/
  openBrackets : Nat := 0
  /-- Positions of the product signs that no key asked for, in the order of their
  insertion. -/
  impliedTimes : List Nat := []
  /-- The last result, none if the last evaluation was refused. -/
  lastResult : Option Decimal := none
  deriving DecidableEq, Repr

namespace Editor

/-- The formula as it is shown: the number being typed is shown as typed.  A formula too
short to end with that number is shown as it stands. -/
def shown (e : Editor) (s : Settings) : String :=
  if e.typing && !e.typed.isEmpty then
    let tail := if e.pointPending then 2 else 1
    if tail ≤ e.formula.length then
      let front := e.formula.take (e.formula.length - tail)
      String.ofList (s.formulaChars front ++ s.typedChars e.typed)
    else s.showFormula e.formula
  else s.showFormula e.formula

/-! ## §2. Small steps shared by the keys. -/

/-- Appends a token. -/
def push (e : Editor) (t : Token) : Editor := { e with formula := e.formula ++ [t] }

/-- Takes the last token away. -/
def pop (e : Editor) : Editor := { e with formula := e.formula.dropLast }

/-- An empty formula; only the last result stays. -/
def restart (e : Editor) : Editor := { lastResult := e.lastResult }

/-- Starts afresh if the formula shown was evaluated. -/
def restartIfEvaluated (e : Editor) : Editor := if e.evaluated then e.restart else e

/-- Notes what was appended last. -/
def note (e : Editor) (a : Appended) : Editor := { e with appended := a }

/-- Does the formula end with a value? -/
def endsWithValue (e : Editor) : Bool := e.formula.getLast?.any Token.endsValue

/-- Appends a product sign that no key asked for. -/
def pushImpliedTimes (e : Editor) : Editor :=
  { e.push (.operator .times) with impliedTimes := e.impliedTimes ++ [e.formula.length] }

/-- The implied product sign in front of a constant or a bracket: after a value. -/
def multiplyBehindValue (e : Editor) : Editor :=
  if e.endsWithValue then e.pushImpliedTimes else e

/-- The implied product sign in front of a digit or a point: after a constant, a
right bracket or a factorial. -/
def multiplyBehindAppended (e : Editor) : Editor :=
  if e.appended = .other then e else e.pushImpliedTimes.note .other

/-- The formula without a final point token. -/
def withoutFinalPoint (f : Formula) : Formula :=
  if f.getLast? = some .point then f.dropLast else f

/-- Takes the pending point token away; the typed text keeps its point. -/
def dropPendingPoint (e : Editor) : Editor :=
  if e.pointPending then { e with pointPending := false, formula := withoutFinalPoint e.formula }
  else e

/-- Appends the number typed so far. -/
def pushTyped (e : Editor) : Editor :=
  match Decimal.readTyped e.typed with
  | some v => e.push (Token.ofDecimal v)
  | none => e

/-- Goes on typing a number at the given text. -/
def resume (e : Editor) (text : List Char) : Editor :=
  let pending := text.getLast? == some '.'
  let e := { e with
    typed := text, typing := true, hasPoint := text.contains '.', pointPending := pending }.pushTyped
  if pending then e.push .point else e

/-- Ends the number being typed.  After a successful evaluation the formula goes
on from the result. -/
def closeNumber (e : Editor) : Editor :=
  let e :=
    match e.evaluated, e.lastResult with
    | true, some r => e.restart.push (Token.ofDecimal r)
    | _, _ => { e with evaluated := false }
  { e.dropPendingPoint with hasPoint := false, typing := false, typed := [] }

end Editor

end PocketCalc
