/-
  PocketCalc.Session.Action
  ─────────────────────────
  **ACTIONS AND THE CHARACTERS THAT STAND FOR THEM.**
-/
import PocketCalc.Formula.Basic

namespace PocketCalc

/-- What a key can ask for. -/
inductive Action where
  /-- A digit; what is larger than nine is no digit and is ignored. -/
  | digit (d : Nat)
  | point
  | operator (op : Operator)
  | constant (name : Constant)
  | leftBracket
  | rightBracket
  | erase
  | clear
  | equals
  | recallLast
  deriving DecidableEq, Repr

/-- The action of a typed character.  A point and a comma both mean the decimal
point; most characters mean nothing. -/
def Action.ofChar? (c : Char) : Option Action :=
  match c with
  | '.' | ',' => some .point
  | '+' => some (.operator .plus)
  | '-' | '−' => some (.operator .minus)
  | '*' | 'x' | '×' => some (.operator .times)
  | '/' | '÷' => some (.operator .divide)
  | '!' => some (.operator .factorial)
  | '(' => some .leftBracket
  | ')' => some .rightBracket
  | 'p' | 'π' => some (.constant .pi)
  | 'e' => some (.constant .e)
  | '=' => some .equals
  | 'r' => some .recallLast
  | c => if c.isDigit then some (.digit (c.toNat - '0'.toNat)) else none

end PocketCalc
