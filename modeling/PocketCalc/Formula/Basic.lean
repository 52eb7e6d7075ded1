/-
  PocketCalc.Formula.Basic
  ────────────────────────
  **TOKENS AND FORMULAS.**

  A formula is a list of tokens in the order in which they are read.  While it
  is being typed it may be ill formed; only evaluation judges it.

  A formula can be written as words: each token is one word, and the words stand
  apart by blanks.  `ofWord?` reads such a word back.
-/
import PocketCalc.Constant
import PocketCalc.Decimal.Reader

namespace PocketCalc

/-! ## §1. Tokens. -/

/-- The operators.  A factorial stands behind its operand, the others stand
between two operands, and a minus may also stand in front of one. -/
inductive Operator where
  | plus
  | minus
  | times
  | divide
  | factorial
  deriving DecidableEq, Repr

/-- Products and quotients bind more tightly than sums. -/
def Operator.bindsTightly : Operator → Bool
  | .times | .divide => true
  | _ => false

/-- Sums and differences. -/
def Operator.isAdditive : Operator → Bool
  | .plus | .minus => true
  | _ => false

/-- One symbol of a formula.  The token `point` is the decimal separator of a
number that has no fraction digit yet. -/
inductive Token where
  | number (value : Decimal)
  | constant (name : Constant)
  | operator (op : Operator)
  | leftBracket
  | rightBracket
  | point
  deriving DecidableEq, Repr

/-- The tokens of a formula, in reading order. -/
abbrev Formula := List Token

namespace Token

/-- The token of a number, which is stored in normal form. -/
def ofDecimal (x : Decimal) : Token := .number x.normalized

/-- Numbers and constants carry a value of their own. -/
def value? : Token → Option Decimal
  | .number v => some v
  | .constant c => some c.value
  | _ => none

/-- Does the token carry a value of its own? -/
def isValue : Token → Bool
  | .number _ | .constant _ => true
  | _ => false

/-- Can a value end with this token?  Another value right behind it is then
multiplied with it. -/
def endsValue : Token → Bool
  | .number _ | .constant _ | .rightBracket | .operator .factorial => true
  | _ => false

/-- Is the token a product or quotient sign? -/
def bindsTightly : Token → Bool
  | .operator op => op.bindsTightly
  | _ => false

/-! ## §2. Words. -/

/-- The word of a token, with `number` as the text of numbers. -/
def word (number : Decimal → String) : Token → String
  | .number v => number v
  | .constant .pi => "pi"
  | .constant .e => "e"
  | .operator .plus => "+"
  | .operator .minus => "-"
  | .operator .times => "*"
  | .operator .divide => "/"
  | .operator .factorial => "!"
  | .leftBracket => "("
  | .rightBracket => ")"
  | .point => "."

/-- The tokens whose word is fixed. -/
def symbols : List Token :=
  [.constant .pi, .constant .e, .operator .plus, .operator .minus, .operator .times,
    .operator .divide, .operator .factorial, .leftBracket, .rightBracket, .point]

/-- Reads a word: a fixed symbol, or else a written decimal. -/
def ofWord? (w : String) : Option Token :=
  match symbols.find? (fun t => t.word Decimal.plainText == w) with
  | some t => some t
  | none => (Decimal.ofText? w).map ofDecimal

end Token

/-- The words of a formula behind one another, one blank between two. -/
def Formula.words (number : Decimal → String) (f : Formula) : String :=
  " ".intercalate (f.map (Token.word number))

/-- The formula as it is written in the log. -/
def Formula.describe (f : Formula) : String := Formula.words Decimal.display f

end PocketCalc
