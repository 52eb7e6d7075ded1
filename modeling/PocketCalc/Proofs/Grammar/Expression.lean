/-
  PocketCalc.Proofs.Grammar.Expression
  ────────────────────────────────────
  **WELL-FORMED FORMULAS AND THEIR VALUES.**

  The grammar of the formulas that have a meaning:

      expression  [−] product  ( (+ | −) [−] product )*
      product     atom  ( (× | ÷) [−] atom )*
      atom        number !*  |  constant  |  ( expression )

  A syntax tree is written out as tokens by `tokens`, and it is read in the
  plain recursive way by `value?`: products and quotients from the left, the
  minus sign of a right factor taken with that factor, the minus sign of a
  product taken with the whole product, sums and differences from the left.

  Whether a formula is refused for a factorial is seen on its tokens, as
  `factorialsAccepted`.
-/
import PocketCalc.Evaluation.Basic

namespace PocketCalc

/-! ## §1. Syntax trees. -/

/-- The signs of sums and differences. -/
abbrev Additive := { op : Operator // op.isAdditive = true }

/-- The signs of products and quotients. -/
abbrev Tight := { op : Operator // op.bindsTightly = true }

mutual

/-- One operand. -/
inductive Atom where
  /-- A number with factorial signs behind it. -/
  | number (v : Decimal) (signs : Nat)
  | constant (name : Constant)
  | bracket (e : Expression)

/-- Atoms joined from the left; a right factor may have a minus sign. -/
inductive Product where
  | single (a : Atom)
  | join (p : Product) (op : Tight) (negated : Bool) (a : Atom)

/-- Products joined from the left; each of them may have a minus sign. -/
inductive Expression where
  | single (negated : Bool) (p : Product)
  | join (e : Expression) (op : Additive) (negated : Bool) (p : Product)

end

/-! ## §2. Trees written out. -/

/-- A minus sign, if there is one. -/
def minusSign (negated : Bool) : Formula := if negated then [.operator .minus] else []

mutual

/-- The tokens of an atom. -/
def Atom.tokens : Atom → Formula
  | .number v n => .number v :: List.replicate n (.operator .factorial)
  | .constant c => [.constant c]
  | .bracket e => .leftBracket :: (e.tokens ++ [.rightBracket])

/-- The tokens of a product. -/
def Product.tokens : Product → Formula
  | .single a => a.tokens
  | .join p op negated a => p.tokens ++ .operator op.val :: (minusSign negated ++ a.tokens)

/-- The tokens of an expression. -/
def Expression.tokens : Expression → Formula
  | .single negated p => minusSign negated ++ p.tokens
  | .join e op negated p => e.tokens ++ .operator op.val :: (minusSign negated ++ p.tokens)

end

/-! ## §3. Values. -/

namespace Decimal

/-- The number with a minus sign, if there is one. -/
def signed (negated : Bool) (x : Decimal) : Decimal := if negated then -x else x

/-- The factorial of the factorial and so on, `n` times; each of them is stored
in normal form. -/
def factorials? (x : Decimal) : Nat → Option Decimal
  | 0 => some x
  | n + 1 => x.factorial.toOption.bind fun y => y.normalized.factorials? n

end Decimal

mutual

/-- The value of an atom.  What brackets enclose is stored in normal form. -/
def Atom.value? : Atom → Option Decimal
  | .number v n => v.factorials? n
  | .constant c => some c.value
  | .bracket e => e.sum?.map Decimal.normalized

/-- The value of a product. -/
def Product.value? : Product → Option Decimal
  | .single a => a.value?
  | .join p op negated a => do
      let x ← p.value?
      let y ← a.value?
      (op.val.apply x (y.signed negated)).toOption

/-- The sum of an expression, as it falls out of its last step. -/
def Expression.sum? : Expression → Option Decimal
  | .single negated p => p.value?.map (Decimal.signed negated)
  | .join e op negated p => do
      let x ← e.sum?
      let y ← p.value?
      (op.val.apply x (y.signed negated)).toOption

end

/-- The value of an expression, in normal form. -/
def Expression.value? (e : Expression) : Option Decimal := e.sum?.map Decimal.normalized

/-! ## §4. Chains of factorial signs. -/

/-- Is the token a factorial sign? -/
def isFactorial (t : Token) : Bool := t == .operator .factorial

/-- Is every number of the formula one that its factorial signs accept? -/
def Formula.factorialsAccepted : Formula → Bool
  | [] => true
  | .number v :: rest =>
      (v.factorials? (rest.takeWhile isFactorial).length).isSome && factorialsAccepted rest
  | _ :: rest => factorialsAccepted rest

end PocketCalc
