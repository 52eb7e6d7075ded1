/-
  PocketCalc.Proofs.Grammar.Written
  ─────────────────────────────────
  **EXPRESSIONS AS THEY ARE TYPED.**

  The grammar of the expressions that one would type, character by character:

      expression  [-] product  ( (+ | -) product )*
      product     atom  ( (* | /) atom )*
      atom        literal [!]  |  p  |  e  |  ( expression )
      literal     (0 | 1…9 0…9*)  [. 0…9+]

  `chars` writes such an expression out as characters, and `tree` is the
  expression of formulas that it stands for.
-/
import PocketCalc.Proofs.Decimal.Numeral
import PocketCalc.Proofs.Evaluation.Factorials

namespace PocketCalc

/-! ## §1. Literals. -/

/-- A number as it is typed: no needless zero in front, and digits behind the
point, if there is one. -/
structure Literal where
  whole : List Char
  fraction : Option (List Char)
  areDigits_whole : AreDigits whole
  canonical : whole = ['0'] ∨ (whole ≠ [] ∧ whole.head? ≠ some '0')
  areDigits_fraction : ∀ cs, fraction = some cs → cs ≠ [] ∧ AreDigits cs

namespace Literal

/-- The numeral that a literal is. -/
def numeral (n : Literal) : Numeral where
  negative := false
  whole := n.whole
  fraction := n.fraction
  whole_ne_nil := by
    rcases n.canonical with h | h
    · rw [h]
      exact List.cons_ne_nil _ _
    · exact h.1
  areDigits_whole := n.areDigits_whole
  areDigits_places := by
    cases hf : n.fraction with
    | none => exact fun _ h => nomatch h
    | some cs => exact (n.areDigits_fraction cs hf).2

/-- The characters of a literal. -/
def chars (n : Literal) : List Char := n.numeral.text

theorem chars_whole {n : Literal} (h : n.fraction = none) : n.chars = n.whole := by
  show Decimal.sign false ++ n.whole ++ n.numeral.pointed = n.whole
  unfold Numeral.pointed
  rw [show n.numeral.fraction = none from h]
  exact List.append_nil _

theorem chars_fraction {n : Literal} {cs : List Char} (h : n.fraction = some cs) :
    n.chars = n.whole ++ '.' :: cs := by
  show Decimal.sign false ++ n.whole ++ n.numeral.pointed = _
  unfold Numeral.pointed
  rw [show n.numeral.fraction = some cs from h]
  rfl

/-- The number that a literal stands for, in normal form. -/
def value (n : Literal) : Decimal := n.numeral.value.normalized

theorem normalized_value (n : Literal) : n.value.normalized = n.value :=
  Decimal.normalized_normalized n.numeral.value

/-- A one with so many zeros behind it. -/
def oneWithZeros (zeros : Nat) : Literal where
  whole := '1' :: List.replicate zeros '0'
  fraction := none
  areDigits_whole := List.forall_mem_cons.2 ⟨rfl, areDigits_zeros zeros⟩
  canonical := .inr ⟨List.cons_ne_nil _ _, by simp⟩
  areDigits_fraction := by
    intro cs hcs
    cases hcs

/-- The zeros are no part of the normal mantissa. -/
theorem value_oneWithZeros (zeros : Nat) : (oneWithZeros zeros).value = ⟨1, -zeros⟩ := by
  have hdigits : Nat.ofDigitChars 10 ('1' :: List.replicate zeros '0' ++ []) 0 = tenPow zeros := by
    rw [List.append_nil, Nat.ofDigitChars_cons, Nat.ofDigitChars_replicate_zero]
    exact Nat.mul_one _
  have hmantissa : (oneWithZeros zeros).numeral.mantissa = 1 * (tenPow zeros : Int) := by
    show (Nat.ofDigitChars 10 ('1' :: List.replicate zeros '0' ++ []) 0 : Int) = _
    rw [hdigits, Int.one_mul]
  unfold value Numeral.value
  rw [hmantissa, Decimal.normalized_mul_tenPow zeros _ (by decide)]
  congr 1
  exact Int.zero_sub _

end Literal

/-! ## §2. Expressions. -/

namespace Written

mutual

/-- One operand; a literal may have a factorial sign. -/
inductive Atom where
  | literal (n : Literal) (factorial : Bool)
  | constant (name : Constant)
  | bracket (e : Expression)

/-- Atoms joined from the left. -/
inductive Product where
  | single (a : Atom)
  | join (p : Product) (op : Tight) (a : Atom)

/-- Products joined from the left; the first one may have a minus sign. -/
inductive Expression where
  | single (negated : Bool) (p : Product)
  | join (e : Expression) (op : Additive) (p : Product)

end

/-- The character of an operator. -/
def operatorChar : Operator → Char
  | .plus => '+'
  | .minus => '-'
  | .times => '*'
  | .divide => '/'
  | .factorial => '!'

/-- The character of a constant. -/
def constantChar : Constant → Char
  | .pi => 'p'
  | .e => 'e'

mutual

/-- The characters of an atom. -/
def Atom.chars : Atom → List Char
  | .literal n factorial => n.chars ++ if factorial then ['!'] else []
  | .constant c => [constantChar c]
  | .bracket e => '(' :: (e.chars ++ [')'])

/-- The characters of a product. -/
def Product.chars : Product → List Char
  | .single a => a.chars
  | .join p op a => p.chars ++ operatorChar op.val :: a.chars

/-- The characters of an expression. -/
def Expression.chars : Expression → List Char
  | .single negated p => (if negated then ['-'] else []) ++ p.chars
  | .join e op p => e.chars ++ operatorChar op.val :: p.chars

end

mutual

/-- The atom that is meant. -/
def Atom.tree : Atom → PocketCalc.Atom
  | .literal n factorial => .number n.value (if factorial then 1 else 0)
  | .constant c => .constant c
  | .bracket e => .bracket e.tree

/-- The product that is meant. -/
def Product.tree : Product → PocketCalc.Product
  | .single a => .single a.tree
  | .join p op a => .join p.tree op false a.tree

/-- The expression that is meant. -/
def Expression.tree : Expression → PocketCalc.Expression
  | .single negated p => .single negated p.tree
  | .join e op p => .join e.tree op false p.tree

end

mutual

/-- The literals of an atom that have a factorial sign. -/
def Atom.factorialOperands : Atom → List Literal
  | .literal n factorial => if factorial then [n] else []
  | .constant _ => []
  | .bracket e => e.factorialOperands

/-- The literals of a product that have a factorial sign. -/
def Product.factorialOperands : Product → List Literal
  | .single a => a.factorialOperands
  | .join p _ a => p.factorialOperands ++ a.factorialOperands

/-- The literals of an expression that have a factorial sign. -/
def Expression.factorialOperands : Expression → List Literal
  | .single _ p => p.factorialOperands
  | .join e _ p => e.factorialOperands ++ p.factorialOperands

end

/-- The tokens of the expression that is meant. -/
def Expression.tokens (e : Expression) : Formula := e.tree.tokens

/-- The value of the expression that is meant. -/
def Expression.value? (e : Expression) : Option Decimal := e.tree.value?

/-! ## §3. Refused factorials. -/

/-- Is the factorial of the literal computed? -/
def acceptsFactorial (n : Literal) : Bool := n.value.factorial.toOption.isSome

theorem acceptsFactorial_eq_true {n : Literal} :
    acceptsFactorial n = true ↔ ∃ v, n.value.factorial = .ok v := by
  unfold acceptsFactorial
  cases n.value.factorial with
  | error e => simp [Except.toOption]
  | ok v => simp [Except.toOption]

/-- The factorial of a literal is computed exactly if the literal is a whole number
that is not too large, or such a number with full words of zeros behind it. -/
theorem acceptsFactorial_iff_words (n : Literal) :
    acceptsFactorial n = true
      ↔ ∃ k words : Nat, k ≤ factorialLimit
        ∧ n.value = Decimal.normalized ⟨k, -(words * shiftModulus)⟩ := by
  rw [acceptsFactorial_eq_true]
  constructor
  · rintro ⟨v, hv⟩
    rw [← n.normalized_value]
    exact exists_words_of_factorial hv
  · rintro ⟨k, words, hk, hvalue⟩
    exact ⟨_, factorial_of_words words hk (n.normalized_value.trans hvalue)⟩

/-- Only a literal with more integer digits than a shift can be wide has room for such
a word. -/
theorem acceptsFactorial_iff {n : Literal} (h : (n.whole.length : Int) ≤ shiftModulus) :
    acceptsFactorial n = true
      ↔ ∃ k, k ≤ factorialLimit ∧ n.value = (Decimal.ofInt k).normalized := by
  have hscale : -n.value.normalized.scale < shiftModulus := by
    rw [n.normalized_value]
    exact Int.lt_of_lt_of_le n.numeral.neg_scale_lt h
  rw [acceptsFactorial_eq_true]
  constructor
  · rintro ⟨v, hv⟩
    rw [← n.normalized_value]
    exact exists_of_factorial hscale hv
  · rintro ⟨k, hk, hvalue⟩
    exact ⟨_, factorial_of_le hk (n.normalized_value.trans hvalue)⟩

mutual

theorem factorialsAccepted_atom : ∀ a : Atom,
    a.tree.tokens.factorialsAccepted = a.factorialOperands.all acceptsFactorial
  | .literal n factorial => by
    cases factorial with
    | false => rfl
    | true =>
      show ((n.value.factorial.toOption.bind fun y => some y.normalized).isSome && true)
        = (acceptsFactorial n && true)
      unfold acceptsFactorial
      cases n.value.factorial <;> rfl
  | .constant c => rfl
  | .bracket e => by
    show Formula.factorialsAccepted (e.tree.tokens ++ [.rightBracket]) = _
    rw [factorialsAccepted_append (by simp), factorialsAccepted_expression e]
    exact Bool.and_true _

theorem factorialsAccepted_product : ∀ p : Product,
    p.tree.tokens.factorialsAccepted = p.factorialOperands.all acceptsFactorial
  | .single a => factorialsAccepted_atom a
  | .join p op a => by
    show Formula.factorialsAccepted
      (p.tree.tokens ++ .operator op.val :: (minusSign false ++ a.tree.tokens)) = _
    rw [factorialsAccepted_join op.ne_factorial, factorialsAccepted_product p,
      factorialsAccepted_atom a, Product.factorialOperands, List.all_append]

/-- The factorials of an expression are accepted exactly if the operand of each of
them is. -/
theorem factorialsAccepted_expression : ∀ e : Expression,
    e.tree.tokens.factorialsAccepted = e.factorialOperands.all acceptsFactorial
  | .single negated p => by
    show Formula.factorialsAccepted (minusSign negated ++ p.tree.tokens) = _
    rw [factorialsAccepted_minusSign, factorialsAccepted_product p]
    rfl
  | .join e op p => by
    show Formula.factorialsAccepted
      (e.tree.tokens ++ .operator op.val :: (minusSign false ++ p.tree.tokens)) = _
    rw [factorialsAccepted_join op.ne_factorial, factorialsAccepted_expression e,
      factorialsAccepted_product p, Expression.factorialOperands, List.all_append]

end

end Written

end PocketCalc
