/-
  PocketCalc.Evaluation.Basic
  ───────────────────────────
  **THE VALUE OF A FORMULA.**

  A formula is evaluated in stages, each exhausted before the next begins:

      factorials → brackets, innermost first → products and quotients → sums

  What a pair of brackets encloses holds neither a bracket nor a factorial when
  its turn comes, so it is evaluated by the last two stages alone
  (`evaluateFlat`), and evaluation is nested only once however deep the brackets
  are.
-/
import PocketCalc.Evaluation.Reduction

namespace PocketCalc

/-! ## §1. Sums. -/

/-- Adds and subtracts the terms of a formula to and from `acc`, left to right. -/
def addTerms (acc : Decimal) (f : Formula) : Except EvalError Decimal :=
  match f with
  | [] => .ok acc.normalized
  | .operator op :: rest =>
      if op.isAdditive then
        match _h : takeTerm rest with
        | some (y, rest') =>
            match op.apply acc y with
            | .ok v => addTerms v rest'
            | .error e => .error e
        | none => .error .invalidExpression
      else .error .invalidExpression
  | _ => .error .invalidExpression
termination_by f.length
decreasing_by
  have := takeTerm_length _h
  simp only [List.length_cons]
  omega

/-- The value of a formula of terms, plus and minus signs.  One without any
value is missing, not invalid. -/
def sumTerms (f : Formula) : Except EvalError Decimal :=
  if f.any Token.isValue then
    match takeTerm f with
    | some (x, rest) => addTerms x rest
    | none => .error .invalidExpression
  else .error .missingFormula

/-- The value of a formula without brackets and factorials. -/
def evaluateFlat (f : Formula) : Except EvalError Decimal :=
  if f.isEmpty then .error .missingFormula
  else
    match products.exhaust f with
    | .ok g => sumTerms g
    | .error e => .error e

/-! ## §2. Brackets. -/

/-- A formula cut at an innermost pair of brackets. -/
structure Enclosure where
  before : Formula
  inner : Formula
  after : Formula

/-- Is the token no left bracket? -/
def notLeft (t : Token) : Bool := t != .leftBracket

/-- Is the token no right bracket? -/
def notRight (t : Token) : Bool := t != .rightBracket

/-- The first right bracket and the last left bracket before it.  A bracket
without its partner refuses the formula. -/
def innermost (f : Formula) : Except EvalError (Option Enclosure) :=
  match f.dropWhile notRight with
  | [] => if f.all notLeft then .ok none else .error .invalidExpression
  | _ :: after =>
      match (f.takeWhile notRight).reverse.dropWhile notLeft with
      | [] => .error .invalidExpression
      | _ :: before =>
          .ok (some ⟨before.reverse,
            ((f.takeWhile notRight).reverse.takeWhile notLeft).reverse, after⟩)

/-- The two brackets and what stands around and between them are the formula. -/
theorem innermost_length {f : Formula} {c : Enclosure}
    (h : innermost f = .ok (some c)) :
    c.before.length + c.inner.length + c.after.length + 2 = f.length := by
  unfold innermost at h
  have hf := takeWhile_length_add notRight f
  have hh := takeWhile_length_add notLeft (f.takeWhile notRight).reverse
  simp only [List.length_reverse] at hh
  split at h
  · split at h <;> cases h
  · next after hd =>
    rw [hd] at hf
    split at h
    · cases h
    · next before hb =>
      rw [hb] at hh
      injection h with h
      injection h with h
      subst h
      simp only [List.length_reverse]
      simp only [List.length_cons] at hf hh
      omega

/-- An innermost pair of brackets, replaced by the value of what it encloses. -/
def findBrackets (f : Formula) : Except EvalError (Option Reduction) :=
  match innermost f with
  | .error e => .error e
  | .ok none => .ok none
  | .ok (some c) =>
      match evaluateFlat c.inner with
      | .ok v => .ok (some ⟨c.before, v, c.after⟩)
      | .error e => .error e

theorem findBrackets_shortens {f : Formula} {r : Reduction}
    (h : findBrackets f = .ok (some r)) : r.result.length < f.length := by
  unfold findBrackets at h
  split at h
  · cases h
  · cases h
  · next c hc =>
    have hlen := innermost_length hc
    split at h
    · injection h with h
      injection h with h
      subst h
      simp only [Reduction.result, List.length_append, List.length_cons]
      omega
    · cases h

/-- The rule for brackets. -/
def brackets : Rule := ⟨findBrackets, findBrackets_shortens⟩

/-! ## §3. The evaluator. -/

/-- The value of a formula, or the reason why it has none. -/
def evaluate (f : Formula) : Except EvalError Decimal :=
  if f.isEmpty then .error .missingFormula
  else
    match factorials.exhaust f with
    | .error e => .error e
    | .ok g =>
        match brackets.exhaust g with
        | .error e => .error e
        | .ok h => evaluateFlat h

end PocketCalc
