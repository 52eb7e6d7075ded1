/-
  PocketCalc.Evaluation.Reduction
  ───────────────────────────────
  **REDUCTION RULES.**

  A rule looks at a formula and either refuses it, or finds nothing to do, or
  finds a window of tokens that one value replaces.  Such a replacement makes
  the formula shorter, and a rule carries the proof that it does; so a rule can
  be exhausted: applied until it finds nothing any more.

      factorials   a factorial sign and the number in front of it
      products     the leftmost product or quotient sign and its two operands

  The rule for brackets stands with the evaluator, for it evaluates what the
  brackets enclose.
-/
import PocketCalc.Evaluation.Arithmetic

namespace PocketCalc

/-! ## §1. Rules and their exhaustion. -/

/-- A formula cut around a window: what stands before it, the value that takes
the window's place, and what stands after it. -/
structure Reduction where
  before : Formula
  value : Decimal
  after : Formula

/-- The formula with the value in place of the window. -/
def Reduction.result (r : Reduction) : Formula :=
  r.before ++ Token.ofDecimal r.value :: r.after

/-- A way to find the next window, such that every replacement shortens the
formula. -/
structure Rule where
  find : Formula → Except EvalError (Option Reduction)
  shortens : ∀ {f : Formula} {r : Reduction},
    find f = .ok (some r) → r.result.length < f.length

/-- Applies a rule until it finds nothing any more. -/
def Rule.exhaust (rule : Rule) (f : Formula) : Except EvalError Formula :=
  match _h : rule.find f with
  | .error e => .error e
  | .ok none => .ok f
  | .ok (some r) => rule.exhaust r.result
termination_by f.length
decreasing_by exact rule.shortens _h

/-! ## §2. Cutting formulas. -/

/-- A formula is what stands before the first token of a kind, and the rest. -/
theorem takeWhile_length_add (p : Token → Bool) (f : Formula) :
    (f.takeWhile p).length + (f.dropWhile p).length = f.length := by
  rw [← List.length_append, List.takeWhile_append_dropWhile]

/-- The value at the head of a formula, a minus sign in front of it included,
and the tokens behind it. -/
def takeTerm : Formula → Option (Decimal × Formula)
  | .operator .minus :: t :: rest => t.value?.map fun v => (-v, rest)
  | t :: rest => t.value?.map fun v => (v, rest)
  | [] => none

theorem takeTerm_length {f : Formula} {v : Decimal} {rest : Formula}
    (h : takeTerm f = some (v, rest)) : rest.length < f.length := by
  unfold takeTerm at h
  split at h
  · obtain ⟨_, _, hv⟩ := Option.map_eq_some_iff.1 h
    cases hv
    simp only [List.length_cons]
    omega
  · obtain ⟨_, _, hv⟩ := Option.map_eq_some_iff.1 h
    cases hv
    simp only [List.length_cons]
    omega
  · exact absurd h (by simp)

/-! ## §3. Factorials. -/

/-- Is the token no factorial sign? -/
def notFactorial (t : Token) : Bool := t != .operator .factorial

/-- The first factorial sign and the number right in front of it.  Without a
number there the formula is refused. -/
def findFactorial (f : Formula) : Except EvalError (Option Reduction) :=
  match f.dropWhile notFactorial with
  | [] => .ok none
  | _ :: after =>
      match (f.takeWhile notFactorial).getLast? with
      | some (.number v) =>
          match v.factorial with
          | .ok n => .ok (some ⟨(f.takeWhile notFactorial).dropLast, n, after⟩)
          | .error e => .error e
      | _ => .error .invalidExpression

theorem findFactorial_shortens {f : Formula} {r : Reduction}
    (h : findFactorial f = .ok (some r)) : r.result.length < f.length := by
  unfold findFactorial at h
  have hf := takeWhile_length_add notFactorial f
  split at h
  · cases h
  · next after hd =>
    rw [hd] at hf
    split at h
    · next v hl =>
      have hne : f.takeWhile notFactorial ≠ [] := by
        intro hnil
        rw [hnil] at hl
        cases hl
      have hpos := List.length_pos_iff.2 hne
      split at h
      · injection h with h
        injection h with h
        subst h
        simp only [Reduction.result, List.length_append, List.length_cons, List.length_dropLast]
        simp only [List.length_cons] at hf
        omega
      · cases h
    · cases h

/-- The rule for factorials. -/
def factorials : Rule := ⟨findFactorial, findFactorial_shortens⟩

/-! ## §4. Products and quotients. -/

/-- Is the token no product or quotient sign? -/
def notProduct (t : Token) : Bool := !t.bindsTightly

/-- The leftmost product or quotient sign with its operands: the value right in
front of it, and the term behind it.  Without both the formula is refused. -/
def findProduct (f : Formula) : Except EvalError (Option Reduction) :=
  match f.dropWhile notProduct with
  | .operator op :: tail =>
      match (f.takeWhile notProduct).getLast?.bind Token.value?, takeTerm tail with
      | some x, some (y, after) =>
          match op.apply x y with
          | .ok v => .ok (some ⟨(f.takeWhile notProduct).dropLast, v, after⟩)
          | .error e => .error e
      | _, _ => .error .invalidExpression
  | _ => .ok none

theorem findProduct_shortens {f : Formula} {r : Reduction}
    (h : findProduct f = .ok (some r)) : r.result.length < f.length := by
  unfold findProduct at h
  have hf := takeWhile_length_add notProduct f
  split at h
  · next op tail hd =>
    rw [hd] at hf
    split at h
    · next x y after hx hy =>
      have hne : f.takeWhile notProduct ≠ [] := by
        intro hnil
        rw [hnil] at hx
        cases hx
      have hpos := List.length_pos_iff.2 hne
      have hlt := takeTerm_length hy
      split at h
      · injection h with h
        injection h with h
        subst h
        simp only [Reduction.result, List.length_append, List.length_cons, List.length_dropLast]
        simp only [List.length_cons] at hf
        omega
      · cases h
    · cases h
  · cases h

/-- The rule for products and quotients. -/
def products : Rule := ⟨findProduct, findProduct_shortens⟩

end PocketCalc
