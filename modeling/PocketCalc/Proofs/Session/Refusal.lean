/-
  PocketCalc.Proofs.Session.Refusal
  ─────────────────────────────────
  **WHY A TYPED FORMULA IS REFUSED.**

  The editor and the evaluator do not know of each other.  Still, a formula that
  was typed and completed lacks nothing but operands to be one of the grammar, and
  so there are five reasons only to refuse it: it is empty, it has an empty pair of
  brackets, an operator lacks its right operand, a divisor is zero, or a factorial
  is refused.
-/
import PocketCalc.Proofs.Evaluation.Value
import PocketCalc.Proofs.Session.Reachable

namespace PocketCalc

namespace Session

/-- Equals evaluates the completed formula, and leaves it on the screen. -/
theorem formula_equals (s : Session MemoryStore) :
    (s.apply .equals).value.editor.formula = s.editor.complete.formula := by
  show (s.edit Editor.complete).calculate.value.editor.formula = _
  rw [value_calculate]
  split <;> rfl

/-- A formula that equals leaves is closed and has no point. -/
theorem closed_equals (settings : Settings) (actions : List Action) :
    (after settings (actions ++ [.equals])).editor.formula.depth? = some 0
      ∧ Token.point ∉ (after settings (actions ++ [.equals])).editor.formula := by
  have hinv := Editor.invariant_complete (invariant_after settings actions).editor
  have hdepth := Editor.depth?_of_evaluated hinv rfl
  have hformula : (after settings (actions ++ [.equals])).editor.formula
      = (after settings actions).editor.complete.formula := by
    unfold after
    rw [applyAll_append]
    exact formula_equals _
  rw [hformula]
  exact ⟨hdepth, Formula.not_mem_point hdepth (Editor.isIdle_of_evaluated hinv rfl).last⟩

end Session

/-! ## §1. Closed formulas. -/

/-- A closed formula whose operands are all there has a value or a zero divisor, if
its factorials are accepted. -/
theorem evaluate_of_isFilled {f : Formula} (hdepth : f.depth? = some 0)
    (hpoint : Token.point ∉ f) (hfilled : f.IsFilled) (hfactorials : f.factorialsAccepted = true) :
    (∃ v, evaluate f = .ok v) ∨ evaluate f = .error .divisionByZero := by
  have hwell := (Formula.wellFormed_iff_of_depth hdepth hpoint).2 hfilled
  obtain ⟨e, rfl⟩ := (wellFormed_iff f).1 hwell
  rw [evaluate_tokens]
  cases e.value? with
  | some v => exact .inl ⟨v, rfl⟩
  | none =>
    right
    show Except.error e.tokens.refusal = _
    unfold Formula.refusal
    rw [if_pos hfactorials]

/-- A formula that lacks an operand is refused. -/
theorem evaluate_of_not_isFilled {f : Formula} (h : ¬ f.IsFilled) : ∃ e, evaluate f = .error e := by
  cases hv : evaluate f with
  | error e => exact ⟨e, rfl⟩
  | ok v => exact absurd (Formula.isFilled_of_wellFormed (wellFormed_of_evaluate hv)) h

/-- What is missing from a formula that lacks an operand. -/
theorem Formula.missing_of_not_isFilled {f : Formula} (h : ¬ f.IsFilled) :
    f = [] ∨ (∃ before after, f = before ++ .leftBracket :: .rightBracket :: after)
      ∨ ∃ before t after, t.joins = true ∧ f = before ++ t :: after
          ∧ (after = [] ∨ after.head? = some .rightBracket) := by
  by_contra hnone
  rw [not_or, not_or] at hnone
  obtain ⟨hnonempty, hbrackets, hoperator⟩ := hnone
  refine h ⟨hnonempty, ?_, ?_⟩
  · intro t hlast
    rw [← Bool.not_eq_true]
    intro hjoins
    obtain ⟨before, hbefore⟩ := List.getLast?_eq_some_iff.1 hlast
    exact hoperator ⟨before, t, [], hjoins, hbefore, .inl rfl⟩
  · intro before t after hcut
    rw [← Bool.not_eq_true]
    intro hawaits
    rcases Bool.or_eq_true_iff.1 hawaits with hjoins | hbracket
    · exact hoperator ⟨before, t, _, hjoins, hcut, .inr rfl⟩
    · rw [beq_iff_eq.1 hbracket] at hcut
      exact hbrackets ⟨before, after, hcut⟩

/-! ## §2. Typed formulas. -/

/-- **THE EDITOR AND THE EVALUATOR AGREE.**  Whatever the actions were, the formula
that equals leaves has a value or a zero divisor if all its operands are there and
its factorials are accepted; it is refused if an operand is missing; and there is
no other reason to refuse it. -/
theorem evaluate_typed (settings : Settings) (actions : List Action) :
    let f := (Session.after settings (actions ++ [.equals])).editor.formula
    (f.factorialsAccepted = true → f.IsFilled →
        (∃ v, evaluate f = .ok v) ∨ evaluate f = .error .divisionByZero)
      ∧ (¬ f.IsFilled → ∃ e, evaluate f = .error e)
      ∧ ∀ e, evaluate f = .error e →
          f = []
          ∨ (∃ before after, f = before ++ .leftBracket :: .rightBracket :: after)
          ∨ (∃ before t after, t.joins = true ∧ f = before ++ t :: after
              ∧ (after = [] ∨ after.head? = some .rightBracket))
          ∨ e = .divisionByZero
          ∨ f.factorialsAccepted = false := by
  intro f
  obtain ⟨hdepth, hpoint⟩ := Session.closed_equals settings actions
  refine ⟨?_, evaluate_of_not_isFilled, ?_⟩
  · intro hfactorials hfilled
    exact evaluate_of_isFilled hdepth hpoint hfilled hfactorials
  · intro e he
    by_cases hfilled : f.IsFilled
    · cases hfactorials : f.factorialsAccepted with
      | false => exact .inr (.inr (.inr (.inr rfl)))
      | true =>
        rcases evaluate_of_isFilled hdepth hpoint hfilled hfactorials with ⟨v, hv⟩ | hzero
        · exact nomatch he.symm.trans hv
        · exact .inr (.inr (.inr (.inl (Except.error.inj (he.symm.trans hzero)))))
    · rcases Formula.missing_of_not_isFilled hfilled with h | h | h
      · exact .inl h
      · exact .inr (.inl h)
      · exact .inr (.inr (.inl h))

end PocketCalc
