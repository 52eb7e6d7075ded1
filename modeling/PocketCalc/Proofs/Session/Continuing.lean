/-
  PocketCalc.Proofs.Session.Continuing
  ────────────────────────────────────
  **GOING ON FROM A RESULT.**

  Behind a result an operator key keeps the value and forgets the formula that it came
  from.  This loses nothing: the value counts as much as the formula in brackets would,
  whatever else is typed.

      typeOperator_of_result    what an operator key leaves of an evaluated formula
      brackets_compositional    a formula in brackets and its value are the same operand
-/
import PocketCalc.Proofs.Editor.Typing
import PocketCalc.Proofs.Evaluation.Context
import PocketCalc.Proofs.Session.Outcome

namespace PocketCalc

/-- A value is in normal form. -/
theorem isNormal_of_value {e : Expression} {v : Decimal} (h : e.value? = some v) :
    v.IsNormal := by
  obtain ⟨x, -, rfl⟩ := Option.map_eq_some_iff.1 h
  exact Decimal.isNormal_normalized x

/-- Behind a result, an operator is the only thing that is appended to it. -/
theorem Editor.typeOperator_of_result {e : Editor} {v : Decimal} (hevaluated : e.evaluated = true)
    (hresult : e.lastResult = some v) {op : Operator} (hop : op ≠ .factorial) :
    (e.typeOperator op).formula = [Token.ofDecimal v, .operator op] := by
  unfold typeOperator
  have hvalue : (some (Token.ofDecimal v)).any Token.endsValue = true := rfl
  rw [if_neg hop, closeNumber_of_result hevaluated hresult, placeOperator_append hop]
  · rfl
  · exact mayFollow_value hvalue hop

namespace Session

variable {σ : Type} [HistoryStore σ]

/-- Behind equals, the value of the formula is the last result. -/
theorem lastResult_equals {s : Session σ} {f : Formula} {v : Decimal}
    (hformula : (s.apply .equals).value.editor.formula = f) (hv : evaluate f = .ok v) :
    (s.apply .equals).value.editor.evaluated = true
      ∧ (s.apply .equals).value.editor.lastResult = some v := by
  rw [editor_equals] at hformula ⊢
  have hcomplete : s.editor.complete.formula = f := hformula
  rw [hcomplete, hv]
  exact ⟨rfl, rfl⟩

end Session

/-- **A FORMULA IN BRACKETS MAY BE REPLACED BY ITS VALUE**, whatever stands around it, well
formed or not, if no factorial sign follows: the outcome is the same value or the same
refusal.  So an operator key behind equals, which keeps the value alone, leaves a formula
that goes on as the one in brackets would. -/
theorem brackets_compositional {σ : Type} [HistoryStore σ] {f : Formula} {v : Decimal}
    (h : evaluate f = .ok v) :
    (∀ before after : Formula, after.head? ≠ some (.operator .factorial) →
        evaluate (before ++ .leftBracket :: (f ++ .rightBracket :: after))
          = evaluate (before ++ .number v :: after))
      ∧ ∀ (s : Session σ) (op : Operator), op ≠ .factorial →
          (s.apply .equals).value.editor.formula = f →
            let g := ((s.apply .equals).value.apply (.operator op)).value.editor.formula
            g = [.number v, .operator op] ∧ ∀ after : Formula,
              evaluate (g ++ after)
                = evaluate (.leftBracket :: (f ++ .rightBracket :: .operator op :: after)) := by
  -- What has a value is an expression, and all its stages can be settled.
  obtain ⟨e, rfl⟩ := (wellFormed_iff f).1 (wellFormed_of_evaluate h)
  have hv : e.value? = some v := by
    rw [evaluate_tokens] at h
    cases hvalue : e.value? with
    | none => exact nomatch hvalue ▸ h
    | some w =>
      rw [hvalue] at h
      exact congrArg some (Except.ok.inj h)
  have hbracket : ∀ before after : Formula, after.head? ≠ some (.operator .factorial) →
      evaluate (before ++ .leftBracket :: (e.tokens ++ .rightBracket :: after))
        = evaluate (before ++ .number v :: after) := by
    intro before after hafter
    have hpiece := evaluate_bracket hv before hafter
    simpa only [Atom.tokens, List.cons_append, List.append_assoc, List.nil_append] using hpiece
  refine ⟨hbracket, fun s op hop hformula => ?_⟩
  obtain ⟨hevaluated, hresult⟩ := Session.lastResult_equals hformula h
  have hnormal : Token.ofDecimal v = .number v := congrArg Token.number (isNormal_of_value hv)
  have hg := Editor.typeOperator_of_result hevaluated hresult hop
  rw [hnormal] at hg
  refine ⟨hg, fun after => ?_⟩
  have hsign : (.operator op :: after : Formula).head? ≠ some (.operator .factorial) := by
    simpa using hop
  have hsame := hbracket [] (.operator op :: after) hsign
  show evaluate (Editor.formula (Editor.typeOperator _ op) ++ after) = _
  rw [hg]
  exact hsame.symm

/-- The value of `5−8` in `2×(5−8)×4`, in a formula that lacks a bracket, and behind
equals. -/
theorem brackets_compositional_difference :
    let f : Formula := [.number ⟨5, 0⟩, .operator .minus, .number ⟨8, 0⟩]
    let before : Formula := [.number ⟨2, 0⟩, .operator .times]
    let after : Formula := [.operator .times, .number ⟨4, 0⟩]
    let s := (Session.run { store := ({} : MemoryStore) }
      [.act (.digit 5), .act (.operator .minus), .act (.digit 8)]).value
    evaluate f = .ok ⟨-3, 0⟩ ∧ after.head? ≠ some (.operator .factorial)
      ∧ evaluate (before ++ .leftBracket :: (f ++ .rightBracket :: after)) = .ok ⟨-24, 0⟩
      ∧ evaluate (.rightBracket :: before ++ .leftBracket :: (f ++ .rightBracket :: after))
          = .error .invalidExpression
      ∧ (s.apply .equals).value.editor.formula = f
      ∧ ((s.apply .equals).value.apply (.operator .divide)).value.editor.formula
          = [.number ⟨-3, 0⟩, .operator .divide] := by
  intro f before after s
  have hvalue : evaluate f = .ok ⟨-3, 0⟩ := by decide +kernel
  have hafter : after.head? ≠ some (.operator .factorial) := by decide
  have hformula : (s.apply .equals).value.editor.formula = f := by decide +kernel
  obtain ⟨hbracket, hequals⟩ := @brackets_compositional MemoryStore _ f ⟨-3, 0⟩ hvalue
  refine ⟨hvalue, hafter, ?_, ?_, hformula, (hequals s .divide (by decide) hformula).1⟩
  · rw [hbracket before after hafter]
    decide +kernel
  · rw [hbracket (.rightBracket :: before) after hafter]
    decide +kernel

end PocketCalc
