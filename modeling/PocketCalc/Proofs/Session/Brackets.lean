/-
  PocketCalc.Proofs.Session.Brackets
  ──────────────────────────────────
  **THE COUNTER OF THE OPEN BRACKETS.**

  The keys that type and erase do not count the brackets of the formula: each of them adds
  one to the counter, takes one away or leaves it as it is.  By the invariant it is
  nevertheless the number of brackets that are open at the end of the formula, so the
  brackets that equals appends are those that are missing.

      formula_ended         only a pending point leaves when a number is closed
      formula_complete      equals appends as many brackets as are counted
      brackets_counted      the law of the counter, after any actions
-/
import PocketCalc.Proofs.Editor.Neighbours
import PocketCalc.Proofs.Session.Undoing

namespace PocketCalc

namespace Editor

variable {e : Editor}

/-! ## §1. What equals completes. -/

/-- The editor whose brackets equals closes: without a number being typed, and as it is
if the formula was evaluated. -/
def ended (e : Editor) : Editor := if e.evaluated then e else e.closeNumber

/-- When the number being typed is closed, only its pending point leaves the formula. -/
theorem formula_ended (h : e.Invariant) : e.ended.formula = withoutFinalPoint e.formula := by
  unfold ended
  cases hevaluated : e.evaluated with
  | true => exact (if_neg (isIdle_of_evaluated h hevaluated).last).symm
  | false =>
    show e.closeNumber.formula = _
    rcases h.number with ⟨base, n, hn⟩ | ⟨hidle, -⟩
    · rw [hn.closeNumber]
      exact hn.formula_withoutFinalPoint.symm
    · rw [hidle.closeNumber (.inl hevaluated)]
      exact (if_neg hidle.last).symm

theorem openBrackets_ended (e : Editor) : e.ended.openBrackets = e.openBrackets := by
  unfold ended
  cases hevaluated : e.evaluated with
  | true => rfl
  | false => exact openBrackets_closeNumber hevaluated

/-- **Equals appends as many brackets as are counted.** -/
theorem formula_complete (e : Editor) :
    e.complete.formula = e.ended.formula ++ List.replicate e.openBrackets .rightBracket := by
  rw [← openBrackets_ended]
  rfl

end Editor

namespace Session

/-! ## §2. The counter in a session. -/

/-- **THE COUNTER IS THE NUMBER OF BRACKETS THAT ARE OPEN.**  Whatever the actions and
changes of the settings were, it counts the left brackets of the formula without the right
ones, and no front part of the formula closes more brackets than it opens.  So equals
closes the number being typed, which costs the formula at most a pending point, appends as
many right brackets as were counted, and leaves a balanced formula and no bracket open. -/
theorem brackets_counted (settings : Settings) (steps : List Step) :
    let e := (run (fresh settings) steps).value.editor
    let completed := (run (fresh settings) (steps ++ [.act .equals])).value.editor
    (e.openBrackets : Int) = e.formula.count .leftBracket - e.formula.count .rightBracket
      ∧ (∀ front rest, e.formula = front ++ rest →
          front.count .rightBracket ≤ front.count .leftBracket)
      ∧ completed.formula = e.complete.formula
      ∧ e.complete.formula = e.ended.formula ++ List.replicate e.openBrackets .rightBracket
      ∧ e.ended.formula = Editor.withoutFinalPoint e.formula
      ∧ completed.formula.IsBalanced
      ∧ completed.openBrackets = 0 := by
  intro e completed
  have hinv : e.Invariant := (invariant_run (invariant_fresh settings) steps).editor
  have hclosed := Editor.depth?_of_evaluated (Editor.invariant_complete hinv) rfl
  have hcompleted : completed = e.complete.keep (evaluate e.complete.formula).toOption := by
    show (run (fresh settings) (steps ++ [.act .equals])).value.editor = _
    rw [run_concat]
    exact editor_equals _
  refine ⟨?_, ?_, ?_, Editor.formula_complete e, Editor.formula_ended hinv, ?_, ?_⟩
  · have hcount := Formula.count_leftBracket hinv.depth
    omega
  · intro front rest hcut
    have hdepth := hinv.depth
    rw [hcut] at hdepth
    exact Formula.count_rightBracket_le hdepth
  · rw [hcompleted]
    rfl
  · rw [hcompleted]
    exact Formula.isBalanced_of_depth? hclosed
  · rw [hcompleted]
    rfl

end Session

end PocketCalc
