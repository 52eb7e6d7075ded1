/-
  PocketCalc.Proofs.Session.Undoing
  ─────────────────────────────────
  **ERASING IS THE INVERSE OF TYPING.**

  Of the editor this holds key by key.  A session brings two things more: its result screen,
  which no key that appends reads, and changes of the settings, which the editor does not
  see.

      erase_apply           the inverse law for one action
      erase_undoes_press    the inverse law after any actions
-/
import PocketCalc.Proofs.Editor.Undoing
import PocketCalc.Proofs.Session.Outcome
import PocketCalc.Proofs.Session.Reachable

namespace PocketCalc

namespace Session

/-- **One key, and then the erase key.** -/
theorem erase_apply {s : Session MemoryStore} (h : s.Invariant)
    (hevaluated : s.editor.evaluated = false) {a : Action} (ha : s.editor.CanUndo a) :
    (s.apply a).value.editor.erase = s.editor := by
  cases a with
  | digit d =>
    show (s.clearResultIfEvaluated.editor.typeDigit d).erase = _
    rw [editor_clearResultIfEvaluated]
    exact Editor.erase_typeDigit h.editor hevaluated ha.1 ha.2
  | point =>
    show s.clearResultIfEvaluated.editor.typePoint.erase = _
    rw [editor_clearResultIfEvaluated]
    exact Editor.erase_typePoint h.editor hevaluated ha.1 ha.2
  | operator op =>
    by_cases hop : op = .factorial
    · subst hop
      exact Editor.erase_typeFactorial h.editor hevaluated ha.1 ha.2
    · obtain ⟨hplain, hfollow⟩ := ha.mayFollow hop
      exact Editor.erase_typeOperator h.editor hevaluated hplain hop hfollow
  | constant c => exact Editor.erase_typeConstant h.editor hevaluated ha c
  | leftBracket => exact Editor.erase_typeLeftBracket h.editor hevaluated ha
  | rightBracket => exact Editor.erase_typeRightBracket h.editor hevaluated ha.1 ha.2
  | erase => exact ha.elim
  | clear => exact ha.elim
  | equals => exact ha.elim
  | recallLast => exact ha.elim

/-- A change of the settings keeps the invariant, as an action does. -/
theorem invariant_step {s : Session MemoryStore} (h : s.Invariant) (x : Step) :
    (s.step x).value.Invariant := by
  cases x with
  | act a => exact invariant_apply h a
  | set settings =>
    show (s.withSettings settings).Invariant
    unfold withSettings
    split
    · exact ⟨h.editor, h.depth, h.last⟩
    · exact ⟨h.editor, h.depth, h.last⟩

theorem invariant_run {s : Session MemoryStore} (h : s.Invariant) (steps : List Step) :
    (s.run steps).value.Invariant := by
  induction steps generalizing s with
  | nil => exact h
  | cons x steps ih => exact ih (invariant_step h x)

end Session

/-- **ERASING IS THE INVERSE OF TYPING.**  Whatever the actions and changes of the settings
were, if the formula does not count as evaluated, then every key that appends and can be
taken back is taken back by one press of the erase key, and every field of the editor is
what it was. -/
theorem erase_undoes_press (settings : Settings) (steps : List Session.Step) (a : Action) :
    let e := (Session.run (Session.fresh settings) steps).value.editor
    e.evaluated = false → e.CanUndo a →
      (Session.run (Session.fresh settings) (steps ++ [.act a, .act .erase])).value.editor = e := by
  intro e hevaluated ha
  rw [Session.run_append]
  have hinv := Session.invariant_run (Session.invariant_fresh settings) steps
  exact Session.erase_apply hinv hevaluated ha

/-- In `(2.5`, a constant closes the number and implies a product sign; the erase key
takes both back and goes on with the number. -/
theorem erase_undoes_constant :
    let steps : List Session.Step :=
      [.act .leftBracket, .act (.digit 2), .act .point, .act (.digit 5)]
    let e := (Session.run (Session.fresh {}) steps).value.editor
    e.evaluated = false ∧ e.CanUndo (.constant .pi) ∧ e.typed = ['2', '.', '5']
      ∧ (e.typeConstant .pi).impliedTimes = [2]
      ∧ (Session.run (Session.fresh {})
          (steps ++ [.act (.constant .pi), .act .erase])).value.editor = e := by
  intro steps e
  have hevaluated : e.evaluated = false := by decide +kernel
  have htyped : e.typed = ['2', '.', '5'] := by decide +kernel
  have hplain : e.CanUndo (.constant .pi) :=
    .inr ⟨⟨25, 1⟩, by rw [htyped]; decide +kernel, by rw [htyped]; decide +kernel⟩
  exact ⟨hevaluated, hplain, htyped, by decide +kernel,
    erase_undoes_press {} steps (.constant .pi) hevaluated hplain⟩

end PocketCalc
