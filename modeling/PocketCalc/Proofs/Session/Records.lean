/-
  PocketCalc.Proofs.Session.Records
  ─────────────────────────────────
  **EVERY RECORD IS A CALCULATION THAT SUCCEEDED.**

  Two actions evaluate a formula: equals the completed one, recall one of the
  history.  If it has a value, that is the one new record; if it has none, or if
  nothing is evaluated, the history stays.  Recall feeds records back to the editor,
  so the records and the formula of the editor are sound only together:

      history_apply      what an action does to the history
      isSound_after      the records and the formula stay sound
-/
import PocketCalc.Proofs.Editor.Edits
import PocketCalc.Proofs.Editor.Neighbours
import PocketCalc.Proofs.Session.Reachable

namespace PocketCalc

namespace Session

/-! ## §1. What an action does to the history. -/

/-- The formula that an action evaluates. -/
def evaluates? (s : Session MemoryStore) : Action → Option Formula
  | .equals => some s.editor.complete.formula
  | .recallLast => (s.editor.recallable s.history).map Record.formula
  | _ => none

/-- The new record of an evaluation that succeeded, with its formula on the screen. -/
theorem history_calculate (s : Session MemoryStore) :
    s.calculate.value.editor.formula = s.editor.formula
      ∧ (∀ v, evaluate s.editor.formula = .ok v →
          s.calculate.value.history = s.history ++ [⟨s.editor.formula, v⟩])
      ∧ ∀ e, evaluate s.editor.formula = .error e → s.calculate.value.history = s.history := by
  rw [value_calculate]
  cases evaluate s.editor.formula with
  | ok v =>
    refine ⟨rfl, fun w hw => ?_, fun e he => ?_⟩
    · rw [← Except.ok.inj hw]
      rfl
    · exact nomatch he
  | error e =>
    refine ⟨rfl, fun v hv => ?_, fun _ _ => rfl⟩
    exact nomatch hv

theorem history_clearResultIfEvaluated (s : Session MemoryStore) :
    s.clearResultIfEvaluated.history = s.history :=
  congrArg MemoryStore.history s.store_clearResultIfEvaluated

/-- **What an action does to the history.** -/
theorem history_apply (s : Session MemoryStore) (a : Action) :
    match s.evaluates? a with
    | none => (s.apply a).value.history = s.history
    | some f =>
        (s.apply a).value.editor.formula = f
          ∧ (∀ v, evaluate f = .ok v → (s.apply a).value.history = s.history ++ [⟨f, v⟩])
          ∧ ∀ e, evaluate f = .error e → (s.apply a).value.history = s.history := by
  cases a with
  | digit d => exact history_clearResultIfEvaluated s
  | point => exact history_clearResultIfEvaluated s
  | equals => exact history_calculate (s.edit Editor.complete)
  | recallLast =>
    have hrecall : (s.apply .recallLast).value = s.recallLast.value := rfl
    rw [hrecall, value_recallLast]
    unfold evaluates?
    cases s.editor.recallable s.history with
    | none => rfl
    | some r => exact history_calculate (s.edit fun e => e.load r.formula)
  | _ => rfl

/-! ## §2. Soundness. -/

/-- **The records are calculations that succeeded**, and no number is out of its normal
form, neither in them nor in the editor. -/
structure IsSound (s : Session MemoryStore) : Prop where
  formula : s.editor.formula.IsNormal
  value : ∀ r ∈ s.history, evaluate r.formula = .ok r.result
  normal : ∀ r ∈ s.history, r.formula.IsNormal

theorem isSound_fresh (settings : Settings) : (fresh settings).IsSound where
  formula := .nil
  value := fun _ h => nomatch h
  normal := fun _ h => nomatch h

theorem isSound_edit {s : Session MemoryStore} (h : s.IsSound) (change : Editor → Editor)
    (hchange : s.editor.formula.IsNormal → (change s.editor).formula.IsNormal) :
    (s.edit change).IsSound :=
  ⟨hchange h.formula, h.value, h.normal⟩

theorem isSound_clearResultIfEvaluated {s : Session MemoryStore} (h : s.IsSound) :
    s.clearResultIfEvaluated.IsSound := by
  unfold clearResultIfEvaluated
  split
  · exact ⟨h.formula, h.value, h.normal⟩
  · exact h

/-- **A calculation adds no record but a sound one.** -/
theorem isSound_calculate {s : Session MemoryStore} (h : s.IsSound) :
    s.calculate.value.IsSound := by
  rw [value_calculate]
  cases hv : evaluate s.editor.formula with
  | error e => exact ⟨h.formula, h.value, h.normal⟩
  | ok v =>
    refine ⟨h.formula, List.forall_mem_append.2 ⟨h.value, ?_⟩,
      List.forall_mem_append.2 ⟨h.normal, ?_⟩⟩
    · exact List.forall_mem_singleton.2 hv
    · exact List.forall_mem_singleton.2 h.formula

/-- **One action keeps the session sound.** -/
theorem isSound_apply {s : Session MemoryStore} (h : s.IsSound) (a : Action) :
    (s.apply a).value.IsSound := by
  cases a with
  | digit d =>
    exact isSound_edit (isSound_clearResultIfEvaluated h) (fun e => e.typeDigit d)
      (Editor.isNormal_of_cases (Editor.typeDigit_cases _ d))
  | point =>
    exact isSound_edit (isSound_clearResultIfEvaluated h) Editor.typePoint
      (Editor.reopens_typePoint _).normal
  | operator op =>
    exact isSound_edit h (fun e => e.typeOperator op)
      (Editor.isNormal_of_cases (Editor.typeOperator_cases _ op))
  | constant c =>
    exact isSound_edit h (fun e => e.typeConstant c) (Editor.reopens_typeConstant _ c).normal
  | leftBracket =>
    exact isSound_edit h Editor.typeLeftBracket (Editor.reopens_typeLeftBracket _).normal
  | rightBracket =>
    exact isSound_edit h Editor.typeRightBracket
      (Editor.isNormal_of_cases (Editor.typeRightBracket_cases _))
  | erase => exact ⟨(Editor.reopens_erase s.editor).normal h.formula, h.value, h.normal⟩
  | clear => exact ⟨.nil, h.value, h.normal⟩
  | equals => exact isSound_calculate (isSound_edit h Editor.complete Editor.isNormal_complete)
  | recallLast =>
    show s.recallLast.value.IsSound
    rw [value_recallLast]
    cases hr : s.editor.recallable s.history with
    | none => exact h
    | some r =>
      -- The formula that is recalled was recorded, so it has no other numbers.
      have hload : (s.edit fun e => e.load r.formula).IsSound :=
        ⟨h.normal r (mem_of_recallable hr), h.value, h.normal⟩
      exact isSound_calculate hload

/-- **The session is sound after any actions.** -/
theorem isSound_after (settings : Settings) (actions : List Action) :
    (after settings actions).IsSound :=
  applyAll_keeps isSound_apply (isSound_fresh settings) actions

end Session

/-! ## §3. Records. -/

theorem ne_nil_of_evaluate {f : Formula} {v : Decimal} (h : evaluate f = .ok v) : f ≠ [] := by
  rintro rfl
  cases h

/-- **EVERY RECORD IS A CALCULATION THAT SUCCEEDED.**  The history grows by the one
record of an evaluation that succeeds, on equals or recall, and by nothing else; the
formula that was evaluated is the one on the screen, also if it was refused.  Each
record has a formula that is not empty, is balanced, has no pending point and no number
out of its normal form, and that has the recorded value. -/
theorem history_sound (settings : Settings) (actions : List Action) :
    let s := Session.after settings actions
    (∀ a,
        let s' := Session.after settings (actions ++ [a])
        match s.evaluates? a with
        | none => s'.history = s.history
        | some f =>
            s'.editor.formula = f
              ∧ (∀ v, evaluate f = .ok v → s'.history = s.history ++ [⟨f, v⟩])
              ∧ ∀ e, evaluate f = .error e → s'.history = s.history)
      ∧ ∀ r ∈ s.history,
          evaluate r.formula = .ok r.result ∧ r.formula ≠ [] ∧ .point ∉ r.formula
            ∧ r.formula.IsBalanced ∧ r.formula.IsNormal := by
  intro s
  have hinv : s.Invariant := Session.invariant_after settings actions
  have hsound : s.IsSound := Session.isSound_after settings actions
  refine ⟨fun a => ?_, fun r hr => ?_⟩
  · rw [Session.after_concat]
    exact Session.history_apply s a
  · have hvalue := hsound.value r hr
    have hdepth := hinv.depth r hr
    exact ⟨hvalue, ne_nil_of_evaluate hvalue, Formula.not_mem_point hdepth (hinv.last r hr),
      Formula.isBalanced_of_depth? hdepth, hsound.normal r hr⟩

end PocketCalc
