/-
  PocketCalc.Session.Basic
  ────────────────────────
  **SESSIONS.**

  A session joins the editor, the evaluator, a history and the result screen.
  Every action is one step from a session to the next, which tells its events.
  A successful calculation is shown and recorded; a refused one is only shown.
-/
import PocketCalc.Editor.Erasing
import PocketCalc.Editor.Evaluating
import PocketCalc.History.Store
import PocketCalc.Session.Action

namespace PocketCalc

/-- The state of a session over a store of type `σ`. -/
structure Session (σ : Type) where
  editor : Editor := {}
  settings : Settings := {}
  store : σ
  /-- The text of the result screen: a shown number or a refusal. -/
  result : String := ""

namespace Session

variable {σ : Type}

/-! ## §1. What is shown. -/

/-- The formula on the screen. -/
def shownFormula (s : Session σ) : String := s.editor.shown s.settings

/-- Changes the settings; a result that is still on the screen is shown anew. -/
def withSettings (s : Session σ) (settings : Settings) : Session σ :=
  match s.editor.lastResult, s.editor.evaluated with
  | some v, true => { s with settings, result := settings.showResult (some v) }
  | _, _ => { s with settings }

/-- Empties the result screen. -/
def clearResult (s : Session σ) : Session σ := { s with result := "" }

/-- Empties the result screen if it shows the outcome of the formula shown. -/
def clearResultIfEvaluated (s : Session σ) : Session σ :=
  if s.editor.evaluated then s.clearResult else s

@[simp] theorem editor_clearResultIfEvaluated (s : Session σ) :
    s.clearResultIfEvaluated.editor = s.editor := by
  unfold clearResultIfEvaluated
  split <;> rfl

@[simp] theorem settings_clearResultIfEvaluated (s : Session σ) :
    s.clearResultIfEvaluated.settings = s.settings := by
  unfold clearResultIfEvaluated
  split <;> rfl

@[simp] theorem store_clearResultIfEvaluated (s : Session σ) :
    s.clearResultIfEvaluated.store = s.store := by
  unfold clearResultIfEvaluated
  split <;> rfl

/-- Changes the editor. -/
def edit (s : Session σ) (change : Editor → Editor) : Session σ :=
  { s with editor := change s.editor }

/-! ## §2. Calculations. -/

/-- The events of the evaluation of a formula, and of its outcome. -/
def evaluationEvents (f : Formula) : List Event :=
  (checkpoints f).map .reached ++
    match evaluate f with
    | .ok v => [.computed f v]
    | .error e => [.refused f e]

variable [HistoryStore σ]

/-- Evaluates the formula of the editor: a value is shown, recorded and kept, a
refusal is shown. -/
def calculate (s : Session σ) : Logged (Session σ) := do
  let f := s.editor.formula
  Logged.tellAll (evaluationEvents f)
  match evaluate f with
  | .ok v =>
      let store ← HistoryStore.append s.store ⟨f, v⟩
      return { s with
        store, editor := s.editor.keep (some v), result := s.settings.showResult (some v) }
  | .error e => return { s with editor := s.editor.keep none, result := e.shortMessage }

/-- Recalls a record of the history and evaluates it again. -/
def recallLast (s : Session σ) : Logged (Session σ) := do
  let history ← HistoryStore.records s.store
  match s.editor.recallable history with
  | none =>
      Logged.tell (.nothingToRecall history.length s.editor.formula)
      return s
  | some r =>
      Logged.tell (.recalled r.formula)
      (s.edit fun e => e.load r.formula).calculate

/-! ## §3. Actions. -/

/-- The session after an action. -/
def apply (s : Session σ) (a : Action) : Logged (Session σ) :=
  match a with
  | .digit d => pure (s.clearResultIfEvaluated.edit fun e => e.typeDigit d)
  | .point => pure (s.clearResultIfEvaluated.edit Editor.typePoint)
  | .operator op => pure (s.edit fun e => e.typeOperator op)
  | .constant c => pure (s.edit fun e => e.typeConstant c)
  | .leftBracket => pure (s.edit Editor.typeLeftBracket)
  | .rightBracket => pure (s.edit Editor.typeRightBracket)
  | .erase => pure (s.clearResult.edit Editor.erase)
  | .clear => pure (s.clearResult.edit Editor.clear)
  | .equals => (s.edit Editor.complete).calculate
  | .recallLast => s.recallLast

/-- The session after several actions. -/
def applyAll (s : Session σ) : List Action → Logged (Session σ)
  | [] => pure s
  | a :: as => do
      let s ← s.apply a
      s.applyAll as

end Session

end PocketCalc
