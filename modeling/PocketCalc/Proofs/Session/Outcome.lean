/-
  PocketCalc.Proofs.Session.Outcome
  ─────────────────────────────────
  **AN EVALUATED FORMULA STANDS BESIDE ITS OUTCOME.**

  The screen text, the last result, the mark of an evaluated formula and the formula
  itself are four fields that different actions change.  As long as the mark is set,
  the other three belong together.  This holds of sessions over any store: what the
  store gives back is evaluated again, and never believed.

      apply_evaluated    how an action can end with an evaluated formula
      inStep_step        one action or change of the settings keeps the outcome
      outcome_shown      it holds after any of them
-/
import PocketCalc.Proofs.Editor.Edits
import PocketCalc.Session.Basic

namespace PocketCalc

namespace Session

variable {σ : Type}

/-! ## §1. What happens to a session. -/

/-- An action, or a change of the settings. -/
inductive Step where
  | act (a : Action)
  | set (settings : Settings)

section Running

variable [HistoryStore σ]

/-- The session after an action or a change of the settings. -/
def step (s : Session σ) : Step → Logged (Session σ)
  | .act a => s.apply a
  | .set settings => pure (s.withSettings settings)

/-- The session after several of them. -/
def run (s : Session σ) : List Step → Logged (Session σ)
  | [] => pure s
  | x :: xs => do
      let s ← s.step x
      s.run xs

theorem run_append (s : Session σ) (xs ys : List Step) :
    (s.run (xs ++ ys)).value = ((s.run xs).value.run ys).value := by
  induction xs generalizing s with
  | nil => rfl
  | cons x xs ih => exact ih (s.step x).value

theorem run_concat (s : Session σ) (steps : List Step) (x : Step) :
    (s.run (steps ++ [x])).value = ((s.run steps).value.step x).value := run_append s steps [x]

end Running

/-! ## §2. The outcome. -/

/-- The last result and the screen are those of the formula, and no more brackets
count as open than are. -/
structure ShowsOutcome (s : Session σ) : Prop where
  openBrackets : s.editor.openBrackets
    ≤ s.editor.formula.count .leftBracket - s.editor.formula.count .rightBracket
  value : ∀ v, evaluate s.editor.formula = .ok v →
    s.editor.lastResult = some v ∧ s.result = s.settings.showResult (some v)
  refusal : ∀ e, evaluate s.editor.formula = .error e →
    s.editor.lastResult = none ∧ s.result = e.shortMessage

/-- A last result is the value of the formula. -/
theorem ShowsOutcome.evaluate_eq {s : Session σ} (h : s.ShowsOutcome) {v : Decimal}
    (hv : s.editor.lastResult = some v) : evaluate s.editor.formula = .ok v := by
  cases he : evaluate s.editor.formula with
  | ok w => rw [← Option.some.inj ((h.value w he).1.symm.trans hv)]
  | error e => exact nomatch (h.refusal e he).1.symm.trans hv

/-- **A session is in step** if an evaluated formula stands beside its outcome. -/
def InStep (s : Session σ) : Prop := s.editor.evaluated = true → s.ShowsOutcome

theorem inStep_of_not_evaluated {s : Session σ} (h : s.editor.evaluated = false) : s.InStep :=
  fun hevaluated => absurd (h.symm.trans hevaluated) Bool.false_ne_true

/-- A key that is ignored keeps the session as it is. -/
theorem edit_of_ignored {s : Session σ} {change : Editor → Editor}
    (h : change s.editor = s.editor) : s.edit change = s := by
  unfold edit
  rw [h]

/-- A key that leaves the formula evaluated was ignored. -/
theorem edit_evaluated {s : Session σ} {change : Editor → Editor}
    (hchange : change s.editor = s.editor ∨ s.editor.Reopens (change s.editor))
    (h : (s.edit change).editor.evaluated = true) : s.edit change = s := by
  rcases hchange with hsame | hreopens
  · exact edit_of_ignored hsame
  · exact absurd h hreopens.not_evaluated

/-- A result on the screen is shown anew under other settings; a refusal stays. -/
theorem inStep_withSettings {s : Session σ} (h : s.InStep) (settings : Settings) :
    (s.withSettings settings).InStep := by
  unfold withSettings
  split
  · next v hresult hevaluated =>
    have hvalue := (h hevaluated).evaluate_eq hresult
    intro _
    refine ⟨(h hevaluated).openBrackets, fun w hw => ?_, fun e he => ?_⟩
    · have hvw := Except.ok.inj (hvalue.symm.trans hw)
      exact ⟨hvw ▸ hresult, by rw [hvw]⟩
    · exact nomatch hvalue.symm.trans he
  · next hnone =>
    intro hevaluated
    have hshows := h hevaluated
    -- Without a last result the formula was refused.
    refine ⟨hshows.openBrackets, fun w hw => ?_, hshows.refusal⟩
    exact absurd hevaluated (hnone w (hshows.value w hw).1)

section Actions

variable [HistoryStore σ]

/-- What a calculation leaves behind, whatever becomes of the store. -/
theorem calculate_fields (s : Session σ) :
    s.calculate.value.editor = s.editor.keep (evaluate s.editor.formula).toOption
      ∧ s.calculate.value.settings = s.settings
      ∧ s.calculate.value.result =
        match evaluate s.editor.formula with
        | .ok v => s.settings.showResult (some v)
        | .error e => e.shortMessage := by
  unfold calculate
  simp only [Logged.value_bind]
  cases evaluate s.editor.formula with
  | ok v => exact ⟨rfl, rfl, rfl⟩
  | error e => exact ⟨rfl, rfl, rfl⟩

/-- Equals completes the formula, and of its outcome the editor keeps the value. -/
theorem editor_equals (s : Session σ) :
    (s.apply .equals).value.editor
      = s.editor.complete.keep (evaluate s.editor.complete.formula).toOption :=
  (calculate_fields (s.edit Editor.complete)).1

/-- A value is recorded with its formula; a refusal is not. -/
theorem store_calculate (s : Session σ) :
    s.calculate.value.store =
      match evaluate s.editor.formula with
      | .ok v => (HistoryStore.append s.store ⟨s.editor.formula, v⟩).value
      | .error _ => s.store := by
  unfold calculate
  simp only [Logged.value_bind]
  cases evaluate s.editor.formula with
  | ok v => rfl
  | error e => rfl

/-- **A calculation shows its outcome.** -/
theorem showsOutcome_calculate {s : Session σ}
    (hopen : s.editor.openBrackets
      ≤ s.editor.formula.count .leftBracket - s.editor.formula.count .rightBracket) :
    s.calculate.value.ShowsOutcome := by
  obtain ⟨heditor, hsettings, hresult⟩ := calculate_fields s
  have hformula : s.calculate.value.editor.formula = s.editor.formula := by
    rw [heditor]
    rfl
  refine ⟨?_, fun v hv => ?_, fun e he => ?_⟩
  · rw [heditor]
    exact hopen
  · rw [hformula] at hv
    rw [heditor, hsettings, hresult, hv]
    exact ⟨rfl, rfl⟩
  · rw [hformula] at he
    rw [heditor, hresult, he]
    exact ⟨rfl, rfl⟩

/-- Recalling evaluates some formula, or it does nothing. -/
theorem recallLast_cases (s : Session σ) :
    s.recallLast.value = s ∨ s.recallLast.value.ShowsOutcome := by
  unfold recallLast
  simp only [Logged.value_bind]
  split
  · exact .inl rfl
  · exact .inr (showsOutcome_calculate (Nat.le_refl _))

/-- **An action that ends with an evaluated formula** was ignored, or it calculated, or it
was a digit that is none: the editor ignores it, but the screen is emptied. -/
theorem apply_evaluated (s : Session σ) {a : Action}
    (h : (s.apply a).value.editor.evaluated = true) :
    (s.apply a).value = s ∨ (s.apply a).value.ShowsOutcome
      ∨ ∃ d, a = .digit d ∧ 9 < d ∧ s.editor.evaluated = true
          ∧ (s.apply a).value = s.clearResult := by
  cases a with
  | digit d =>
    by_cases hd : d ≤ 9
    · exact absurd h (Editor.reopens_typeDigit _ hd).not_evaluated
    · have hignored : (s.apply (.digit d)).value = s.clearResultIfEvaluated := by
        show s.clearResultIfEvaluated.edit (fun e => e.typeDigit d) = _
        exact edit_of_ignored (Editor.typeDigit_of_lt _ (Nat.lt_of_not_le hd))
      have hevaluated : s.editor.evaluated = true := by
        rwa [hignored, editor_clearResultIfEvaluated] at h
      refine .inr (.inr ⟨d, rfl, Nat.lt_of_not_le hd, hevaluated, hignored.trans ?_⟩)
      unfold clearResultIfEvaluated
      rw [if_pos hevaluated]
  | point => exact absurd h (Editor.reopens_typePoint _).not_evaluated
  | operator op => exact .inl (edit_evaluated (Editor.typeOperator_cases s.editor op) h)
  | constant c => exact .inl (edit_evaluated (.inr (Editor.reopens_typeConstant s.editor c)) h)
  | leftBracket => exact .inl (edit_evaluated (.inr (Editor.reopens_typeLeftBracket s.editor)) h)
  | rightBracket => exact .inl (edit_evaluated (Editor.typeRightBracket_cases s.editor) h)
  | erase => exact absurd h (Editor.reopens_erase s.editor).not_evaluated
  | clear => exact nomatch h
  | equals => exact .inr (.inl (showsOutcome_calculate (Nat.zero_le _)))
  | recallLast => exact s.recallLast_cases.imp_right .inl

/-- There is nothing to complete in an evaluated formula without open brackets. -/
theorem complete_of_closed {e : Editor} (hevaluated : e.evaluated = true)
    (hclosed : e.openBrackets = 0) : e.complete = e := by
  unfold Editor.complete
  rw [if_pos hevaluated]
  dsimp only
  rw [hclosed, List.replicate_zero, List.append_nil]
  show { e with openBrackets := 0, evaluated := true } = e
  rw [← hclosed, ← hevaluated]

/-- **Equals once more**, with no bracket open, changes nothing but the store. -/
theorem apply_equals_again {s : Session σ} (h : s.ShowsOutcome)
    (hevaluated : s.editor.evaluated = true) (hclosed : s.editor.openBrackets = 0) :
    let s' := (s.apply .equals).value
    s'.editor = s.editor ∧ s'.settings = s.settings ∧ s'.result = s.result := by
  intro s'
  have hs : s' = s.calculate.value := by
    show (s.edit Editor.complete).calculate.value = _
    unfold edit
    rw [complete_of_closed hevaluated hclosed]
  obtain ⟨heditor, hsettings, hresult⟩ := calculate_fields s
  rw [hs, heditor, hsettings, hresult]
  -- What is kept and shown is there already.
  cases hf : evaluate s.editor.formula with
  | ok v =>
    obtain ⟨hlast, hshown⟩ := h.value v hf
    exact ⟨congrArg s.editor.keep hlast.symm, rfl, hshown.symm⟩
  | error e =>
    obtain ⟨hlast, hshown⟩ := h.refusal e hf
    exact ⟨congrArg s.editor.keep hlast.symm, rfl, hshown.symm⟩

/-! ## §3. Runs. -/

/-- **One action keeps the session in step.**  A digit that is none has to be left out:
the editor ignores it, but the screen is emptied. -/
theorem inStep_apply {s : Session σ} (h : s.InStep) {a : Action}
    (ha : ∀ d, a = .digit d → d ≤ 9) : (s.apply a).value.InStep := by
  intro hevaluated
  rcases apply_evaluated s hevaluated with hignored | hshows | ⟨d, rfl, hd, -⟩
  · rw [hignored] at hevaluated ⊢
    exact h hevaluated
  · exact hshows
  · exact absurd (ha d rfl) (Nat.not_le.2 hd)

theorem inStep_step {s : Session σ} (h : s.InStep) {x : Step}
    (hx : ∀ d, x = .act (.digit d) → d ≤ 9) : (s.step x).value.InStep := by
  cases x with
  | act a => exact inStep_apply h fun d hd => hx d (congrArg Step.act hd)
  | set settings => exact inStep_withSettings h settings

theorem inStep_run {s : Session σ} (h : s.InStep) {steps : List Step}
    (hsteps : ∀ d, Step.act (.digit d) ∈ steps → d ≤ 9) : (s.run steps).value.InStep := by
  induction steps generalizing s with
  | nil => exact h
  | cons x steps ih =>
    have hstep := inStep_step h fun d hd => hsteps d (hd ▸ List.mem_cons_self)
    exact ih hstep fun d hd => hsteps d (List.mem_cons_of_mem _ hd)

end Actions

end Session

/-- **AN EVALUATED FORMULA STANDS BESIDE ITS OUTCOME.**  Over any store, with any
content, and after any actions and changes of the settings, a formula that counts as
evaluated has its value as the last result and on the screen, as the present settings
show it; if it has none, there is no last result, and the screen tells why.  So equals
once more, with no bracket open, changes neither the editor nor the screens; and no
more brackets count as open than the formula has. -/
theorem outcome_shown {σ : Type} [HistoryStore σ] (store : σ) (settings : Settings)
    (steps : List Session.Step) (hsteps : ∀ d, Session.Step.act (.digit d) ∈ steps → d ≤ 9)
    (hevaluated : (Session.run { store, settings } steps).value.editor.evaluated = true) :
    let s := (Session.run { store, settings } steps).value
    (∀ v, evaluate s.editor.formula = .ok v →
        s.editor.lastResult = some v ∧ s.result = s.settings.showResult (some v))
      ∧ (∀ e, evaluate s.editor.formula = .error e →
          s.editor.lastResult = none ∧ s.result = e.shortMessage)
      ∧ s.editor.openBrackets
          ≤ s.editor.formula.count .leftBracket - s.editor.formula.count .rightBracket
      ∧ (s.editor.openBrackets = 0 →
          let s' := (s.apply .equals).value
          s'.editor = s.editor ∧ s'.result = s.result ∧ s'.shownFormula = s.shownFormula) := by
  intro s
  have hstart : ({ store, settings } : Session σ).InStep := Session.inStep_of_not_evaluated rfl
  have hshows : s.ShowsOutcome := Session.inStep_run hstart hsteps hevaluated
  refine ⟨hshows.value, hshows.refusal, hshows.openBrackets, fun hclosed => ?_⟩
  obtain ⟨heditor, hsettings, hresult⟩ :=
    Session.apply_equals_again hshows hevaluated hclosed
  refine ⟨heditor, hresult, ?_⟩
  unfold Session.shownFormula
  rw [heditor, hsettings]

/-- The store claims that `8÷5` is seven.  Recalled, and shown with a decimal comma, it
is not. -/
theorem outcome_shown_recalled :
    let f : Formula := [.number ⟨8, 0⟩, .operator .divide, .number ⟨5, 0⟩]
    let store : MemoryStore := ⟨[⟨f, ⟨7, 0⟩⟩, ⟨[.point], ⟨0, 0⟩⟩]⟩
    let comma := Settings.withDecimalComma {} true
    let steps : List Session.Step := [.act (.digit 3), .act .recallLast, .set comma]
    let s := (Session.run { store } steps).value
    (Session.Step.act (.digit 3) ∈ steps ∧ 3 ≤ 9) ∧ s.editor.evaluated = true
      ∧ s.editor.formula = f ∧ evaluate f = .ok ⟨16, 1⟩
      ∧ s.editor.lastResult = some ⟨16, 1⟩ ∧ s.result = "1,6"
      ∧ s.editor.openBrackets = 0 ∧ (s.apply .equals).value.editor = s.editor
      ∧ (s.apply .equals).value.result = "1,6" := by
  intro f store comma steps
  have hsteps : ∀ d, Session.Step.act (.digit d) ∈ steps → d ≤ 9 := by
    simp [steps]
  have hevaluated : (Session.run { store } steps).value.editor.evaluated = true := by
    decide +kernel
  have hformula : (Session.run { store } steps).value.editor.formula = f := by decide +kernel
  have hshown : (Session.run { store } steps).value.settings.showResult (some ⟨16, 1⟩) = "1,6" := by
    decide +kernel
  have hvalue : evaluate f = .ok ⟨16, 1⟩ := by decide +kernel
  have hshows := outcome_shown store {} steps hsteps hevaluated
  -- These facts are all that is needed of the session.
  generalize (Session.run { store } steps).value = s at hevaluated hformula hshown hshows ⊢
  obtain ⟨hok, -, hopen, hagain⟩ := hshows
  have hclosed : s.editor.openBrackets = 0 := by
    rw [hformula] at hopen
    exact Nat.le_zero.1 hopen
  obtain ⟨hlast, hresult⟩ := hok ⟨16, 1⟩ (by rw [hformula, hvalue])
  obtain ⟨heditor, hsame, -⟩ := hagain hclosed
  exact ⟨⟨List.mem_cons_self, by decide⟩, hevaluated, hformula, hvalue, hlast,
    hresult.trans hshown, hclosed, heditor, hsame.trans (hresult.trans hshown)⟩

end PocketCalc
