/-
  PocketCalc.Proofs.Session.Interference
  ──────────────────────────────────────
  **SETTINGS NEVER REACH A VALUE.**

  A session keeps the exact value of a result beside its rounded text.  What goes on from
  a result, what is recalled and what the history keeps is the value: the editor and the
  store after an action depend on the editor and the store before it, and on nothing that
  is shown.  So runs with the same actions agree on both, whatever was set in between.

      agrees_apply      an action reads the editor and the store only
      agrees_run        so a run depends on its actions only
      result_run        what the screen shows beside a value
      values_settled    values by the actions, the text by the value and the latest settings
      screen_emptied    the text may be missing
-/
import PocketCalc.Proofs.Session.Screen

namespace PocketCalc

namespace Session

variable {σ : Type} {s t : Session σ}

/-! ## §1. What a run is made of. -/

/-- The action of a step that is one. -/
def Step.action? : Step → Option Action
  | .act a => some a
  | .set _ => none

/-- The actions of a run. -/
def actionsOf (steps : List Step) : List Action := steps.filterMap Step.action?

/-- The settings in force after a run. -/
def latest (settings : Settings) : List Step → Settings
  | [] => settings
  | .act _ :: steps => latest settings steps
  | .set settings :: steps => latest settings steps

/-- The sessions hold the same formula, with all that the editor keeps of it, and the
same history; their settings and their screens may differ. -/
structure Agrees (s t : Session σ) : Prop where
  editor : s.editor = t.editor
  store : s.store = t.store

/-! ## §2. One step. -/

theorem agrees_edit (h : s.Agrees t) (change : Editor → Editor) :
    (s.edit change).Agrees (t.edit change) := ⟨congrArg change h.editor, h.store⟩

theorem agrees_clearResultIfEvaluated (s : Session σ) : s.clearResultIfEvaluated.Agrees s :=
  ⟨s.editor_clearResultIfEvaluated, s.store_clearResultIfEvaluated⟩

theorem agrees_clearResult (h : s.Agrees t) : s.clearResult.Agrees t.clearResult :=
  ⟨h.editor, h.store⟩

theorem Agrees.trans {r : Session σ} (h : r.Agrees s) (h' : s.Agrees t) : r.Agrees t :=
  ⟨h.editor.trans h'.editor, h.store.trans h'.store⟩

theorem Agrees.symm (h : s.Agrees t) : t.Agrees s := ⟨h.editor.symm, h.store.symm⟩

theorem agrees_withSettings (s : Session σ) (settings : Settings) :
    (s.withSettings settings).Agrees s := by
  unfold withSettings
  split
  · exact ⟨rfl, rfl⟩
  · exact ⟨rfl, rfl⟩

section

variable [HistoryStore σ]

/-- A calculation evaluates the formula, and keeps its value and not its text. -/
theorem agrees_calculate (h : s.Agrees t) : s.calculate.value.Agrees t.calculate.value where
  editor := by rw [(calculate_fields s).1, (calculate_fields t).1, h.editor]
  store := by rw [store_calculate, store_calculate, h.editor, h.store]

theorem agrees_recallLast (h : s.Agrees t) : s.recallLast.value.Agrees t.recallLast.value := by
  unfold recallLast
  simp only [Logged.value_bind]
  rw [h.editor, h.store]
  split
  · exact h
  · exact agrees_calculate (agrees_edit h _)

/-- **An action reads the editor and the store only.** -/
theorem agrees_apply (h : s.Agrees t) (a : Action) : (s.apply a).value.Agrees (t.apply a).value := by
  -- Emptying the screen touches neither the editor nor the store.
  have hcleared : s.clearResultIfEvaluated.Agrees t.clearResultIfEvaluated :=
    (agrees_clearResultIfEvaluated s).trans (h.trans (agrees_clearResultIfEvaluated t).symm)
  cases a with
  | digit d => exact agrees_edit hcleared fun e => e.typeDigit d
  | point => exact agrees_edit hcleared Editor.typePoint
  | operator op => exact agrees_edit h fun e => e.typeOperator op
  | constant c => exact agrees_edit h fun e => e.typeConstant c
  | leftBracket => exact agrees_edit h Editor.typeLeftBracket
  | rightBracket => exact agrees_edit h Editor.typeRightBracket
  | erase => exact agrees_edit (agrees_clearResult h) Editor.erase
  | clear => exact agrees_edit (agrees_clearResult h) Editor.clear
  | equals => exact agrees_calculate (agrees_edit h Editor.complete)
  | recallLast => exact agrees_recallLast h

/-! ## §3. Runs. -/

/-- **A run agrees with its actions alone**, under any other settings. -/
theorem agrees_run (h : s.Agrees t) (steps : List Step) :
    (s.run steps).value.Agrees (t.applyAll (actionsOf steps)).value := by
  induction steps generalizing s t with
  | nil => exact h
  | cons x steps ih =>
    -- An action is one on both sides; a change of the settings leaves the other side alone.
    cases x with
    | act a => exact ih (agrees_apply h a)
    | set settings => exact ih ((agrees_withSettings s settings).trans h)

/-- The settings in force are the last ones set. -/
theorem settings_latest (s : Session σ) (steps : List Step) :
    (s.run steps).value.settings = latest s.settings steps := by
  induction steps generalizing s with
  | nil => rfl
  | cons x steps ih =>
    cases x with
    | act a =>
      refine (ih (s.apply a).value).trans ?_
      rw [(touches_apply s a).settings]
      rfl
    | set settings =>
      refine (ih (s.withSettings settings)).trans ?_
      have hset : (s.withSettings settings).settings = settings := by
        unfold withSettings
        split <;> rfl
      rw [hset]
      rfl

/-! ## §4. The text beside a value. -/

/-- Since the last change of the settings, a digit that is none was typed behind an
evaluated formula. -/
def EmptiedBy (start : Session σ) (steps : List Step) : Prop :=
  ∃ earlier d later, steps = earlier ++ .act (.digit d) :: later ∧ 9 < d
    ∧ (start.run earlier).value.editor.evaluated = true ∧ ∀ u, Step.set u ∉ later

theorem EmptiedBy.concat {start : Session σ} {steps : List Step} (h : start.EmptiedBy steps)
    (a : Action) : start.EmptiedBy (steps ++ [.act a]) := by
  obtain ⟨earlier, d, later, rfl, hd, hevaluated, hlater⟩ := h
  refine ⟨earlier, d, later ++ [.act a], by simp, hd, hevaluated, fun u hu => ?_⟩
  rcases List.mem_append.1 hu with hu | hu
  · exact hlater u hu
  · exact nomatch List.mem_singleton.1 hu

/-- **Beside a value the screen shows it** with the present settings, or it was emptied. -/
theorem result_run (start : Session σ) (hstart : start.editor.evaluated = false)
    (steps : List Step) {v : Decimal} :
    let s := (start.run steps).value
    s.editor.evaluated = true → s.editor.lastResult = some v →
      s.result = s.settings.showResult (some v) ∨ s.result = "" ∧ start.EmptiedBy steps := by
  induction steps using List.reverseRecOn with
  | nil => exact fun h => nomatch hstart.symm.trans h
  | append_singleton steps x ih =>
    rw [run_concat]
    intro s hevaluated hv
    cases x with
    | set settings =>
      -- What is on the screen is shown anew.
      have heditor : s.editor = (start.run steps).value.editor :=
        (agrees_withSettings _ settings).editor
      rw [heditor] at hevaluated hv
      have hs : s = { (start.run steps).value with
          settings := settings, result := settings.showResult (some v) } := by
        show (start.run steps).value.withSettings settings = _
        unfold withSettings
        rw [hv, hevaluated]
      rw [hs]
      exact .inl rfl
    | act a =>
      rcases apply_evaluated _ hevaluated with hsame | hshows | ⟨d, rfl, hd, hbefore, hcleared⟩
      · have hs : s = (start.run steps).value := hsame
        rw [hs] at hevaluated hv ⊢
        exact (ih hevaluated hv).imp_right fun ⟨hempty, hby⟩ => ⟨hempty, hby.concat a⟩
      · exact .inl (hshows.value v (hshows.evaluate_eq hv)).2
      · refine .inr ⟨congrArg Session.result hcleared, steps, d, [], rfl, hd, hbefore, ?_⟩
        exact fun u hu => nomatch hu

end

end Session

/-- **SETTINGS NEVER REACH A VALUE.**  Over any store, two runs with the same actions end
with the same editor and the same store, under whatever settings they start and whatever
is set in between.  Beside a value, the screen shows it with the latest settings, and that
is all that the text depends on, unless a digit that is none has emptied the screen since
they were set. -/
theorem values_settled {σ : Type} [HistoryStore σ] (store : σ) (u v : Settings)
    (xs ys : List Session.Step) (hsame : Session.actionsOf xs = Session.actionsOf ys) :
    let s := (Session.run { store, settings := u } xs).value
    let t := (Session.run { store, settings := v } ys).value
    s.editor = t.editor ∧ s.store = t.store
      ∧ ∀ w, s.editor.evaluated = true → s.editor.lastResult = some w →
          s.result = (Session.latest u xs).showResult (some w)
            ∨ s.result = "" ∧ Session.EmptiedBy { store, settings := u } xs := by
  intro s t
  -- Both agree with the run of the actions alone, under the settings of one of them.
  have hs := Session.agrees_run (s := { store, settings := u }) (t := { store, settings := u })
    ⟨rfl, rfl⟩ xs
  have ht := Session.agrees_run (s := { store, settings := v }) (t := { store, settings := u })
    ⟨rfl, rfl⟩ ys
  rw [← hsame] at ht
  obtain ⟨heditor, hstore⟩ := hs.trans ht.symm
  refine ⟨heditor, hstore, fun w hevaluated hw => ?_⟩
  rw [← Session.settings_latest { store, settings := u } xs]
  exact Session.result_run _ rfl xs hevaluated hw

/-- An eighth with a decimal comma, and rounded to two places: the screens differ, and what
goes on from them does not. -/
theorem values_settled_eighth :
    let eighth : List Session.Step := [.act (.digit 1), .act (.operator .divide), .act (.digit 8)]
    let comma := Settings.withDecimalComma {} true
    let rounded := Settings.withShownPlaces {} 2
    let xs := eighth ++ [.set comma, .act .equals]
    let ys := eighth ++ [.act .equals, .set comma, .set rounded]
    let s := (Session.run { store := ({} : MemoryStore), settings := rounded } xs).value
    let t := (Session.run { store := ({} : MemoryStore), settings := {} } ys).value
    Session.actionsOf xs = Session.actionsOf ys
      ∧ s.editor = t.editor ∧ s.store = t.store
      ∧ s.editor.evaluated = true ∧ s.editor.lastResult = some ⟨125, 3⟩
      ∧ s.result = "0,125" ∧ t.result = "0.13" := by
  intro eighth comma rounded xs ys
  have hsettled := values_settled ({} : MemoryStore) rounded {} xs ys rfl
  have hshown : (Session.latest rounded xs).showResult (some ⟨125, 3⟩) = "0,125" := by
    decide +kernel
  have hevaluated : (Session.run { store := ({} : MemoryStore), settings := rounded }
      xs).value.editor.evaluated = true := by decide +kernel
  have hlast : (Session.run { store := ({} : MemoryStore), settings := rounded }
      xs).value.editor.lastResult = some ⟨125, 3⟩ := by decide +kernel
  have hnonempty : (Session.run { store := ({} : MemoryStore), settings := rounded }
      xs).value.result ≠ "" := by decide +kernel
  have hother : (Session.run { store := ({} : MemoryStore), settings := {} }
      ys).value.result = "0.13" := by decide +kernel
  -- These facts are all that is needed of the two sessions.
  generalize (Session.run { store := ({} : MemoryStore), settings := rounded } xs).value = s
    at hsettled hevaluated hlast hnonempty ⊢
  generalize (Session.run { store := ({} : MemoryStore), settings := {} } ys).value = t
    at hsettled hother ⊢
  obtain ⟨heditor, hstore, hresult⟩ := hsettled
  have htext := (hresult _ hevaluated hlast).resolve_right fun hempty => hnonempty hempty.1
  exact ⟨rfl, heditor, hstore, hevaluated, hlast, htext.trans hshown, hother⟩

/-- **The text beside a value may be missing.**  The key of a digit that is none is ignored
by the editor, but the screen is emptied; under the same settings, set once more, the
value is shown again. -/
theorem screen_emptied :
    let xs : List Session.Step := [.act (.digit 1), .act .equals, .act (.digit 10)]
    let ys := xs ++ [.set {}]
    let s := (Session.run { store := ({} : MemoryStore) } xs).value
    let t := (Session.run { store := ({} : MemoryStore) } ys).value
    Session.actionsOf xs = Session.actionsOf ys
      ∧ Session.latest {} xs = Session.latest {} ys
      ∧ s.editor = t.editor ∧ s.editor.evaluated = true ∧ s.editor.lastResult = some ⟨1, 0⟩
      ∧ s.result = "" ∧ t.result = "1" := by
  intro xs ys s t
  refine ⟨rfl, rfl, ?_, ?_, ?_, ?_, ?_⟩ <;> decide +kernel

end PocketCalc
