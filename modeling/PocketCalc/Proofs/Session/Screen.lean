/-
  PocketCalc.Proofs.Session.Screen
  ────────────────────────────────
  **WHICH SETTINGS THE RESULT SCREEN FOLLOWS.**

  The text of the result screen is kept, and written anew only by a calculation, or by a
  change of the settings as long as the formula counts as evaluated.  So the text is
  dated: it follows the settings that were in force when the formula last counted as
  evaluated, and a key that goes on from the result leaves it behind.

      keepsDate_step    one step keeps the date, or brings it up to now
      screen_dated      what is on the screen after any steps
      screen_stale      the screen does not always follow the present settings
-/
import PocketCalc.Proofs.Session.Outcome

namespace PocketCalc

/-! ## §1. Keys keep the last result. -/

namespace Editor

@[simp] theorem lastResult_push (e : Editor) (t : Token) : (e.push t).lastResult = e.lastResult :=
  rfl

@[simp] theorem lastResult_pop (e : Editor) : e.pop.lastResult = e.lastResult := rfl

@[simp] theorem lastResult_note (e : Editor) (a : Appended) :
    (e.note a).lastResult = e.lastResult := rfl

@[simp] theorem lastResult_restartIfEvaluated (e : Editor) :
    e.restartIfEvaluated.lastResult = e.lastResult := by
  unfold restartIfEvaluated
  split <;> rfl

@[simp] theorem lastResult_multiplyBehindValue (e : Editor) :
    e.multiplyBehindValue.lastResult = e.lastResult := by
  unfold multiplyBehindValue
  split <;> rfl

@[simp] theorem lastResult_multiplyBehindAppended (e : Editor) :
    e.multiplyBehindAppended.lastResult = e.lastResult := by
  unfold multiplyBehindAppended
  split <;> rfl

@[simp] theorem lastResult_dropPendingPoint (e : Editor) :
    e.dropPendingPoint.lastResult = e.lastResult := by
  unfold dropPendingPoint
  split <;> rfl

@[simp] theorem lastResult_pushTyped (e : Editor) : e.pushTyped.lastResult = e.lastResult := by
  unfold pushTyped
  split <;> rfl

/-- A formula that goes on from its result keeps the result. -/
@[simp] theorem lastResult_closeNumber (e : Editor) :
    e.closeNumber.lastResult = e.lastResult := by
  unfold closeNumber
  dsimp only
  rw [lastResult_dropPendingPoint]
  split <;> rfl

@[simp] theorem lastResult_placeOperator (e : Editor) (op : Operator) :
    (e.placeOperator op).lastResult = e.lastResult := by
  unfold placeOperator
  dsimp only
  split
  · split <;> rfl
  · split <;> rfl
  · split <;> rfl
  · split <;> rfl
  · rfl

theorem lastResult_typeDigit (e : Editor) (d : Nat) :
    (e.typeDigit d).lastResult = e.lastResult := by
  unfold typeDigit
  split
  · rfl
  · dsimp only
    split <;> simp

theorem lastResult_typePoint (e : Editor) : e.typePoint.lastResult = e.lastResult := by
  unfold typePoint
  dsimp only
  split
  · simp
  · split <;> simp

theorem lastResult_typeOperator (e : Editor) (op : Operator) :
    (e.typeOperator op).lastResult = e.lastResult := by
  unfold typeOperator typeFactorial
  split
  · split <;> simp
  · simp

theorem lastResult_typeConstant (e : Editor) (c : Constant) :
    (e.typeConstant c).lastResult = e.lastResult := by simp [typeConstant]

theorem lastResult_typeLeftBracket (e : Editor) :
    e.typeLeftBracket.lastResult = e.lastResult := by simp [typeLeftBracket]

theorem lastResult_typeRightBracket (e : Editor) :
    e.typeRightBracket.lastResult = e.lastResult := by
  unfold typeRightBracket
  split <;> simp

@[simp] theorem lastResult_removeToken (e : Editor) : e.removeToken.lastResult = e.lastResult := by
  unfold removeToken
  split <;> rfl

@[simp] theorem lastResult_dropImpliedTimes (e : Editor) :
    e.dropImpliedTimes.lastResult = e.lastResult := by
  unfold dropImpliedTimes
  dsimp only
  split <;> rfl

@[simp] theorem lastResult_resume (e : Editor) (text : List Char) :
    (e.resume text).lastResult = e.lastResult := by
  unfold resume
  dsimp only
  split <;> simp

@[simp] theorem lastResult_resync (e : Editor) : e.resync.lastResult = e.lastResult := by
  unfold resync
  split <;> simp

/-- The erasing key keeps the last result. -/
theorem lastResult_erase (e : Editor) : e.erase.lastResult = e.lastResult := by
  unfold erase
  dsimp only
  split
  · rfl
  · split
    · split <;> simp
    · simp

end Editor

namespace Session

variable {σ : Type} {s s' : Session σ} {u : Settings}

/-! ## §2. What the screen shows. -/

/-- The result screen is empty, or it shows the last result with these settings, or
there is no last result, and it tells why. -/
def Follows (s : Session σ) (u : Settings) : Prop :=
  s.result = ""
    ∨ (∃ v, s.editor.lastResult = some v ∧ s.result = u.showResult (some v))
    ∨ s.editor.lastResult = none ∧ ∃ e : EvalError, s.result = e.shortMessage

/-- The screen is emptied, or it is left alone with the last result. -/
def Leaves (s s' : Session σ) : Prop :=
  s'.result = "" ∨ s'.result = s.result ∧ s'.editor.lastResult = s.editor.lastResult

/-- A text that is left alone follows the same settings, and an empty one follows any. -/
theorem Follows.leaves (h : s.Follows u) (hleaves : s.Leaves s') : s'.Follows u := by
  rcases hleaves with hempty | ⟨hresult, hlast⟩
  · exact .inl hempty
  · unfold Follows
    rw [hresult, hlast]
    exact h

/-- **What an action does to the screen**: it shows the outcome of a calculation, or it
is not touched, and then no formula comes to count as evaluated. -/
structure Touches (s s' : Session σ) : Prop where
  settings : s'.settings = s.settings
  screen : s'.editor.evaluated = true ∧ s'.Follows s.settings
    ∨ s.Leaves s' ∧ (s'.editor.evaluated = true → s.editor.evaluated = true)

/-- A key that edits, and the screen that is emptied with it or not. -/
theorem touches_edit (change : Editor → Editor) (hsettings : s'.settings = s.settings)
    (heditor : s'.editor = s.editor) (hresult : s'.result = "" ∨ s'.result = s.result)
    (hlast : (change s.editor).lastResult = s.editor.lastResult)
    (hchange : change s.editor = s.editor ∨ s.editor.Reopens (change s.editor)) :
    s.Touches (s'.edit change) := by
  have hedited : (s'.edit change).editor = change s.editor := congrArg change heditor
  refine ⟨hsettings, .inr ⟨?_, fun hevaluated => ?_⟩⟩
  · rcases hresult with hempty | hsame
    · exact .inl hempty
    · exact .inr ⟨hsame, by rw [hedited, hlast]⟩
  · rw [hedited] at hevaluated
    rcases hchange with hsame | hreopens
    · rwa [hsame] at hevaluated
    · exact absurd hevaluated hreopens.not_evaluated

/-- A key that starts a new formula empties the screen, any other leaves it. -/
theorem result_clearResultIfEvaluated (s : Session σ) :
    s.clearResultIfEvaluated.result = "" ∨ s.clearResultIfEvaluated.result = s.result := by
  unfold clearResultIfEvaluated
  split
  · exact .inl rfl
  · exact .inr rfl

/-! ## §3. The date of the screen. -/

/-- The screen follows these settings, and they are the present ones if the formula
counts as evaluated. -/
structure Dated (s : Session σ) (u : Settings) : Prop where
  follows : s.Follows u
  now : s.editor.evaluated = true → s.settings = u

/-- A screen that follows the present settings is dated now. -/
theorem dated_now (h : s.Follows s.settings) : s.Dated s.settings := ⟨h, fun _ => rfl⟩

/-- An earlier date needs a formula that does not count as evaluated. -/
theorem dated_before (h : s.Follows u) (hevaluated : s.editor.evaluated = false) : s.Dated u :=
  ⟨h, fun h' => nomatch hevaluated.symm.trans h'⟩

/-- What a step may make of the date: it is now, or it stays and the formula does not
count as evaluated. -/
def KeepsDate (u : Settings) (s' : Session σ) : Prop :=
  s'.editor.evaluated = true ∧ s'.Dated s'.settings ∨ s'.editor.evaluated = false ∧ s'.Dated u

/-- A change of the settings brings the screen up to date, or it leaves it alone if the
formula does not count as evaluated. -/
theorem keepsDate_withSettings (h : s.Dated u) (settings : Settings) :
    KeepsDate u (s.withSettings settings) := by
  unfold withSettings
  cases hevaluated : s.editor.evaluated with
  | false =>
    -- Neither the text nor the last result is touched.
    split
    · next h' => cases h'
    · exact .inr ⟨hevaluated, dated_before h.follows hevaluated⟩
  | true =>
    cases hlast : s.editor.lastResult with
    | some v => exact .inl ⟨hevaluated, dated_now (.inr (.inl ⟨v, hlast, rfl⟩))⟩
    | none =>
      refine .inl ⟨hevaluated, dated_now ?_⟩
      rcases h.follows with hempty | ⟨v, hv, -⟩ | hrefused
      · exact .inl hempty
      · exact nomatch hlast.symm.trans hv
      · exact .inr (.inr hrefused)

section

variable [HistoryStore σ]

/-! ## §4. One step. -/

/-- A calculation shows its outcome with the present settings. -/
theorem touches_calculate (hsettings : s'.settings = s.settings)
    (hevaluated : s'.editor.evaluated = true) : s.Touches s'.calculate.value := by
  obtain ⟨heditor, hkept, hresult⟩ := calculate_fields s'
  refine ⟨hkept.trans hsettings, .inl ⟨?_, ?_⟩⟩
  · rw [heditor]
    exact hevaluated
  · unfold Follows
    rw [heditor, hresult, ← hsettings]
    cases evaluate s'.editor.formula with
    | ok v => exact .inr (.inl ⟨v, rfl, rfl⟩)
    | error e => exact .inr (.inr ⟨rfl, e, rfl⟩)

/-- Every action edits and leaves the screen, or it calculates and shows the outcome. -/
theorem touches_apply (s : Session σ) (a : Action) : s.Touches (s.apply a).value := by
  have hsettings := s.settings_clearResultIfEvaluated
  have heditor := s.editor_clearResultIfEvaluated
  have hresult := s.result_clearResultIfEvaluated
  cases a with
  | digit d =>
    exact touches_edit (fun e => e.typeDigit d) hsettings heditor hresult
      (Editor.lastResult_typeDigit _ d) (Editor.typeDigit_cases _ d)
  | point =>
    exact touches_edit Editor.typePoint hsettings heditor hresult
      (Editor.lastResult_typePoint _) (.inr (Editor.reopens_typePoint _))
  | operator op =>
    exact touches_edit (fun e => e.typeOperator op) rfl rfl (.inr rfl)
      (Editor.lastResult_typeOperator _ op) (Editor.typeOperator_cases _ op)
  | constant c =>
    exact touches_edit (fun e => e.typeConstant c) rfl rfl (.inr rfl)
      (Editor.lastResult_typeConstant _ c) (.inr (Editor.reopens_typeConstant _ c))
  | leftBracket =>
    exact touches_edit Editor.typeLeftBracket rfl rfl (.inr rfl)
      (Editor.lastResult_typeLeftBracket _) (.inr (Editor.reopens_typeLeftBracket _))
  | rightBracket =>
    exact touches_edit Editor.typeRightBracket rfl rfl (.inr rfl)
      (Editor.lastResult_typeRightBracket _) (Editor.typeRightBracket_cases _)
  | erase =>
    have hopen : s.editor.erase.evaluated = false := (Editor.reopens_erase _).evaluated
    exact ⟨rfl, .inr ⟨.inl rfl, fun h => nomatch hopen.symm.trans h⟩⟩
  | clear => exact ⟨rfl, .inr ⟨.inl rfl, fun h => nomatch h⟩⟩
  | equals => exact touches_calculate rfl rfl
  | recallLast =>
    show s.Touches s.recallLast.value
    unfold recallLast
    simp only [Logged.value_bind]
    split
    · exact ⟨rfl, .inr ⟨.inr ⟨rfl, rfl⟩, id⟩⟩
    · exact touches_calculate rfl rfl

/-- An action keeps the date of the screen, or brings it up to now. -/
theorem keepsDate_apply (h : s.Dated u) (a : Action) : KeepsDate u (s.apply a).value := by
  obtain ⟨hsettings, ⟨hevaluated, hfollows⟩ | ⟨hleaves, hbefore⟩⟩ := touches_apply s a
  · rw [← hsettings] at hfollows
    exact .inl ⟨hevaluated, dated_now hfollows⟩
  · have hfollows := h.follows.leaves hleaves
    cases hevaluated : (s.apply a).value.editor.evaluated with
    | true =>
      -- The formula counted as evaluated before, so the date was that of the old session.
      rw [← h.now (hbefore hevaluated), ← hsettings] at hfollows
      exact .inl ⟨hevaluated, dated_now hfollows⟩
    | false => exact .inr ⟨hevaluated, dated_before hfollows hevaluated⟩

/-- **One step keeps the date of the screen**, or brings it up to now. -/
theorem keepsDate_step (h : s.Dated u) (x : Step) : KeepsDate u (s.step x).value := by
  cases x with
  | act a => exact keepsDate_apply h a
  | set settings => exact keepsDate_withSettings h settings

/-! ## §5. Runs. -/

/-- Actions do not change the settings. -/
theorem settings_run (s : Session σ) {steps : List Step} (hsteps : ∀ u, Step.set u ∉ steps) :
    (s.run steps).value.settings = s.settings := by
  induction steps generalizing s with
  | nil => rfl
  | cons x steps ih =>
    have hrest : ∀ u, Step.set u ∉ steps := fun u hu => hsteps u (List.mem_cons_of_mem _ hu)
    cases x with
    | set u => exact absurd List.mem_cons_self (hsteps u)
    | act a => exact (ih (s.apply a).value hrest).trans (touches_apply s a).settings

/-- The last point of a run at which the formula counted as evaluated, or its start. -/
structure LastEvaluated (start : Session σ) (earlier later : List Step) : Prop where
  before : earlier = [] ∨ (start.run earlier).value.editor.evaluated = true
  after : ∀ front, front ≠ [] → front <+: later →
    (start.run (earlier ++ front)).value.editor.evaluated = false

/-- **The screen is dated after any steps.** -/
theorem exists_dated (start : Session σ) (hstart : start.Dated start.settings)
    (steps : List Step) :
    ∃ earlier later, steps = earlier ++ later ∧ start.LastEvaluated earlier later
      ∧ (start.run steps).value.Dated (start.run earlier).value.settings := by
  induction steps using List.reverseRecOn with
  | nil =>
    refine ⟨[], [], rfl, ⟨.inl rfl, fun front hne hfront => ?_⟩, hstart⟩
    exact absurd (List.prefix_nil.1 hfront) hne
  | append_singleton steps x ih =>
    obtain ⟨earlier, later, rfl, hlast, hdated⟩ := ih
    rcases keepsDate_step hdated x with ⟨hevaluated, hnow⟩ | ⟨hopen, hbefore⟩
    · -- The end of the run is its last point of this kind.
      rw [← run_concat] at hevaluated hnow
      refine ⟨earlier ++ later ++ [x], [], (List.append_nil _).symm, ⟨.inr hevaluated, ?_⟩, hnow⟩
      exact fun front hne hfront => absurd (List.prefix_nil.1 hfront) hne
    · -- The point stays the last one, with one more session behind it.
      rw [← run_concat] at hopen hbefore
      refine ⟨earlier, later ++ [x], List.append_assoc _ _ _, ⟨hlast.before, ?_⟩, hbefore⟩
      intro front hne hfront
      rcases List.prefix_concat_iff.1 hfront with rfl | hfront
      · rwa [← List.append_assoc]
      · exact hlast.after front hne hfront

end

end Session

/-- **THE SCREEN FOLLOWS THE SETTINGS OF ITS DATE.**  Over any store and after any steps,
there is a last point at which the formula counted as evaluated, or else the start.  The
result screen is empty, or it shows the last result as the settings of that point show
it, or there is no last result, and it tells why.  So it follows the present settings if
the formula counts as evaluated, and as long as none were changed since it did. -/
theorem screen_dated {σ : Type} [HistoryStore σ] (store : σ) (settings : Settings)
    (steps : List Session.Step) :
    let start : Session σ := { store, settings }
    let s := (start.run steps).value
    ∃ earlier later, steps = earlier ++ later ∧ start.LastEvaluated earlier later
      ∧ s.Follows (start.run earlier).value.settings
      ∧ (s.editor.evaluated = true ∨ (∀ u, Session.Step.set u ∉ later) →
          s.Follows s.settings) := by
  intro start s
  obtain ⟨earlier, later, rfl, hlast, hdated⟩ :=
    Session.exists_dated start (Session.dated_now (.inl rfl)) steps
  refine ⟨earlier, later, rfl, hlast, hdated.follows, fun hcase => ?_⟩
  have hsettings : s.settings = (start.run earlier).value.settings := by
    rcases hcase with hevaluated | hlater
    · exact hdated.now hevaluated
    · show (start.run (earlier ++ later)).value.settings = _
      rw [Session.run_append]
      exact Session.settings_run _ hlater
  rw [hsettings]
  exact hdated.follows

/-- **The screen does not always follow the present settings.**  The sum goes on from
`1234.5`, which stays on the screen; then the comma becomes the decimal separator, and
only the formula is shown with it. -/
theorem screen_stale :
    let steps : List Session.Step :=
      [.act (.digit 1), .act (.digit 2), .act (.digit 3), .act (.digit 4), .act .point,
        .act (.digit 5), .act .equals, .act (.operator .plus),
        .set (Settings.withDecimalComma {} true)]
    let s := (Session.run { store := ({} : MemoryStore) } steps).value
    (∀ d, Session.Step.act (.digit d) ∈ steps → d ≤ 9)
      ∧ s.shownFormula = "1.234,5+" ∧ s.result = "1,234.5" ∧ ¬ s.Follows s.settings := by
  intro steps s
  have hsteps : ∀ d, Session.Step.act (.digit d) ∈ steps → d ≤ 9 := by
    simp [steps]
  have hformula : s.shownFormula = "1.234,5+" := by decide +kernel
  have hresult : s.result = "1,234.5" := by decide +kernel
  have hlast : s.editor.lastResult = some ⟨12345, 1⟩ := by decide +kernel
  have hshown : s.settings.showResult (some ⟨12345, 1⟩) = "1.234,5" := by decide +kernel
  refine ⟨hsteps, hformula, hresult, ?_⟩
  rintro (hempty | ⟨v, hv, hfollows⟩ | ⟨hnone, -⟩)
  · rw [hresult] at hempty
    exact absurd hempty (by decide)
  · obtain rfl : v = ⟨12345, 1⟩ := Option.some.inj (hv.symm.trans hlast)
    rw [hresult, hshown] at hfollows
    exact absurd hfollows (by decide)
  · exact nomatch hnone.symm.trans hlast

end PocketCalc
