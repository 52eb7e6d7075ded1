/-
  PocketCalc.Proofs.Session.Reachable
  ───────────────────────────────────
  **THE SESSIONS THAT ACTIONS LEAD TO.**

  A session starts with an empty history in memory.

      applyAll_keeps       what one action keeps, all actions keep
      invariant_apply      one action keeps the invariant of the session
      invariant_after      the invariant holds after any actions
-/
import PocketCalc.Proofs.Editor.Erasing
import PocketCalc.Session.Basic

namespace PocketCalc

namespace Session

/-! ## §1. Sessions in memory. -/

/-- The session that starts with an empty history. -/
def fresh (settings : Settings) : Session MemoryStore := { settings, store := {} }

/-- The session after some actions. -/
def after (settings : Settings) (actions : List Action) : Session MemoryStore :=
  ((fresh settings).applyAll actions).value

/-- The past calculations. -/
def history (s : Session MemoryStore) : History := s.store.history

/-- What a calculation leaves behind. -/
theorem value_calculate (s : Session MemoryStore) :
    s.calculate.value =
      match evaluate s.editor.formula with
      | .ok v =>
          { s with
            store := ⟨s.history ++ [⟨s.editor.formula, v⟩]⟩
            editor := s.editor.keep (some v)
            result := s.settings.showResult (some v) }
      | .error e => { s with editor := s.editor.keep none, result := e.shortMessage } := by
  unfold calculate
  simp only [Logged.value_bind]
  cases evaluate s.editor.formula with
  | ok v => rfl
  | error e => rfl

/-- What recalling leaves behind. -/
theorem value_recallLast (s : Session MemoryStore) :
    s.recallLast.value =
      match s.editor.recallable s.history with
      | none => s
      | some r => (s.edit fun e => e.load r.formula).calculate.value := by
  unfold recallLast
  simp only [Logged.value_bind]
  show (match s.editor.recallable s.history with
    | none => _
    | some r => _ : Logged (Session MemoryStore)).value = _
  cases s.editor.recallable s.history with
  | none => rfl
  | some r => rfl

/-! ## §2. Runs. -/

/-- **What one action keeps, all actions keep.** -/
theorem applyAll_keeps {P : Session MemoryStore → Prop}
    (hP : ∀ {s}, P s → ∀ a, P (s.apply a).value) {s : Session MemoryStore} (h : P s)
    (actions : List Action) : P (s.applyAll actions).value := by
  induction actions generalizing s with
  | nil => exact h
  | cons a actions ih => exact ih (hP h a)

/-- Some actions, and then others. -/
theorem applyAll_bind {σ : Type} [HistoryStore σ] (s : Session σ) (as bs : List Action) :
    s.applyAll (as ++ bs) = (s.applyAll as >>= fun s => s.applyAll bs) := by
  induction as generalizing s with
  | nil =>
    show s.applyAll bs = ((pure s : Logged (Session σ)) >>= fun s => s.applyAll bs)
    rw [pure_bind]
  | cons a as ih =>
    show (s.apply a >>= fun s => s.applyAll (as ++ bs))
      = ((s.apply a >>= fun s => s.applyAll as) >>= fun s => s.applyAll bs)
    rw [bind_assoc]
    simp only [ih]

theorem applyAll_append (s : Session MemoryStore) (as bs : List Action) :
    (s.applyAll (as ++ bs)).value = ((s.applyAll as).value.applyAll bs).value := by
  rw [applyAll_bind]
  rfl

theorem after_concat (settings : Settings) (actions : List Action) (a : Action) :
    after settings (actions ++ [a]) = ((after settings actions).apply a).value := by
  unfold after
  rw [applyAll_append]
  rfl

/-! ## §3. The invariant. -/

/-- **The invariant of the session**: that of its editor, and every formula of the
history is closed and has no point at its end. -/
structure Invariant (s : Session MemoryStore) : Prop where
  editor : s.editor.Invariant
  depth : ∀ r ∈ s.history, r.formula.depth? = some 0
  last : ∀ r ∈ s.history, r.formula.getLast? ≠ some .point

theorem invariant_fresh (settings : Settings) : (fresh settings).Invariant where
  editor := Editor.invariant_restart {}
  depth := fun _ h => nomatch h
  last := fun _ h => nomatch h

/-- Keeping a result changes nothing that the invariant is about. -/
theorem invariant_keep {e : Editor} (h : e.Invariant) (r : Option Decimal) :
    (e.keep r).Invariant where
  depth := h.depth
  implied := h.implied
  number := by
    rcases h.number with ⟨base, n, hn⟩ | ⟨hidle, hlast⟩
    · exact .inl ⟨base, n, hn.typing, hn.evaluated, hn.typed, hn.hasPoint, hn.pointPending,
        hn.formula⟩
    · exact .inr
        ⟨⟨hidle.typing, hidle.typed, hidle.hasPoint, hidle.pointPending, hidle.last⟩, hlast⟩
  appended := h.appended
  closed := h.closed

/-- A calculation keeps the invariant, and its record has a closed formula. -/
theorem invariant_calculate {s : Session MemoryStore} (h : s.Invariant)
    (hevaluated : s.editor.evaluated = true) : s.calculate.value.Invariant := by
  rw [value_calculate]
  cases evaluate s.editor.formula with
  | error e => exact ⟨invariant_keep h.editor none, h.depth, h.last⟩
  | ok v =>
    refine ⟨invariant_keep h.editor (some v), List.forall_mem_append.2 ⟨h.depth, ?_⟩,
      List.forall_mem_append.2 ⟨h.last, ?_⟩⟩
    · exact List.forall_mem_singleton.2 (Editor.depth?_of_evaluated h.editor hevaluated)
    · exact List.forall_mem_singleton.2 (Editor.isIdle_of_evaluated h.editor hevaluated).last

theorem mem_of_recallable {e : Editor} {h : History} {r : Record} (hr : e.recallable h = some r) :
    r ∈ h := by
  unfold Editor.recallable at hr
  split at hr
  · exact List.mem_of_getLast? hr
  · exact (List.dropLast_sublist h).subset (List.mem_of_getLast? hr)

theorem invariant_edit {s : Session MemoryStore} (h : s.Invariant) (change : Editor → Editor)
    (hchange : (change s.editor).Invariant) : (s.edit change).Invariant :=
  ⟨hchange, h.depth, h.last⟩

theorem invariant_clearResultIfEvaluated {s : Session MemoryStore} (h : s.Invariant) :
    s.clearResultIfEvaluated.Invariant := by
  unfold clearResultIfEvaluated
  split
  · exact ⟨h.editor, h.depth, h.last⟩
  · exact h

/-- **One action keeps the invariant.** -/
theorem invariant_apply {s : Session MemoryStore} (h : s.Invariant) (a : Action) :
    (s.apply a).value.Invariant := by
  cases a with
  | digit d =>
    refine invariant_edit (invariant_clearResultIfEvaluated h) (fun e => e.typeDigit d) ?_
    rw [editor_clearResultIfEvaluated]
    exact Editor.invariant_typeDigit h.editor d
  | point =>
    refine invariant_edit (invariant_clearResultIfEvaluated h) Editor.typePoint ?_
    rw [editor_clearResultIfEvaluated]
    exact Editor.invariant_typePoint h.editor
  | operator op =>
    exact invariant_edit h (fun e => e.typeOperator op) (Editor.invariant_typeOperator h.editor op)
  | constant c =>
    exact invariant_edit h (fun e => e.typeConstant c) (Editor.invariant_typeConstant h.editor c)
  | leftBracket => exact invariant_edit h _ (Editor.invariant_typeLeftBracket h.editor)
  | rightBracket => exact invariant_edit h _ (Editor.invariant_typeRightBracket h.editor)
  | erase =>
    exact ⟨Editor.invariant_erase h.editor, h.depth, h.last⟩
  | clear => exact ⟨Editor.invariant_restart {}, h.depth, h.last⟩
  | equals =>
    exact invariant_calculate (invariant_edit h _ (Editor.invariant_complete h.editor)) rfl
  | recallLast =>
    show s.recallLast.value.Invariant
    rw [value_recallLast]
    cases hr : s.editor.recallable s.history with
    | none => exact h
    | some r =>
      -- Every formula of the history is closed, so it may be loaded.
      have hmem := mem_of_recallable hr
      exact invariant_calculate
        (invariant_edit h (fun e => e.load r.formula)
          (Editor.invariant_load s.editor (h.depth r hmem) (h.last r hmem))) rfl

theorem invariant_applyAll {s : Session MemoryStore} (h : s.Invariant) (actions : List Action) :
    (s.applyAll actions).value.Invariant :=
  applyAll_keeps invariant_apply h actions

/-- **The invariant holds after any actions.** -/
theorem invariant_after (settings : Settings) (actions : List Action) :
    (after settings actions).Invariant :=
  invariant_applyAll (invariant_fresh settings) actions

end Session

end PocketCalc
