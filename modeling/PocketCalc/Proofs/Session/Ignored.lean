/-
  PocketCalc.Proofs.Session.Ignored
  ─────────────────────────────────
  **AN IGNORED KEY LEAVES NO TRACE.**

  A digit and a point empty the screen when they start afresh behind a result, and the
  session decides on that before the editor has decided on the key.  The two decisions
  agree: behind a result the editor takes every digit and every point, so a key that it
  ignores finds nothing evaluated, and the screen stays.  Only for a digit that is none
  they do not.

      apply_of_press     what a key changes, the editor and at most the screen
      apply_of_ignored   an ignored key changes nothing
      ignored_unseen     nor does a row of them
      result_unseen      unless it asks for a digit above nine
-/
import PocketCalc.Proofs.Session.Outcome
import PocketCalc.Proofs.Session.Reachable

namespace PocketCalc

/-! ## §1. What the editor makes of a key. -/

/-- Does the key start afresh behind a result? -/
def Action.startsAfresh : Action → Bool
  | .digit _ | .point => true
  | _ => false

namespace Editor

variable {e e' : Editor} {a : Action}

/-- The editor behind a key that appends; what evaluates or erases is no such key. -/
def press? (e : Editor) : Action → Option Editor
  | .digit d => some (e.typeDigit d)
  | .point => some e.typePoint
  | .operator op => some (e.typeOperator op)
  | .constant c => some (e.typeConstant c)
  | .leftBracket => some e.typeLeftBracket
  | .rightBracket => some e.typeRightBracket
  | .erase | .clear | .equals | .recallLast => none

/-- The keys that are refused: a digit above nine, a second point, a factorial that is not
right behind a number being typed, a right bracket with no bracket open. -/
def Refuses (e : Editor) : Action → Prop
  | .digit d => 9 < d
  | .point => e.evaluated = false ∧ (e.hasPoint = true ∨ '.' ∈ e.typed)
  | .operator op => op = .factorial ∧ (e.appended = .factorial ∨ e.typing = false)
  | .rightBracket => e.openBrackets = 0
  | _ => False

/-- **A refused key is ignored.** -/
theorem press_of_refuses (h : e.Refuses a) : e.press? a = some e := by
  cases a with
  | digit d => exact congrArg some (typeDigit_of_lt e h)
  | point =>
    obtain ⟨hevaluated, hpoint⟩ := h
    refine congrArg some ?_
    have hstart : e.restartIfEvaluated = e := by
      unfold restartIfEvaluated
      rw [hevaluated]
      rfl
    unfold typePoint
    rw [hstart]
    exact if_pos (by simpa using hpoint)
  | operator op =>
    obtain ⟨rfl, hrefused⟩ := h
    refine congrArg some ?_
    show e.typeFactorial = e
    exact if_pos (by simpa using hrefused)
  | rightBracket => exact congrArg some (if_pos h)
  | constant | leftBracket | erase | clear | equals | recallLast => exact h.elim

/-- **Behind a result no digit and no point is ignored**: the formula would still count as
evaluated. -/
theorem not_evaluated_of_ignored (h : e.press? a = some e) (ha : a.startsAfresh = true)
    (hdigit : ∀ d, a = .digit d → d ≤ 9) : e.evaluated = false := by
  cases a with
  | digit d =>
    have hreopened := (reopens_typeDigit e (hdigit d rfl)).evaluated
    rwa [Option.some.inj h] at hreopened
  | point =>
    have hreopened := (reopens_typePoint e).evaluated
    rwa [Option.some.inj h] at hreopened
  | operator | constant | leftBracket | rightBracket => exact nomatch ha
  | erase | clear | equals | recallLast => exact nomatch ha

end Editor

/-! ## §2. What the session makes of it. -/

namespace Session

variable {σ : Type} [HistoryStore σ] {s : Session σ} {a : Action}

/-- **A key changes the editor**, and at most the screen besides; no event is told. -/
theorem apply_of_press {e : Editor} (h : s.editor.press? a = some e) :
    s.apply a =
      pure ((if a.startsAfresh then s.clearResultIfEvaluated else s).edit fun _ => e) := by
  cases a with
  | digit | point =>
    rw [← Option.some.inj h, ← editor_clearResultIfEvaluated s]
    rfl
  | operator | constant | leftBracket | rightBracket =>
    rw [← Option.some.inj h]
    rfl
  | erase | clear | equals | recallLast => exact nomatch h

/-- **An ignored key changes nothing.** -/
theorem apply_of_ignored (h : s.editor.press? a = some s.editor)
    (hdigit : s.editor.evaluated = true → ∀ d, a = .digit d → d ≤ 9) : s.apply a = pure s := by
  rw [apply_of_press h]
  by_cases ha : a.startsAfresh = true
  · -- Behind a result it would not have been ignored, so the screen is not emptied.
    have hevaluated : ¬ s.editor.evaluated = true := fun hstands =>
      Bool.false_ne_true
        ((Editor.not_evaluated_of_ignored h ha (hdigit hstands)).symm.trans hstands)
    have hscreen : s.clearResultIfEvaluated = s := if_neg hevaluated
    rw [if_pos ha, hscreen]
    rfl
  · rw [if_neg ha]
    rfl

/-- A digit that is none empties the screen behind a result, and changes nothing else. -/
theorem apply_digit_of_lt {d : Nat} (hd : 9 < d) (hevaluated : s.editor.evaluated = true) :
    s.apply (.digit d) = pure s.clearResult := by
  have hscreen : s.clearResultIfEvaluated = s.clearResult := if_pos hevaluated
  have hignored : s.editor.press? (.digit d) = some s.editor := Editor.press_of_refuses hd
  have hstarts : (Action.digit d).startsAfresh = true := rfl
  rw [apply_of_press hignored, if_pos hstarts, hscreen]
  rfl

/-- A row of ignored keys changes nothing: each of them finds what the first one found. -/
theorem applyAll_of_ignored {actions : List Action}
    (h : ∀ a ∈ actions, s.editor.press? a = some s.editor)
    (hdigit : s.editor.evaluated = true → ∀ d, Action.digit d ∈ actions → d ≤ 9) :
    s.applyAll actions = pure s := by
  induction actions with
  | nil => rfl
  | cons a actions ih =>
    have hfirst : s.apply a = pure s :=
      apply_of_ignored (h a List.mem_cons_self)
        fun hevaluated d hd => hdigit hevaluated d (hd ▸ List.mem_cons_self)
    show (s.apply a >>= fun t => t.applyAll actions) = _
    rw [hfirst, pure_bind]
    exact ih (fun b hb => h b (List.mem_cons_of_mem a hb))
      fun hevaluated d hd => hdigit hevaluated d (List.mem_cons_of_mem a hd)

end Session

/-- **AN IGNORED KEY LEAVES NO TRACE.**  Whatever the session is, and over any store: a
refused key is ignored by the editor, and a key that the editor ignores leaves the whole
session as it is, its screen and its history included, and tells no event; so does a row of
such keys.  A digit above nine behind a result is ignored, too, but the screen is emptied. -/
theorem ignored_unseen {σ : Type} [HistoryStore σ] (s : Session σ) :
    (∀ a, s.editor.Refuses a → s.editor.press? a = some s.editor)
      ∧ (∀ a, s.editor.press? a = some s.editor →
          (s.editor.evaluated = true → ∀ d, a = .digit d → d ≤ 9) → s.apply a = pure s)
      ∧ (∀ actions, (∀ a ∈ actions, s.editor.press? a = some s.editor) →
          (s.editor.evaluated = true → ∀ d, Action.digit d ∈ actions → d ≤ 9) →
            s.applyAll actions = pure s)
      ∧ ∀ d, 9 < d → s.editor.evaluated = true → s.apply (.digit d) = pure s.clearResult :=
  ⟨fun _ => Editor.press_of_refuses, fun _ => Session.apply_of_ignored,
    fun _ => Session.applyAll_of_ignored, fun _ => Session.apply_digit_of_lt⟩

/-- Behind the result of `1 =` neither a right bracket nor a factorial is accepted, and the
result stays on the screen; a digit above nine takes it away. -/
theorem ignored_unseen_refused :
    let s := Session.after {} [.digit 1, .equals]
    let keys : List Action := [.rightBracket, .operator .factorial]
    (∀ a ∈ keys, s.editor.Refuses a ∧ s.editor.press? a = some s.editor)
      ∧ s.editor.evaluated = true ∧ s.result = "1"
      ∧ s.apply .rightBracket = pure s ∧ s.applyAll keys = pure s
      ∧ 9 < 10 ∧ s.apply (.digit 10) = pure s.clearResult := by
  intro s keys
  obtain ⟨hignored, hone, hrow, hemptied⟩ := ignored_unseen s
  have hclosed : s.editor.openBrackets = 0 := by decide +kernel
  have htyping : s.editor.typing = false := by decide +kernel
  have hevaluated : s.editor.evaluated = true := by decide +kernel
  have hresult : s.result = "1" := by decide +kernel
  have hbracket : s.editor.Refuses .rightBracket := hclosed
  have hfactorial : s.editor.Refuses (.operator .factorial) := ⟨rfl, .inr htyping⟩
  have hkeys : ∀ a ∈ keys, s.editor.Refuses a ∧ s.editor.press? a = some s.editor := by
    intro a ha
    rcases List.mem_cons.1 ha with rfl | ha
    · exact ⟨hbracket, hignored _ hbracket⟩
    · rw [List.mem_singleton.1 ha]
      exact ⟨hfactorial, hignored _ hfactorial⟩
  have hdigit : s.editor.evaluated = true → ∀ d, Action.digit d ∈ keys → d ≤ 9 := by
    simp [keys]
  exact ⟨hkeys, hevaluated, hresult,
    hone .rightBracket (hignored _ hbracket) (fun _ d hd => nomatch hd),
    hrow keys (fun a ha => (hkeys a ha).2) hdigit,
    by decide, hemptied 10 (by decide) hevaluated⟩

/-- **An ignored key may be seen.**  Behind the result of `1 =` the editor ignores a digit
that is none, and its result is gone from the screen. -/
theorem result_unseen :
    let s := Session.after {} [.digit 1, .equals]
    s.editor.press? (.digit 10) = some s.editor ∧ s.result = "1"
      ∧ (s.apply (.digit 10)).value.editor.lastResult = some ⟨1, 0⟩
      ∧ (s.apply (.digit 10)).value.result = "" ∧ s.apply (.digit 10) ≠ pure s := by
  intro s
  have hresult : s.result = "1" := by decide +kernel
  have hemptied : (s.apply (.digit 10)).value.result = "" := by decide +kernel
  refine ⟨by decide +kernel, hresult, by decide +kernel, hemptied, fun hsame => ?_⟩
  rw [hsame] at hemptied
  exact absurd (hresult.symm.trans hemptied) (by decide)

end PocketCalc
