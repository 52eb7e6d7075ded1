/-
  PocketCalc.Proofs.Session.Representation
  ────────────────────────────────────────
  **WHAT THE EDITOR HOLDS AFTER ANY ACTIONS.**

  The editor notes much of its formula a second time: the text of the number being
  typed, the state of its point, what was appended last, the positions of the
  implied product signs.  The invariant of the sessions is what one key after the
  other keeps; here it is read off field by field and position by position.

      neighbours_after      how the tokens of the formula stand
      isConsistent_after    how the other fields agree with the formula
-/
import PocketCalc.Proofs.Editor.Neighbours
import PocketCalc.Proofs.Session.Reachable

namespace PocketCalc

/-! ## §1. The tokens. -/

namespace Session

/-- **TWO VALUES NEVER STAND SIDE BY SIDE, NOR DO TWO OPERATORS.**  Whatever the
actions were, every token of the formula stands where it may; so what begins an
operand never follows the end of a value, and of two operators that join operands
none follows the other. -/
theorem neighbours_after (settings : Settings) (actions : List Action) :
    let f := (after settings actions).editor.formula
    f.KeepsOrder
      ∧ (∀ before t u after, f = before ++ t :: u :: after →
          t.endsValue = true → u.beginsOperand = false)
      ∧ ∀ before t u after, f = before ++ t :: u :: after →
          t.joins = true → u.joins = false := by
  intro f
  have horder : f.KeepsOrder :=
    Formula.keepsOrder_of_depth? (invariant_after settings actions).editor.depth
  exact ⟨horder, fun _ _ _ _ hcut => horder.values_apart hcut,
    fun _ _ _ _ hcut => horder.operators_apart hcut⟩

end Session

/-! ## §2. The other fields. -/

namespace IsImplied

/-- The sign is found at its position, and its operands at the two next to it. -/
theorem getElem? {f : Formula} {i : Nat} (h : IsImplied f i) :
    0 < i ∧ i + 1 < f.length ∧ f[i]? = some (.operator .times)
      ∧ f[i - 1]?.any Token.endsValue = true ∧ f[i + 1]?.any Token.beginsOperand = true := by
  have hlength := h.succ_lt
  obtain ⟨before, t, u, after, rfl, rfl, ht, hu⟩ := h
  refine ⟨by omega, hlength, ?_, ?_, ?_⟩
  · simp
  · simpa using ht
  · rw [List.getElem?_append_right (by omega)]
    simpa [Nat.add_assoc, Nat.add_sub_cancel_left] using hu

end IsImplied

namespace Appended

variable {last : Option Token}

theorem behind_eq_constant_iff : behind last = .constant ↔ ∃ c, last = some (.constant c) := by
  unfold behind
  split <;> simp_all

theorem behind_eq_rightBracket_iff : behind last = .rightBracket ↔ last = some .rightBracket := by
  unfold behind
  split <;> simp_all

theorem behind_eq_factorial_iff :
    behind last = .factorial ↔ last = some (.operator .factorial) := by
  unfold behind
  split <;> simp_all

end Appended

namespace Editor

/-- **The fields of the editor agree with its formula.** -/
structure IsConsistent (e : Editor) : Prop where
  /-- While a number is being typed, its text is a numeral whose point the two marks
  tell, and the formula ends with its value, and then with a pending point. -/
  typing : e.typing = true →
    e.evaluated = false
      ∧ (∃ n : Numeral, e.typed = n.text)
      ∧ (e.hasPoint = true ↔ '.' ∈ e.typed)
      ∧ (e.pointPending = true ↔ e.typed.getLast? = some '.')
      ∧ ∃ base v, Decimal.readTyped e.typed = some v
          ∧ e.formula = base ++ .number v :: if e.pointPending then [.point] else []
  /-- While none is, nothing of one is left, and unless the formula was evaluated it
  does not end with a number. -/
  idle : e.typing = false →
    e.typed = [] ∧ e.hasPoint = false ∧ e.pointPending = false ∧ .point ∉ e.formula
      ∧ (e.evaluated = false → ∀ v, e.formula.getLast? ≠ some (.number v))
  /-- Unless the formula was evaluated, what was appended last is the last token. -/
  appended : e.evaluated = false →
    (e.appended = .constant ↔ ∃ c, e.formula.getLast? = some (.constant c))
      ∧ (e.appended = .rightBracket ↔ e.formula.getLast? = some .rightBracket)
      ∧ (e.appended = .factorial ↔ e.formula.getLast? = some (.operator .factorial))
  ascending : e.impliedTimes.Pairwise (· < ·)
  /-- Each position that is kept has a product sign between a value and an operand. -/
  implied : ∀ i ∈ e.impliedTimes,
    0 < i ∧ i + 1 < e.formula.length ∧ e.formula[i]? = some (.operator .times)
      ∧ e.formula[i - 1]?.any Token.endsValue = true
      ∧ e.formula[i + 1]?.any Token.beginsOperand = true

/-- **The invariant makes the fields agree.** -/
theorem Invariant.isConsistent {e : Editor} (h : e.Invariant) : e.IsConsistent where
  typing := by
    intro htyping
    rcases h.number with ⟨base, n, hn⟩ | ⟨hidle, -⟩
    · rw [hn.typed, hn.hasPoint, hn.pointPending, ← n.contains_text, ← n.getLast?_text_eq]
      refine ⟨hn.evaluated, ⟨n, rfl⟩, by simp, by simp, base, _, n.readTyped_text, ?_⟩
      rw [hn.formula, n.getLast?_text_eq]
      rfl
    · exact absurd (hidle.typing.symm.trans htyping) Bool.false_ne_true
  idle := by
    intro htyping
    rcases h.number with ⟨base, n, hn⟩ | ⟨hidle, hlast⟩
    · exact absurd (htyping.symm.trans hn.typing) Bool.false_ne_true
    · refine ⟨hidle.typed, hidle.hasPoint, hidle.pointPending,
        Formula.not_mem_point h.depth hidle.last, ?_⟩
      intro hevaluated v hv
      have hnumber := hlast hevaluated
      rw [hv] at hnumber
      cases hnumber
  appended := by
    intro hevaluated
    rw [h.appended hevaluated]
    exact ⟨Appended.behind_eq_constant_iff, Appended.behind_eq_rightBracket_iff,
      Appended.behind_eq_factorial_iff⟩
  ascending := h.implied.ascending
  implied := fun i hi => (h.implied.implied i hi).getElem?

end Editor

/-- **THE FIELDS OF THE EDITOR AGREE WITH ITS FORMULA**, whatever the actions were. -/
theorem Session.isConsistent_after (settings : Settings) (actions : List Action) :
    (after settings actions).editor.IsConsistent :=
  (invariant_after settings actions).editor.isConsistent

end PocketCalc
