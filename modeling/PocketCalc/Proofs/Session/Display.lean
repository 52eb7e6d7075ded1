/-
  PocketCalc.Proofs.Session.Display
  ─────────────────────────────────
  **A NUMBER IN PROGRESS IS SHOWN AS IT WILL BE STORED.**

  The editor shows a number in progress from the text typed, and every other number from
  its value, rounded.  The two ways have nothing in common but the grouping.  They agree as
  long as the text is the plain one of its value and is not rounded; a point at its end is
  shown either way.

      typedChars_plain              the plain text of a number that is not rounded
      IsTyping.shown_eq_showFormula the number in progress, behind the rest of the formula
      displays_agree                after any actions
-/
import PocketCalc.Proofs.Editor.Buffer
import PocketCalc.Proofs.Session.Undoing

namespace PocketCalc

/-! ## §1. Numbers that are not rounded. -/

namespace Decimal

/-- The parts depend on the number alone. -/
theorem parts_congr {x y : Decimal} (h : x.toRat = y.toRat) : x.parts = y.parts := by
  unfold parts
  rw [(normalized_eq_iff x y).2 h]

/-- The plain text has a point if there are fraction digits. -/
theorem hasPoint_ofDecimal (x : Decimal) :
    (Numeral.ofDecimal x).hasPoint = !x.parts.fraction.isEmpty := by
  show (if x.parts.fraction.isEmpty then none else some x.parts.fraction).isSome = _
  cases x.parts.fraction.isEmpty <;> rfl

/-- A number whose fraction digits are all wanted is not changed. -/
theorem toRat_roundAt_of_fits {x : Decimal} {n : ℕ} (hfits : x.parts.fraction.length ≤ n)
    (hshift : x.scale - n < shiftModulus) : (x.roundAt n).toRat = x.toRat := by
  have hstep : (0 : ℚ) < 10 ^ (-(n : ℤ)) := zpow_pos (by norm_num) _
  have hscale : x.normalized.scale ≤ n := by
    rw [length_fraction] at hfits
    omega
  -- It is a multiple of the last place, so it is its own rounding.
  have hself := IsRounded.self (exists_multiple hscale) hstep
  rw [toRat_normalized] at hself
  exact (isRounded_roundAt x hshift).unique hself hstep

end Decimal

namespace Settings

variable {s : Settings}

/-- **The plain text of a number that is not rounded is shown as the number is.** -/
theorem typedChars_plain (hplaces : s.shownPlaces ≤ maxShownPlaces) {x : Decimal}
    (hfits : x.parts.fraction.length ≤ s.shownPlaces)
    (hshift : x.scale - s.shownPlaces < shiftModulus) : s.typedChars x.plain = s.numberChars x := by
  have hparts := Decimal.parts_congr (Decimal.toRat_roundAt_of_fits hfits hshift)
  have hpointed : (if (Numeral.ofDecimal x).hasPoint
        then s.decimalSeparator :: (Numeral.ofDecimal x).places else [])
      = Decimal.pointed s.decimalSeparator x.parts.fraction := by
    rw [Numeral.places_ofDecimal, x.hasPoint_ofDecimal]
    unfold Decimal.pointed
    cases x.parts.fraction <;> rfl
  rw [← Numeral.text_ofDecimal, s.typedChars_text, hpointed, numberChars_eq hplaces, hparts]
  rfl

/-- The same, for a number with no more places than are shown. -/
theorem typedChars_plain_of_le (hplaces : s.shownPlaces ≤ maxShownPlaces) {x : Decimal}
    (hscale : x.scale ≤ s.shownPlaces) : s.typedChars x.plain = s.numberChars x := by
  have hnormal := Decimal.scale_normalized_le hscale
  have hlength := x.length_fraction
  have hmodulus : 0 < shiftModulus := by decide
  exact typedChars_plain hplaces (by omega) (by omega)

/-- A final point is shown behind the rest. -/
theorem typedChars_settled (s : Settings) (n : Numeral) :
    s.typedChars n.text
      = s.typedChars n.settled.text ++ if n.pending then [s.decimalSeparator] else [] := by
  rw [s.typedChars_text, s.typedChars_text]
  cases hpending : n.pending with
  | true =>
    have hfraction : n.fraction = some [] := by simpa [Numeral.pending] using hpending
    simp [Numeral.settled, Numeral.pending, Numeral.hasPoint, Numeral.places, hfraction]
  | false => simp [Numeral.settled, hpending]

end Settings

/-! ## §2. The number in progress. -/

namespace Buffer

/-- The text without a final point. -/
def settled (b : List Char) : List Char := if b.getLast? == some '.' then b.dropLast else b

end Buffer

namespace Numeral

theorem places_settled (n : Numeral) : n.settled.places = n.places := by
  unfold settled
  split
  · next h =>
    have hfraction : n.fraction = some [] := by simpa [pending] using h
    simp [places, hfraction]
  · rfl

theorem places_text (n : Numeral) : Buffer.places n.text = n.places := by
  unfold Buffer.places
  rw [n.cut_text.2, n.drop_pointed]

end Numeral

namespace Editor

variable {e : Editor} {s : Settings}

/-- Without a number in progress, the formula is shown as it is stored. -/
theorem shown_of_not_typing (h : e.typing = false) (s : Settings) :
    e.shown s = s.showFormula e.formula := by
  unfold shown
  rw [h]
  rfl

/-- **With one, it is shown so too**, if the text is the plain one of its value and all its
places are shown. -/
theorem IsTyping.shown_eq_showFormula {base : Formula} {n : Numeral} (h : e.IsTyping base n)
    (hplaces : s.shownPlaces ≤ Settings.maxShownPlaces)
    (hplain : n.settled.text = n.value.normalized.plain)
    (hfits : n.places.length ≤ s.shownPlaces) : e.shown s = s.showFormula e.formula := by
  -- Without a final point, the numeral is the plain text of a number in normal form.
  have hsettled : n.settled = .ofDecimal n.value.normalized :=
    Numeral.text_injective (hplain.trans (Numeral.text_ofDecimal _).symm)
  have hfraction : n.value.normalized.parts.fraction.length = n.places.length := by
    rw [← Numeral.places_ofDecimal, ← hsettled, n.places_settled]
  have hscale : n.value.normalized.scale ≤ s.shownPlaces := by
    have hlength := n.value.normalized.length_fraction
    rw [Decimal.normalized_normalized] at hlength
    omega
  have htokens : s.formulaChars n.tokens
      = s.numberChars n.value.normalized ++ if n.pending then [s.decimalSeparator] else [] := by
    unfold Numeral.tokens Settings.formulaChars
    rw [List.flatMap_cons]
    cases n.pending <;> rfl
  have hsame : s.formulaChars e.formula = s.formulaChars base ++ s.typedChars n.text := by
    rw [s.typedChars_settled, hplain, Settings.typedChars_plain_of_le hplaces hscale, ← htokens,
      h.formula]
    exact List.flatMap_append
  rw [h.shown, ← hsame]
  rfl

end Editor

/-- **A NUMBER IN PROGRESS IS SHOWN AS IT WILL BE STORED.**  Whatever the actions and changes
of the settings were, and under any settings, a formula without a number in progress is
shown as it is stored.  With one, the tokens in front of it are shown as they are stored,
and behind them the text typed; if that text, without a final point, is the plain one of
its value and all its places are shown, this is the whole formula as it is stored.  For the
plain text of a number with no more places than are shown, or with further ones that are
zeros and few enough to be counted by a shift, is shown as the number is. -/
theorem displays_agree (settings : Settings) (steps : List Session.Step) (s : Settings)
    (hplaces : s.shownPlaces ≤ Settings.maxShownPlaces) :
    let e := (Session.run (Session.fresh settings) steps).value.editor
    (e.typing = false → e.shown s = s.showFormula e.formula)
      ∧ (e.typing = true → ∃ base v, Decimal.readTyped e.typed = some v
          ∧ e.formula = base ++ .number v :: (if e.pointPending then [.point] else [])
          ∧ e.shown s = s.showFormula base ++ s.showTyped (String.ofList e.typed)
          ∧ (Buffer.settled e.typed = v.plain → (Buffer.places e.typed).length ≤ s.shownPlaces →
              e.shown s = s.showFormula e.formula))
      ∧ (∀ x : Decimal, x.scale ≤ s.shownPlaces → s.showTyped x.plainText = s.showNumber x)
      ∧ ∀ x : Decimal, x.parts.fraction.length ≤ s.shownPlaces →
          x.scale - s.shownPlaces < shiftModulus → s.showTyped x.plainText = s.showNumber x := by
  intro e
  have hinv : e.Invariant :=
    (Session.invariant_run (Session.invariant_fresh settings) steps).editor
  have htyped : ∀ {x : Decimal}, s.typedChars x.plain = s.numberChars x →
      s.showTyped x.plainText = s.showNumber x := by
    intro x hx
    unfold Settings.showTyped Settings.showNumber
    rw [Decimal.toList_plainText, hx]
  refine ⟨fun h => Editor.shown_of_not_typing h s, fun htyping => ?_,
    fun x hx => htyped (Settings.typedChars_plain_of_le hplaces hx),
    fun x hx hshift => htyped (Settings.typedChars_plain hplaces hx hshift)⟩
  rcases hinv.number with ⟨base, n, hn⟩ | ⟨hidle, -⟩
  · refine ⟨base, n.value.normalized, ?_, ?_, ?_, fun hplain hfits => ?_⟩
    · rw [hn.typed, n.readTyped_text]
    · rw [hn.formula, hn.pointPending]
      rfl
    · rw [hn.shown, hn.typed, Settings.showTyped, String.toList_ofList]
      exact String.ofList_append
    · rw [hn.typed] at hplain hfits
      rw [n.places_text] at hfits
      exact hn.shown_eq_showFormula hplaces (n.text_settled.symm.trans hplain) hfits
  · exact absurd (hidle.typing.symm.trans htyping) Bool.false_ne_true

/-- Behind a bracket, `1234.` is shown with a decimal comma at its end, either way; and `1.2500`
is shown as its plain text, although it has more places than are shown. -/
theorem displays_agree_pending :
    let steps : List Session.Step :=
      [.act .leftBracket, .act (.digit 1), .act (.digit 2), .act (.digit 3), .act (.digit 4),
        .act .point]
    let s := (Settings.withShownPlaces {} 2).withDecimalComma true
    let e := (Session.run (Session.fresh {}) steps).value.editor
    let x : Decimal := ⟨12500, 4⟩
    s.shownPlaces ≤ Settings.maxShownPlaces ∧ e.typing = true
      ∧ e.typed = ['1', '2', '3', '4', '.'] ∧ (Buffer.places e.typed).length ≤ s.shownPlaces
      ∧ e.shown s = "(1.234," ∧ e.shown s = s.showFormula e.formula
      ∧ x.parts.fraction.length ≤ s.shownPlaces ∧ x.scale - s.shownPlaces < shiftModulus
      ∧ s.showTyped x.plainText = s.showNumber x ∧ s.showNumber x = "1,25" := by
  intro steps s e x
  have hplaces : s.shownPlaces ≤ Settings.maxShownPlaces := by decide
  have htyping : e.typing = true := by decide +kernel
  have htyped : e.typed = ['1', '2', '3', '4', '.'] := by decide +kernel
  have hfits : (Buffer.places e.typed).length ≤ s.shownPlaces := by
    rw [htyped]
    decide
  have hx : x.parts.fraction.length ≤ s.shownPlaces := by decide +kernel
  obtain ⟨-, hprogress, -, hnumber⟩ := displays_agree {} steps s hplaces
  obtain ⟨base, v, hread, -, -, hagree⟩ := hprogress htyping
  -- The value of the text, read off it.
  have hvalue : Decimal.readTyped e.typed = some ⟨1234, 0⟩ := by
    rw [htyped]
    decide +kernel
  obtain rfl : v = ⟨1234, 0⟩ := Option.some.inj (hread.symm.trans hvalue)
  have hplain : Buffer.settled e.typed = Decimal.plain ⟨1234, 0⟩ := by
    rw [htyped]
    decide +kernel
  exact ⟨hplaces, htyping, htyped, hfits, by decide +kernel, hagree hplain hfits, hx, by decide,
    hnumber x hx (by decide), by decide +kernel⟩

end PocketCalc
