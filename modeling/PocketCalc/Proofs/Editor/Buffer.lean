/-
  PocketCalc.Proofs.Editor.Buffer
  ───────────────────────────────
  **TYPING A NUMBER IS A PLAIN TEXT BUFFER.**

  The editor keeps a number in progress several times: as the text typed, as the token of
  its value, as the token of its point, and in three flags.  Digits, points and the erase
  key rebuild all of it at each press.  Yet from an empty editor on nothing comes of them
  that one text would not tell: a digit is appended, or takes the place of a lone zero; a
  point is appended once, behind a zero if need be; and erasing drops the last character.

      Stands.press        one key does to the editor what it does to the text
      toRat_value         the token has the value that the digits of the text spell
      Stands.toList_shown the screen shows each of its characters
      typing_buffered     the law for any keys, from an empty editor on
-/
import PocketCalc.Proofs.Editor.Undoing
import PocketCalc.Proofs.Rendering.Numbers

namespace PocketCalc

/-! ## §1. The keys, the editor and the text. -/

/-- The keys that a number is typed with. -/
inductive NumberKey where
  | digit (d : Fin 10)
  | point
  | erase
  deriving DecidableEq, Repr

/-- The editor behind a key. -/
def Editor.press (e : Editor) : NumberKey → Editor
  | .digit d => e.typeDigit d
  | .point => e.typePoint
  | .erase => e.erase

namespace Buffer

/-- The text behind a key. -/
def write (b : List Char) : NumberKey → List Char
  | .digit d => if b = [] ∨ b = ['0'] then [Nat.digitChar d] else b ++ [Nat.digitChar d]
  | .point => if '.' ∈ b then b else if b = [] then ['0', '.'] else b ++ ['.']
  | .erase => b.dropLast

/-- The digits in front of the point. -/
def whole (b : List Char) : List Char := b.takeWhile (· != '.')

/-- The digits behind it. -/
def places (b : List Char) : List Char := (b.dropWhile (· != '.')).drop 1

/-- The number that the digits spell. -/
def value (b : List Char) : ℚ :=
  Nat.ofDigitChars 10 (whole b) 0
    + Nat.ofDigitChars 10 (places b) 0 / (10 : ℚ) ^ (places b).length

end Buffer

/-! ## §2. One key. -/

namespace Numeral

theorem negative_typeDigit {n : Numeral} (h : n.negative = false) (d : Nat) (hd : d ≤ 9) :
    (n.typeDigit d hd).negative = false := by
  unfold typeDigit
  split
  · rfl
  · exact h

theorem negative_settled (n : Numeral) : n.settled.negative = n.negative := by
  unfold settled
  split <;> rfl

end Numeral

/-- The editor has typed this text and nothing else. -/
inductive Editor.Stands : List Char → Editor → Prop
  | empty : Stands [] {}
  | number (n : Numeral) (h : n.negative = false) :
      Stands n.text (({} : Editor).typingAt [] n)

namespace Editor.Stands

variable {b : List Char} {e : Editor} {n : Numeral}

theorem digit_empty (d : Fin 10) : Stands (Buffer.write [] (.digit d)) (press {} (.digit d)) := by
  have hidle : IsIdle {} := ⟨rfl, rfl, rfl, rfl, fun h => nomatch h⟩
  have hd : d.val ≤ 9 := by omega
  rw [show press {} (.digit d) = _ from hidle.typeDigit rfl hd]
  exact .number (.ofDigit d hd) rfl

theorem digit_number (h : n.negative = false) (d : Fin 10) :
    Stands (Buffer.write n.text (.digit d)) (press (({} : Editor).typingAt [] n) (.digit d)) := by
  have hd : d.val ≤ 9 := by omega
  have htext : Buffer.write n.text (.digit d) = (n.typeDigit d hd).text := by
    rw [n.text_typeDigit d hd]
    unfold Buffer.write
    dsimp only
    by_cases hzero : n.text = ['0']
    · rw [if_pos (.inr hzero), if_pos hzero, List.nil_append]
    · rw [if_neg (not_or.2 ⟨n.text_ne_nil, hzero⟩), if_neg hzero]
  rw [htext, show press _ (.digit d) = _ from
    (isTyping_typingAt (e := {}) rfl [] n).typeDigit rfl hd]
  exact .number _ (n.negative_typeDigit h d hd)

theorem point_empty : Stands (Buffer.write [] .point) (press {} .point) :=
  .number (Numeral.ofDigit 0 (by decide)).pushPoint rfl

theorem point_number (h : n.negative = false) :
    Stands (Buffer.write n.text .point) (press (({} : Editor).typingAt [] n) .point) := by
  have hpress : press (({} : Editor).typingAt [] n) .point = _ :=
    (isTyping_typingAt (e := {}) rfl [] n).typePoint
  have hmem : '.' ∈ n.text ↔ n.hasPoint = true := by
    rw [← n.contains_text, List.contains_iff_mem]
  rw [hpress]
  unfold Buffer.write
  dsimp only
  cases hpoint : n.hasPoint with
  | true =>
    rw [if_pos (hmem.2 hpoint), if_pos rfl]
    exact .number n h
  | false =>
    rw [if_neg (by rw [hmem, hpoint]; exact Bool.false_ne_true), if_neg n.text_ne_nil,
      if_neg Bool.false_ne_true, ← n.text_pushPoint hpoint]
    exact .number n.pushPoint h

/-- Erasing the last character; with the only one, everything is gone. -/
theorem erase_number (h : n.negative = false) :
    Stands (Buffer.write n.text .erase) (press (({} : Editor).typingAt [] n) .erase) := by
  show Stands n.text.dropLast (({} : Editor).typingAt [] n).erase
  cases hpending : n.pending with
  | true =>
    have hn := isTyping_typingAt (e := {}) rfl [] n
    rw [hn.erase_of_pending rfl hpending, ← Numeral.text_settled_of_pending hpending]
    exact .number n.settled (n.negative_settled.trans h)
  | false =>
    rw [erase_typingAt {} [] hpending]
    have hfront := List.dropLast_prefix n.text
    rcases Numeral.dropLast_text hpending with hnil | hminus | ⟨m, hm⟩
    · rw [hnil]
      exact .empty
    · -- The text of the number would begin with a sign.
      have hsign := n.head?_text_eq
      obtain ⟨rest, hrest⟩ := hminus ▸ hfront
      rw [h, ← hrest] at hsign
      cases hsign
    · rw [hm] at hfront ⊢
      have hnegative := (Numeral.front_whole hfront).1
      dsimp only
      rw [if_neg (by simp [m.text_ne_nil, m.text_ne_minus]), resume_text]
      exact .number m (hnegative.trans h)

/-- **One key does to the editor what it does to the text.** -/
theorem press (h : Stands b e) (k : NumberKey) : Stands (Buffer.write b k) (e.press k) := by
  cases h with
  | empty =>
    cases k with
    | digit d => exact digit_empty d
    | point => exact point_empty
    | erase => exact .empty
  | number n hn =>
    cases k with
    | digit d => exact digit_number hn d
    | point => exact point_number hn
    | erase => exact erase_number hn

/-- **And so do any keys.** -/
theorem pressed (h : Stands b e) (keys : List NumberKey) :
    Stands (keys.foldl Buffer.write b) (keys.foldl Editor.press e) := by
  induction keys generalizing b e with
  | nil => exact h
  | cons k keys ih => exact ih (h.press k)

end Editor.Stands

/-! ## §3. The value of the text. -/

namespace Numeral

/-- The digits on either side of the point are those of the numeral. -/
theorem buffer_text {n : Numeral} (h : n.negative = false) :
    Buffer.whole n.text = n.whole ∧ Buffer.places n.text = n.places := by
  obtain ⟨hfront, hback⟩ := n.cut_text
  unfold Buffer.whole Buffer.places
  rw [hfront, hback, n.drop_pointed, h]
  exact ⟨rfl, rfl⟩

/-- **The value of a numeral is the number that its digits spell.** -/
theorem toRat_value {n : Numeral} (h : n.negative = false) :
    n.value.toRat = Buffer.value n.text := by
  obtain ⟨hwhole, hplaces⟩ := n.buffer_text h
  have hsplit := n.natAbs_mantissa_split.1
  have hmantissa : n.mantissa = n.mantissa.natAbs := by
    rw [n.natAbs_mantissa]
    unfold mantissa
    rw [h]
    rfl
  unfold Buffer.value Decimal.toRat value
  dsimp only
  rw [hwhole, hplaces, hmantissa, hsplit]
  have hpow : (10 : ℚ) ^ n.places.length ≠ 0 := pow_ne_zero _ (by norm_num)
  push_cast
  rw [Decimal.tenPow_cast, zpow_neg, zpow_natCast, add_mul, mul_comm (10 ^ _ : ℚ),
    mul_inv_cancel_right₀ hpow, div_eq_mul_inv]

end Numeral

/-! ## §4. The text on the screen. -/

/-- The number in progress is shown behind the rest of the formula. -/
theorem Editor.IsTyping.shown {e : Editor} {base : Formula} {n : Numeral} (h : e.IsTyping base n)
    (s : Settings) : e.shown s = String.ofList (s.formulaChars base ++ s.typedChars n.text) := by
  unfold Editor.shown
  dsimp only
  rw [if_pos (by simp [h.typing, h.typed, n.text_ne_nil]), h.formula, h.pointPending, h.typed,
    if_pos (n.length_tokens_le base), n.take_tokens]

namespace Editor.Stands

variable {b : List Char} {e : Editor}

/-- The screen shows the text. -/
theorem shown_eq (h : Stands b e) (s : Settings) : e.shown s = s.showTyped (String.ofList b) := by
  unfold Settings.showTyped
  rw [String.toList_ofList]
  cases h with
  | empty => rfl
  | number n hn => exact (isTyping_typingAt rfl [] n).shown s

theorem toList_shown (h : Stands b e) (s : Settings) :
    (e.shown s).toList = group s.groupSeparator (Buffer.whole b)
      ++ if '.' ∈ b then s.decimalSeparator :: Buffer.places b else [] := by
  rw [h.shown_eq, Settings.showTyped, String.toList_ofList, String.toList_ofList]
  cases h with
  | empty => rfl
  | number n hn =>
    obtain ⟨hwhole, hplaces⟩ := n.buffer_text hn
    rw [s.typedChars_text, hwhole, hplaces, hn, ← n.contains_text]
    simp [Decimal.sign]

/-- The digits are no separators. -/
theorem areDigits (h : Stands b e) : AreDigits (Buffer.whole b) ∧ AreDigits (Buffer.places b) := by
  cases h with
  | empty => decide
  | number n hn =>
    obtain ⟨hwhole, hplaces⟩ := n.buffer_text hn
    rw [hwhole, hplaces]
    exact ⟨n.areDigits_whole, n.areDigits_places⟩

/-- There is one decimal separator at most. -/
theorem count_separator_le (h : Stands b e) {s : Settings}
    (hdigit : s.decimalSeparator.isDigit = false) (hgroup : s.decimalSeparator ≠ s.groupSeparator) :
    (e.shown s).toList.count s.decimalSeparator ≤ 1 := by
  obtain ⟨hwhole, hplaces⟩ := h.areDigits
  have hfront : (group s.groupSeparator (Buffer.whole b)).count s.decimalSeparator = 0 := by
    refine List.count_eq_zero.2 fun hmem => ?_
    rcases mem_group hmem with hsame | hmem
    · exact hgroup hsame
    · exact ne_of_isDigit (hwhole _ hmem) hdigit rfl
  have hback : (Buffer.places b).count s.decimalSeparator = 0 :=
    List.count_eq_zero.2 fun hmem => ne_of_isDigit (hplaces _ hmem) hdigit rfl
  rw [h.toList_shown, List.count_append, hfront]
  split
  · rw [List.count_cons_self, hback]
  · exact Nat.zero_le 1

theorem eq_empty (h : Stands b e) (hnil : b = []) : e = {} := by
  cases h with
  | empty => rfl
  | number n hn => exact absurd hnil n.text_ne_nil

/-- The formula is the value of the text, and its point if that comes last. -/
theorem formula_eq (h : Stands b e) (hne : b ≠ []) :
    ∃ v : Decimal, e.formula = .number v :: (if b.getLast? = some '.' then [.point] else [])
      ∧ v.IsNormal ∧ v.toRat = Buffer.value b := by
  cases h with
  | empty => exact absurd rfl hne
  | number n hn =>
    refine ⟨n.value.normalized, ?_, Decimal.isNormal_normalized _, ?_⟩
    · show n.tokens = _
      unfold Numeral.tokens
      rw [← n.getLast?_text_eq]
      simp only [beq_iff_eq]
      rfl
    · rw [Decimal.toRat_normalized, n.toRat_value hn]

theorem typed_eq (h : Stands b e) : e.typed = b := by
  cases h with
  | empty => rfl
  | number n hn => rfl

end Editor.Stands

/-- **TYPING A NUMBER IS A PLAIN TEXT BUFFER.**  Whatever digits, points and presses of the
erase key come, from an empty editor on, the text typed is what they make of a plain text.
If it is empty, so is the formula; otherwise the formula is one number, which has exactly
the value that the digits spell, and behind it a point if the text ends with one.  The
screen shows the text: its integer digits in groups, one decimal separator in the place of
its point, and each decimal place as it was typed. -/
theorem typing_buffered (keys : List NumberKey) (s : Settings) :
    let b := keys.foldl Buffer.write []
    let e := keys.foldl Editor.press {}
    e.typed = b
      ∧ (b = [] → e.formula = [] ∧ e.shown s = "")
      ∧ (b ≠ [] → ∃ v : Decimal,
          e.formula = .number v :: (if b.getLast? = some '.' then [.point] else [])
            ∧ v.IsNormal ∧ v.toRat = Buffer.value b)
      ∧ e.shown s = s.showTyped (String.ofList b)
      ∧ (e.shown s).toList = group s.groupSeparator (Buffer.whole b)
          ++ (if '.' ∈ b then s.decimalSeparator :: Buffer.places b else [])
      ∧ AreDigits (Buffer.whole b) ∧ AreDigits (Buffer.places b)
      ∧ (s.decimalSeparator.isDigit = false → s.decimalSeparator ≠ s.groupSeparator →
          (e.shown s).toList.count s.decimalSeparator ≤ 1) := by
  intro b e
  have h : Editor.Stands b e := Editor.Stands.empty.pressed keys
  refine ⟨h.typed_eq, fun hnil => ?_, h.formula_eq, h.shown_eq s, h.toList_shown s,
    h.areDigits.1, h.areDigits.2, h.count_separator_le⟩
  rw [h.eq_empty hnil]
  exact ⟨rfl, rfl⟩

/-- The point is erased with the place behind it, the number goes on in front of it, and the
point is typed again, twice. -/
theorem typing_buffered_across :
    let keys : List NumberKey :=
      [.digit 0, .digit 0, .digit 1, .digit 2, .digit 3, .point, .digit 5, .erase, .erase,
        .digit 4, .point, .point, .digit 5, .digit 0]
    let b := keys.foldl Buffer.write []
    let e := keys.foldl Editor.press {}
    let s : Settings := {}
    b = ['1', '2', '3', '4', '.', '5', '0'] ∧ b ≠ [] ∧ s.decimalSeparator.isDigit = false
      ∧ s.decimalSeparator ≠ s.groupSeparator ∧ e.shown s = "1,234.50"
      ∧ (∃ v : Decimal, e.formula = [.number v] ∧ v.IsNormal ∧ v.toRat = Buffer.value b)
      ∧ (e.shown s).toList.count s.decimalSeparator ≤ 1 := by
  intro keys b e s
  have htext : b = ['1', '2', '3', '4', '.', '5', '0'] := by decide +kernel
  have hne : b ≠ [] := by
    rw [htext]
    exact List.cons_ne_nil _ _
  have hlast : b.getLast? ≠ some '.' := by
    rw [htext]
    decide
  obtain ⟨-, -, hformula, -, -, -, -, hcount⟩ := typing_buffered keys s
  obtain ⟨v, hv, hnormal, hvalue⟩ := hformula hne
  rw [if_neg hlast] at hv
  exact ⟨htext, hne, by decide, by decide, by decide +kernel, ⟨v, hv, hnormal, hvalue⟩,
    hcount (by decide) (by decide)⟩

end PocketCalc
