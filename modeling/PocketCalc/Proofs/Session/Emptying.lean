/-
  PocketCalc.Proofs.Session.Emptying
  ──────────────────────────────────
  **ERASING ALWAYS EMPTIES THE FORMULA.**

  The erase key also brings things back: a number that comes to stand at the end is typed
  on, with its whole text.  So the length of the formula need not fall.  What falls is its
  weight, in which a number counts with the characters of its text and any other token with
  one: whether a number is typed on or not, it has the same weight.

      weight_resync         going on with a number keeps the weight
      weight_erase_lt       each press makes the formula lighter
      eq_restart            of an empty formula nothing is left but the last result
      editor_erases         so as many presses as the formula weighs leave nothing else
      erase_empties         the same in every session
-/
import PocketCalc.Proofs.Session.Screen
import PocketCalc.Proofs.Session.Undoing

namespace PocketCalc

/-! ## §1. Weights. -/

/-- A number weighs as much as its plain text is long, any other token is counted. -/
def Token.weight : Token → Nat
  | .number v => v.plain.length
  | _ => 1

/-- The weights of all tokens together. -/
def Formula.weight : Formula → Nat
  | [] => 0
  | t :: f => t.weight + weight f

/-- The weight of what is on the screen: the number being typed, and its pending point,
count with the text that was typed. -/
def Editor.weight (e : Editor) : Nat :=
  if e.typing then
    Formula.weight (e.formula.take (e.formula.length - if e.pointPending then 2 else 1))
      + e.typed.length
  else e.formula.weight

theorem Decimal.length_plain_pos (x : Decimal) : 0 < x.plain.length := by
  rw [← Numeral.text_ofDecimal]
  exact List.length_pos_iff.2 (Numeral.ofDecimal x).text_ne_nil

theorem Token.weight_of_isNumber {t : Token} (h : t.isNumber = false) : t.weight = 1 := by
  cases t with
  | number v => cases h
  | _ => rfl

namespace Formula

theorem weight_concat (f : Formula) (t : Token) : weight (f ++ [t]) = weight f + t.weight := by
  induction f with
  | nil => exact Nat.add_comm _ _
  | cons u f ih =>
    show u.weight + weight (f ++ [t]) = u.weight + weight f + t.weight
    rw [ih, Nat.add_assoc]

theorem weight_dropLast_le (f : Formula) : weight f.dropLast ≤ weight f := by
  rcases List.eq_nil_or_concat f with rfl | ⟨base, t, rfl⟩
  · exact Nat.le_refl _
  · rw [List.concat_eq_append, List.dropLast_concat, weight_concat]
    exact Nat.le_add_right _ _

end Formula

namespace Editor

variable {e : Editor} {base : Formula}

theorem weight_of_not_typing (h : e.typing = false) : e.weight = e.formula.weight := by
  unfold weight
  rw [h]
  rfl

/-- A number that is being typed counts with its text. -/
theorem weight_typingAt (e : Editor) (base : Formula) (n : Numeral) :
    (e.typingAt base n).weight = base.weight + n.text.length := by
  unfold weight typingAt
  dsimp only
  rw [if_pos rfl, n.take_tokens]

theorem IsTyping.weight {n : Numeral} (h : e.IsTyping base n) :
    e.weight = base.weight + n.text.length := by
  rw [← weight_typingAt e base n, h.typingAt]

/-! ## §2. What is taken away, and what is brought back. -/

/-- **Going on with a number keeps the weight**, for it is typed on with its plain text. -/
theorem weight_resync (h : e.typing = false) : e.resync.weight = e.formula.weight := by
  unfold resync
  split
  · next v hlast =>
    obtain ⟨base, hbase⟩ := List.getLast?_eq_some_iff.1 hlast
    have hpop : e.pop.formula = base := by
      show e.formula.dropLast = base
      rw [hbase, List.dropLast_concat]
    rw [← Numeral.text_ofDecimal, resume_text, weight_typingAt, hpop, hbase,
      Formula.weight_concat, Numeral.text_ofDecimal]
    rfl
  · exact weight_of_not_typing h
  · exact weight_of_not_typing h
  · exact weight_of_not_typing h
  · exact weight_of_not_typing h

theorem typing_dropImpliedTimes (e : Editor) : e.dropImpliedTimes.typing = e.typing := by
  unfold dropImpliedTimes
  dsimp only
  split <;> rfl

theorem weight_dropImpliedTimes_le (e : Editor) :
    e.dropImpliedTimes.formula.weight ≤ e.formula.weight := by
  unfold dropImpliedTimes
  dsimp only
  split
  · exact Formula.weight_dropLast_le e.formula
  · exact Nat.le_refl _

theorem removeToken_eq (e : Editor) :
    e.removeToken.formula = e.formula.dropLast ∧ e.removeToken.typing = e.typing := by
  unfold removeToken
  split <;> exact ⟨rfl, rfl⟩

/-- Without its last token, the formula is brought in step with the one before. -/
theorem weight_withdrawn_le (h : e.typing = false) :
    e.dropImpliedTimes.resync.weight ≤ e.formula.weight := by
  rw [weight_resync ((typing_dropImpliedTimes e).trans h)]
  exact weight_dropImpliedTimes_le e

/-! ## §3. Each press makes the formula lighter. -/

/-- The last number counts with one character more than erasing leaves of its text. -/
theorem weight_of_number (h : e.Invariant) (hpending : e.pointPending = false) {v : Decimal}
    (hbase : e.formula = base ++ [.number v]) :
    e.weight = base.weight + (e.shortened v).length + 1 := by
  unfold shortened
  rw [List.length_dropLast]
  rcases h.number with ⟨front, n, hn⟩ | ⟨hidle, -⟩
  · have hpos := List.length_pos_iff.2 n.text_ne_nil
    have hfront : front = base := by
      rw [hn.formula_of_not_pending hpending] at hbase
      exact (List.append_inj' hbase rfl).1
    have htyped : (e.typing && !e.typed.isEmpty) = true := by
      simp [hn.typing, hn.typed, n.text_ne_nil]
    rw [hn.weight, hfront, if_pos htyped, hn.typed]
    omega
  · have hpos := v.length_plain_pos
    have htyped : ¬(e.typing && !e.typed.isEmpty) = true := by simp [hidle.typing]
    rw [weight_of_not_typing hidle.typing, hbase, Formula.weight_concat, if_neg htyped]
    show base.weight + v.plain.length = _
    omega

/-- Any other last token than a number or its point counts one. -/
theorem weight_of_token (h : e.Invariant) (hpending : e.pointPending = false) {t : Token}
    (hbase : e.formula = base ++ [t]) (ht : t.isNumber = false) : e.weight = base.weight + 1 := by
  rcases h.number with ⟨front, n, hn⟩ | ⟨hidle, -⟩
  · -- The formula would end with the number being typed.
    have hlast : e.formula.getLast? = some (Token.ofDecimal n.value) := by
      rw [hn.formula_of_not_pending hpending, List.getLast?_concat]
    rw [hbase, List.getLast?_concat] at hlast
    cases hlast
    cases ht
  · rw [weight_of_not_typing hidle.typing, hbase, Formula.weight_concat,
      Token.weight_of_isNumber ht]

/-- The point leaves the text of a numeral that ends with it. -/
theorem length_text_settled {n : Numeral} (h : n.pending = true) :
    n.text.length = n.settled.text.length + 1 := by
  have hpos := List.length_pos_iff.2 n.text_ne_nil
  rw [Numeral.text_settled_of_pending h, List.length_dropLast]
  omega

theorem weight_erase_of_pending (h : e.Invariant) (hpending : e.pointPending = true) :
    e.erase.weight < e.weight := by
  obtain ⟨base, n, hn, hpoint⟩ := exists_isTyping_of_pending h hpending
  rw [hn.erase_of_pending (hn.appended h) hpoint, weight_typingAt, hn.weight,
    length_text_settled hpoint]
  exact Nat.lt_succ_self _

/-- A number loses its last digit, or it goes as a whole, and the one before comes back with
no more than it weighed. -/
theorem weight_erase_of_number (h : e.Invariant) (hpending : e.pointPending = false) {v : Decimal}
    (hbase : e.formula = base ++ [.number v]) : e.erase.weight < e.weight := by
  have hpop : e.wiped.pop.formula = base := by
    show e.formula.dropLast = base
    rw [hbase, List.dropLast_concat]
  have hgone : e.wiped.pop.dropImpliedTimes.resync.weight ≤ Formula.weight base := by
    rw [← hpop]
    exact weight_withdrawn_le rfl
  have hweight := weight_of_number h hpending hbase
  obtain ⟨n, hn, hshort⟩ := shortened_text h hpending v
  rw [erase_eq hpending, hbase, List.getLast?_concat]
  dsimp only
  rw [hshort] at hweight ⊢
  -- Nothing is left of the number, or a sign alone, or a shorter number.
  rcases Numeral.dropLast_text hn with hempty | hminus | ⟨m, hm⟩
  · rw [hempty]
    exact Nat.lt_of_le_of_lt hgone (by omega)
  · rw [hminus]
    exact Nat.lt_of_le_of_lt hgone (by omega)
  · rw [hm] at hweight ⊢
    rw [if_neg (by simp [m.text_ne_nil, m.text_ne_minus]), resume_text, weight_typingAt, hpop,
      hweight]
    exact Nat.lt_succ_self _

theorem weight_erase_of_token (h : e.Invariant) (hpending : e.pointPending = false) {t : Token}
    (hbase : e.formula = base ++ [t]) (ht : t.isNumber = false) : e.erase.weight < e.weight := by
  obtain ⟨hformula, htyping⟩ := removeToken_eq e.wiped
  have hremove : e.wiped.removeToken.formula = base := by
    rw [hformula]
    show e.formula.dropLast = base
    rw [hbase, List.dropLast_concat]
  have hgone := weight_withdrawn_le htyping
  rw [hremove] at hgone
  rw [weight_of_token h hpending hbase ht, erase_eq hpending, hbase, List.getLast?_concat]
  cases t with
  | number v => cases ht
  | _ => exact Nat.lt_succ_of_le hgone

/-- **Each press of the erase key makes the formula lighter.** -/
theorem weight_erase_lt (h : e.Invariant) (hne : e.formula ≠ []) : e.erase.weight < e.weight := by
  cases hpending : e.pointPending with
  | true => exact weight_erase_of_pending h hpending
  | false =>
    obtain ⟨base, t, hbase⟩ := (List.eq_nil_or_concat e.formula).resolve_left hne
    rw [List.concat_eq_append] at hbase
    cases t with
    | number v => exact weight_erase_of_number h hpending hbase
    | _ => exact weight_erase_of_token h hpending hbase rfl

/-! ## §4. The empty formula. -/

/-- No number is being typed in an empty formula. -/
theorem isIdle_of_nil (h : e.Invariant) (hnil : e.formula = []) : e.IsIdle := by
  rcases h.number with ⟨base, n, hn⟩ | ⟨hidle, -⟩
  · have hformula := hn.formula
    rw [hnil] at hformula
    simp [Numeral.tokens] at hformula
  · exact hidle

/-- **A press takes something off the weight, or there is none left.** -/
theorem weight_erase_le (h : e.Invariant) : e.erase.weight ≤ e.weight - 1 := by
  by_cases hnil : e.formula = []
  · have hlight := weight_withdrawn_le (removeToken_eq e.wiped).2
    rw [(removeToken_eq e.wiped).1, show e.wiped.formula = [] from hnil] at hlight
    rw [erase_eq (isIdle_of_nil h hnil).pointPending, hnil]
    exact Nat.le_trans hlight (Nat.zero_le _)
  · exact Nat.le_pred_of_lt (weight_erase_lt h hnil)

/-- What weighs nothing is empty. -/
theorem formula_of_weight (h : e.Invariant) (hweight : e.weight = 0) : e.formula = [] := by
  by_contra hne
  have hlt := weight_erase_lt h hne
  omega

/-- **Of an empty formula nothing is left but the last result.** -/
theorem eq_restart (h : e.Invariant) (hevaluated : e.evaluated = false) (hnil : e.formula = []) :
    e = e.restart := by
  -- What the formula does not tell is empty while no number is being typed.
  have hidle := isIdle_of_nil h hnil
  have hopen : e.openBrackets = 0 := by
    have hdepth := h.depth
    rw [hnil] at hdepth
    exact (Option.some.inj hdepth).symm
  have happended : e.appended = .other := by
    rw [h.appended hevaluated, hnil]
    rfl
  have himplied : e.impliedTimes = [] := by
    refine List.eq_nil_iff_forall_not_mem.2 fun i hi => ?_
    have hlt := (h.implied.implied i hi).succ_lt
    rw [hnil] at hlt
    cases hlt
  calc e = ⟨e.formula, e.typed, e.typing, e.hasPoint, e.pointPending, e.evaluated, e.appended,
        e.openBrackets, e.impliedTimes, e.lastResult⟩ := rfl
    _ = e.restart := by
      rw [hnil, hidle.typed, hidle.typing, hidle.hasPoint, hidle.pointPending, hevaluated,
        happended, hopen, himplied]
      rfl

end Editor

namespace Session

/-! ## §5. Runs of the erase key. -/

variable {s : Session MemoryStore}

/-- **The weight has fallen by one press after the other.** -/
theorem weight_erases_le (h : s.Invariant) (k : Nat) :
    (s.run (List.replicate k (.act .erase))).value.editor.weight ≤ s.editor.weight - k := by
  induction k with
  | zero => exact Nat.le_refl _
  | succ k ih =>
    have hstep := Editor.weight_erase_le (invariant_run h (List.replicate k (.act .erase))).editor
    rw [List.replicate_succ', run_concat]
    show (s.run (List.replicate k (.act .erase))).value.editor.erase.weight ≤ _
    omega

theorem lastResult_erases (s : Session MemoryStore) (k : Nat) :
    (s.run (List.replicate k (.act .erase))).value.editor.lastResult = s.editor.lastResult := by
  induction k with
  | zero => rfl
  | succ k ih =>
    rw [List.replicate_succ', run_concat]
    exact (Editor.lastResult_erase _).trans ih

/-- **After as many presses as the formula weighs, the editor is as in the beginning**, but
for the last result. -/
theorem editor_erases (h : s.Invariant) {k : Nat} (hpressed : 1 ≤ k) (hk : s.editor.weight ≤ k) :
    (s.run (List.replicate k (.act .erase))).value.editor = s.editor.restart := by
  have hinv := (invariant_run h (List.replicate k (.act .erase))).editor
  have hweight := weight_erases_le h k
  have hresult := lastResult_erases s k
  -- The last press leaves a formula that does not count as evaluated.
  have hopen : (s.run (List.replicate k (.act .erase))).value.editor.evaluated = false := by
    obtain ⟨j, rfl⟩ := Nat.exists_eq_add_of_le' hpressed
    rw [List.replicate_succ', run_concat]
    exact (Editor.reopens_erase _).evaluated
  have hempty := Editor.formula_of_weight hinv (by omega)
  rw [Editor.eq_restart hinv hopen hempty]
  unfold Editor.restart
  rw [hresult]

end Session

/-- **ERASING ALWAYS EMPTIES THE FORMULA.**  Whatever the actions and changes of the settings
were, a press of the erase key makes a formula that is not empty lighter.  So after one
press, and at least as many presses as the formula weighs, the editor is the one that every
session starts with, except that it keeps the last result. -/
theorem erase_empties (settings : Settings) (steps : List Session.Step) :
    let e := (Session.run (Session.fresh settings) steps).value.editor
    let pressed := fun k =>
      (Session.run (Session.fresh settings) (steps ++ List.replicate k (.act .erase))).value.editor
    (e.formula ≠ [] → (pressed 1).weight < e.weight)
      ∧ ∀ k, max 1 e.weight ≤ k → pressed k = { lastResult := e.lastResult } := by
  intro e pressed
  have hinv := Session.invariant_run (Session.invariant_fresh settings) steps
  have hpressed (k : Nat) : pressed k = ((Session.run (Session.fresh settings) steps).value.run
      (List.replicate k (.act .erase))).value.editor := by
    show (Session.run _ (steps ++ _)).value.editor = _
    rw [Session.run_append]
  refine ⟨?_, ?_⟩
  · intro hne
    rw [hpressed]
    exact Editor.weight_erase_lt hinv.editor hne
  · intro k hk
    rw [hpressed]
    exact Session.editor_erases hinv (Nat.le_trans (Nat.le_max_left 1 _) hk)
      (Nat.le_trans (Nat.le_max_right 1 _) hk)

/-- The formula of `2.5π` weighs five, and four presses are enough: the constant leaves with
its product sign, and the number is typed on. -/
theorem erase_empties_constant :
    let steps : List Session.Step :=
      [.act (.digit 2), .act .point, .act (.digit 5), .act (.constant .pi)]
    let e := (Session.run (Session.fresh {}) steps).value.editor
    let pressed := fun k =>
      (Session.run (Session.fresh {}) (steps ++ List.replicate k (.act .erase))).value.editor
    e.formula ≠ [] ∧ e.weight = 5 ∧ (pressed 1).weight = 3 ∧ (pressed 1).weight < e.weight
      ∧ pressed 4 = {} ∧ max 1 e.weight ≤ 5 ∧ pressed 5 = {} := by
  intro steps e pressed
  have hne : e.formula ≠ [] := by decide +kernel
  have hweight : e.weight = 5 := by decide +kernel
  have hk : max 1 e.weight ≤ 5 := by rw [hweight]; decide
  obtain ⟨hlighter, hempties⟩ := erase_empties {} steps
  exact ⟨hne, hweight, by decide +kernel, hlighter hne, by decide +kernel, hk,
    (hempties 5 hk).trans (by decide +kernel)⟩

end PocketCalc
