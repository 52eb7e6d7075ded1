/-
  PocketCalc.Proofs.Editor.Erasing
  ────────────────────────────────
  **ERASING, EQUALS AND RECALL KEEP THE INVARIANT.**

  Whatever is taken away from the end of a formula that can be typed, the rest can
  be typed.  If the rest ends with a number, its text is a numeral, and it is typed
  on.  Equals closes all brackets, so that nothing but a missing operand can be
  wrong with a completed formula.
-/
import PocketCalc.Proofs.Editor.Typing

namespace PocketCalc.Editor

variable {e : Editor}

/-! ## §1. A number is typed on. -/

/-- Going on with the text of a numeral is typing this numeral. -/
theorem resume_text (e : Editor) (n : Numeral) : e.resume n.text = e.typingAt e.formula n := by
  unfold resume
  dsimp only
  rw [n.getLast?_text_eq, n.contains_text]
  exact pushTyped_tokens (n := n)
    (e := { e with
      typed := n.text, typing := true, hasPoint := n.hasPoint, pointPending := n.pending }) rfl

/-- The last number taken away, to be typed again. -/
theorem isReady_pop (hevaluated : e.evaluated = false) {v : Decimal}
    (hlast : e.formula.getLast? = some (.number v))
    (hdepth : e.formula.depth? = some e.openBrackets)
    (himplied : AreImplied e.impliedTimes e.formula) : e.pop.IsReady := by
  obtain ⟨base, hbase⟩ := List.getLast?_eq_some_iff.1 hlast
  rw [hbase] at hdepth himplied
  unfold pop
  rw [hbase, List.dropLast_concat]
  exact isReady_of_operand (e := { e with formula := base }) (t := .number v) rfl rfl hevaluated
    hdepth himplied

/-- **The state is brought in step with the last token.** -/
theorem IsSettled.invariant_resync (h : e.IsSettled) (happended : e.appended = .other) :
    e.resync.Invariant := by
  unfold resync
  split
  · next v hlast =>
    have hready := isReady_pop h.evaluated hlast h.depth h.implied
    rw [← Numeral.text_ofDecimal, resume_text]
    exact hready.invariant_typingAt happended _
  · next c hlast => exact h.invariant_note hlast rfl
  · next hlast => exact h.invariant_note hlast rfl
  · next hlast => exact h.invariant_note hlast rfl
  · next hnumber hconstant hbracket hfactorial =>
    refine h.invariant ?_ ?_
    · cases hl : e.formula.getLast? with
      | none => rfl
      | some t =>
        cases t with
        | number v => exact absurd hl (hnumber v)
        | _ => rfl
    · rw [happended]
      cases hl : e.formula.getLast? with
      | none => rfl
      | some t =>
        cases t with
        | constant c => exact absurd hl (hconstant c)
        | rightBracket => exact absurd hl hbracket
        | operator op =>
          cases op with
          | factorial => exact absurd hl hfactorial
          | _ => rfl
        | _ => rfl

/-! ## §2. The erase key. -/

theorem last_ne_point {f : Formula} {t : Token} (h : t.mayFollow f.getLast? = true) :
    f.getLast? ≠ some .point := by
  intro hpoint
  rw [hpoint, Formula.not_mayFollow_point] at h
  cases h

/-- Once a token has been taken away, and its implied sign after it, the editor is
settled. -/
theorem isSettled_dropImpliedTimes (hidle : e.IsIdle) (hevaluated : e.evaluated = false)
    (hdepth : e.formula.depth? = some e.openBrackets) {t : Token}
    (himplied : AreImplied e.impliedTimes (e.formula ++ [t])) : e.dropImpliedTimes.IsSettled := by
  obtain ⟨is, g, heq, hsigns, hcut⟩ := dropImpliedTimes_spec himplied
  rw [heq]
  rcases hcut with hcut | hcut
  · rw [← hcut] at hsigns ⊢
    exact ⟨⟨hidle.typing, hidle.typed, hidle.hasPoint, hidle.pointPending, hidle.last⟩, hevaluated,
      hdepth, hsigns⟩
  · rw [hcut] at hdepth
    obtain ⟨hfollow, d, hd, hdeep⟩ := Formula.depth?_pop hdepth
    cases hdeep
    exact ⟨⟨hidle.typing, hidle.typed, hidle.hasPoint, hidle.pointPending, last_ne_point hfollow⟩,
      hevaluated, hd, hsigns⟩

/-- The last token is taken away, and the counter is that of the shorter formula: a bracket
is opened or closed again. -/
theorem removeToken_concat {base : Formula} {t : Token} {d : Nat} (hbase : e.formula = base ++ [t])
    (hd : t.deepen d = some e.openBrackets) :
    e.removeToken = { e with formula := base, openBrackets := d } := by
  have hlast : e.formula.getLast? = some t := by rw [hbase, List.getLast?_concat]
  unfold removeToken pop
  rw [hlast, hbase, List.dropLast_concat]
  cases t with
  | leftBracket =>
    rw [← Option.some.inj hd]
    rfl
  | rightBracket =>
    cases d with
    | zero => cases hd
    | succ d =>
      rw [← Option.some.inj hd]
  | _ =>
    rw [Option.some.inj hd]

/-- **Taking the last token away** keeps the count of the brackets. -/
theorem isSettled_removeToken (hidle : e.IsIdle) (hevaluated : e.evaluated = false)
    (hdepth : e.formula.depth? = some e.openBrackets)
    (himplied : AreImplied e.impliedTimes e.formula) :
    e.removeToken.dropImpliedTimes.IsSettled := by
  rcases List.eq_nil_or_concat e.formula with hnil | ⟨base, t, hbase⟩
  · have hremove : e.removeToken.dropImpliedTimes = { e with impliedTimes := [] } := by
      unfold removeToken dropImpliedTimes pop
      simp [hnil]
    rw [hremove]
    exact ⟨⟨hidle.typing, hidle.typed, hidle.hasPoint, hidle.pointPending, hidle.last⟩, hevaluated,
      hdepth, AreImplied.nil _⟩
  · rw [List.concat_eq_append] at hbase
    rw [hbase] at hdepth himplied
    obtain ⟨hfollow, d, hd, hdeep⟩ := Formula.depth?_pop hdepth
    rw [removeToken_concat hbase hdeep]
    exact isSettled_dropImpliedTimes (t := t)
      ⟨hidle.typing, hidle.typed, hidle.hasPoint, hidle.pointPending, last_ne_point hfollow⟩
      hevaluated hd himplied

/-- A pending point is erased from the number. -/
theorem IsTyping.erase_of_pending {base : Formula} {n : Numeral} (h : e.IsTyping base n)
    (happended : e.appended = .other) (hpending : n.pending = true) :
    e.erase = e.typingAt base n.settled := by
  have hformula : withoutFinalPoint e.formula = base ++ n.settled.tokens := by
    rw [h.formula_withoutFinalPoint, Numeral.tokens, n.value_settled, n.pending_settled]
    rfl
  have htext : (if e.typed.getLast? = some '.' then e.typed.dropLast else e.typed)
      = n.settled.text := by
    rw [h.typed, ← n.text_settled]
    simp only [beq_iff_eq]
  unfold erase
  dsimp only
  rw [if_pos (h.pointPending.trans hpending), hformula, htext]
  unfold typingAt
  rw [n.pending_settled, n.hasPoint_settled hpending, h.typing, h.evaluated, happended]

/-- The editor without a number being typed, and with nothing noted. -/
def wiped (e : Editor) : Editor :=
  { e with evaluated := false, appended := .other, typed := [], typing := false, hasPoint := false }

/-- Without a pending point, the last digit or the last token is erased. -/
theorem erase_eq (h : e.pointPending = false) :
    e.erase =
      match e.formula.getLast? with
      | some (.number v) =>
          if (e.shortened v).isEmpty || e.shortened v == ['-'] then
            e.wiped.pop.dropImpliedTimes.resync
          else e.wiped.pop.resume (e.shortened v)
      | _ => e.wiped.removeToken.dropImpliedTimes.resync := by
  unfold erase
  dsimp only
  rw [if_neg (by rw [h]; exact Bool.false_ne_true)]
  rfl

/-- A wiped editor is settled, if no point was pending. -/
theorem isSettled_wiped (h : e.Invariant) (hpending : e.pointPending = false) :
    e.wiped.IsSettled := by
  have hlast : e.formula.getLast? ≠ some .point := by
    rcases h.number with ⟨base, n, hn⟩ | ⟨hidle, -⟩
    · rw [hn.formula_of_not_pending hpending, List.getLast?_concat]
      intro hpoint
      cases hpoint
    · exact hidle.last
  exact ⟨⟨rfl, rfl, rfl, hpending, hlast⟩, rfl, h.depth, h.implied⟩

/-- The text of the last number has one character less than a numeral. -/
theorem shortened_text (h : e.Invariant) (hpending : e.pointPending = false) (v : Decimal) :
    ∃ n : Numeral, n.pending = false ∧ e.shortened v = n.text.dropLast := by
  unfold shortened
  rcases h.number with ⟨base, n, hn⟩ | ⟨hidle, -⟩
  · refine ⟨n, hn.pointPending.symm.trans hpending, ?_⟩
    simp [hn.typing, hn.typed, n.text_ne_nil]
  · refine ⟨.ofDecimal v, Numeral.pending_ofDecimal v, ?_⟩
    simp [hidle.typing, Numeral.text_ofDecimal]

theorem appended_dropImpliedTimes (e : Editor) : e.dropImpliedTimes.appended = e.appended := by
  unfold dropImpliedTimes
  dsimp only
  split <;> rfl

theorem appended_removeToken (e : Editor) : e.removeToken.appended = e.appended := by
  unfold removeToken
  split <;> rfl

/-- A pending point is that of a number being typed. -/
theorem exists_isTyping_of_pending (h : e.Invariant) (hpending : e.pointPending = true) :
    ∃ base n, e.IsTyping base n ∧ n.pending = true := by
  rcases h.number with ⟨base, n, hn⟩ | ⟨hidle, -⟩
  · exact ⟨base, n, hn, hn.pointPending.symm.trans hpending⟩
  · exact absurd (hidle.pointPending.symm.trans hpending) Bool.false_ne_true

/-- **The erase key keeps the invariant.** -/
theorem invariant_erase (h : e.Invariant) : e.erase.Invariant := by
  by_cases hpending : e.pointPending = true
  · obtain ⟨base, n, hn, hpoint⟩ := exists_isTyping_of_pending h hpending
    have happended := hn.appended h
    rw [hn.erase_of_pending happended hpoint]
    exact (hn.isReady h).invariant_typingAt happended _
  · have hpending : e.pointPending = false := by simpa using hpending
    have hwiped := isSettled_wiped h hpending
    have hremove := isSettled_removeToken hwiped.idle rfl hwiped.depth hwiped.implied
    rw [erase_eq hpending]
    split
    · next v hv =>
      have hpop : e.wiped.removeToken = e.wiped.pop := by
        unfold removeToken
        rw [show e.wiped.formula.getLast? = some (.number v) from hv]
      rw [hpop] at hremove
      obtain ⟨n, hn, hshort⟩ := shortened_text h hpending v
      have hother : e.wiped.pop.dropImpliedTimes.appended = .other :=
        appended_dropImpliedTimes e.wiped.pop
      rw [hshort]
      -- Nothing is left of the number, or a sign alone, or a shorter number.
      rcases Numeral.dropLast_text hn with hempty | hminus | ⟨m, hm⟩
      · rw [hempty]
        exact hremove.invariant_resync hother
      · rw [hminus]
        exact hremove.invariant_resync hother
      · have hready := isReady_pop (e := e.wiped) rfl hv hwiped.depth hwiped.implied
        rw [hm, if_neg (by simp [m.text_ne_nil, m.text_ne_minus]), resume_text]
        exact hready.invariant_typingAt rfl m
    · exact hremove.invariant_resync
        ((appended_dropImpliedTimes _).trans (appended_removeToken e.wiped))

/-! ## §3. Equals and recall. -/

theorem depth?_of_evaluated (h : e.Invariant) (hevaluated : e.evaluated = true) :
    e.formula.depth? = some 0 := by
  rw [h.depth, h.closed hevaluated]

/-- No number is being typed in a formula that was evaluated. -/
theorem isIdle_of_evaluated (h : e.Invariant) (hevaluated : e.evaluated = true) : e.IsIdle := by
  rcases h.number with ⟨base, n, hn⟩ | ⟨hidle, -⟩
  · exact absurd (hn.evaluated.symm.trans hevaluated) Bool.false_ne_true
  · exact hidle

/-- Closing all brackets of a formula where no number is being typed. -/
theorem invariant_close (hidle : e.IsIdle) (hdepth : e.formula.depth? = some e.openBrackets)
    (himplied : AreImplied e.impliedTimes e.formula) :
    { e with
      formula := e.formula ++ List.replicate e.openBrackets .rightBracket
      openBrackets := 0, evaluated := true : Editor }.Invariant where
  depth := Formula.depth?_close hdepth hidle.last
  implied := himplied.append _
  number := by
    refine .inr ⟨⟨hidle.typing, hidle.typed, hidle.hasPoint, hidle.pointPending, ?_⟩,
      fun h => nomatch h⟩
    show (e.formula ++ List.replicate e.openBrackets Token.rightBracket).getLast? ≠ some .point
    cases e.openBrackets with
    | zero => simpa using hidle.last
    | succ d => simp [List.replicate_succ', ← List.append_assoc]
  appended := fun h => nomatch h
  closed := fun _ => rfl

/-- **Equals keeps the invariant.** -/
theorem invariant_complete (h : e.Invariant) : e.complete.Invariant := by
  unfold complete
  cases hevaluated : e.evaluated with
  | true => exact invariant_close (isIdle_of_evaluated h hevaluated) h.depth h.implied
  | false =>
    have hclosed := isSettled_closeNumber h
    exact invariant_close hclosed.idle hclosed.depth hclosed.implied

/-- **Recall keeps the invariant**, if the formula is closed and has no point. -/
theorem invariant_load (e : Editor) {f : Formula} (hdepth : f.depth? = some 0)
    (hlast : f.getLast? ≠ some .point) : (e.load f).Invariant where
  depth := by
    show f.depth? = some (f.count .leftBracket - f.count .rightBracket)
    rw [hdepth, Formula.count_leftBracket hdepth, Nat.add_zero, Nat.sub_self]
  implied := AreImplied.nil _
  number := .inr ⟨⟨rfl, rfl, rfl, rfl, hlast⟩, fun h => nomatch h⟩
  appended := fun h => nomatch h
  closed := fun _ => by
    show f.count .leftBracket - f.count .rightBracket = 0
    rw [Formula.count_leftBracket hdepth, Nat.add_zero, Nat.sub_self]

end PocketCalc.Editor
