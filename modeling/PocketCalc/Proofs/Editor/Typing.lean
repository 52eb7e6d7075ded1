/-
  PocketCalc.Proofs.Editor.Typing
  ───────────────────────────────
  **THE KEYS THAT APPEND KEEP THE INVARIANT.**

  A digit or a point brings the editor in front of a number (`isReady_number`) and
  types one character of it.  Every other key closes the number first, and then it
  appends tokens to a settled editor.
-/
import PocketCalc.Proofs.Editor.Invariant
import PocketCalc.Editor.Typing

namespace PocketCalc.Editor

variable {e : Editor}

/-! ## §1. Numbers. -/

/-- What a digit or a point finds when no number is being typed: the formula stands
in front of the number, and nothing is noted. -/
theorem IsIdle.isReady_multiply (h : e.IsIdle) (hinv : e.Invariant)
    (hevaluated : e.evaluated = false) :
    e.multiplyBehindAppended.IsReady ∧ e.multiplyBehindAppended.appended = .other := by
  have hsettled : e.IsSettled := ⟨h, hevaluated, hinv.depth, hinv.implied⟩
  have hnumber : e.formula.getLast?.any Token.isNumber = false := by
    rcases hinv.number with ⟨base, n, hn⟩ | ⟨-, hn⟩
    · exact absurd (h.typing.symm.trans hn.typing) Bool.false_ne_true
    · exact hn hevaluated
  have hnoted := Appended.behind_eq_other_iff e.formula.getLast?
  rw [← hinv.appended hevaluated, hnumber] at hnoted
  unfold multiplyBehindAppended
  -- A product sign is implied exactly if the last token ends a value.
  by_cases hother : e.appended = .other
  · rw [if_pos hother]
    exact ⟨hsettled.isReady (by simpa using hnoted.1 hother), hother⟩
  · rw [if_neg hother]
    have hready := hsettled.isReady_pushImpliedTimes (by simpa [hother] using hnoted)
    exact ⟨⟨hready.evaluated, hready.depth, hready.awaits, hready.implied⟩, rfl⟩

/-- While a number is being typed, nothing is noted, so nothing is multiplied. -/
theorem IsTyping.appended {base : Formula} {n : Numeral} (h : e.IsTyping base n)
    (hinv : e.Invariant) : e.appended = .other := by
  rw [hinv.appended h.evaluated, h.formula, Numeral.tokens]
  cases n.pending <;> simp [Appended.behind, Token.ofDecimal]

theorem pushTyped_eq {n : Numeral} (h : e.typed = n.text) :
    e.pushTyped = e.push (Token.ofDecimal n.value) := by
  unfold pushTyped
  rw [h, n.readTyped_text]
  show e.push (.number n.value.normalized.normalized) = _
  rw [Decimal.normalized_normalized]
  rfl

/-- The number typed so far is appended, and its point if that is pending. -/
theorem pushTyped_tokens {n : Numeral} (h : e.typed = n.text) :
    (if n.pending then e.pushTyped.push .point else e.pushTyped)
      = { e with formula := e.formula ++ n.tokens } := by
  rw [pushTyped_eq h]
  unfold push Numeral.tokens
  cases n.pending with
  | false => rfl
  | true =>
    dsimp only
    rw [if_pos rfl, if_pos rfl, List.append_assoc]
    rfl

theorem restartIfEvaluated_of (h : e.evaluated = false) : e.restartIfEvaluated = e := by
  unfold restartIfEvaluated
  rw [h]
  rfl

/-- A digit goes on with the number that is being typed. -/
theorem IsTyping.typeDigit {base : Formula} {n : Numeral} (h : e.IsTyping base n)
    (happended : e.appended = .other) {d : Nat} (hd : d ≤ 9) :
    e.typeDigit d = e.typingAt base (n.typeDigit d hd) := by
  -- The value typed so far is taken back, and the longer one appended.
  have hpop : e.dropPendingPoint.pop = { e with pointPending := false, formula := base } := by
    rw [h.dropPendingPoint]
    unfold pop
    rw [List.dropLast_concat]
  have htyping : e.dropPendingPoint.typing = true := by
    rw [h.dropPendingPoint]
    exact h.typing
  unfold Editor.typeDigit Editor.multiplyBehindAppended
  rw [if_neg (by omega), restartIfEvaluated_of h.evaluated, if_pos happended]
  dsimp only
  rw [if_pos htyping, hpop]
  dsimp only
  rw [h.typed, ← n.text_typeDigit d hd, h.hasPoint, h.typing]
  have hpush := pushTyped_tokens (n := n.typeDigit d hd)
    (e := { e with
      formula := base, typed := (n.typeDigit d hd).text, typing := true, hasPoint := n.hasPoint
      pointPending := false }) rfl
  rw [if_neg (by rw [n.pending_typeDigit]; exact Bool.false_ne_true)] at hpush
  rw [hpush]
  unfold typingAt
  rw [n.pending_typeDigit, n.hasPoint_typeDigit]

theorem IsIdle.multiplyBehindAppended (h : e.IsIdle) : e.multiplyBehindAppended.IsIdle := by
  unfold Editor.multiplyBehindAppended
  split
  · exact h
  · refine ⟨h.typing, h.typed, h.hasPoint, h.pointPending, ?_⟩
    show (e.formula ++ [Token.operator .times]).getLast? ≠ some .point
    rw [List.getLast?_concat]
    exact fun hpoint => nomatch hpoint

/-- A digit begins a number. -/
theorem IsIdle.typeDigit (h : e.IsIdle) (hevaluated : e.evaluated = false) {d : Nat} (hd : d ≤ 9) :
    e.typeDigit d =
      e.multiplyBehindAppended.typingAt e.multiplyBehindAppended.formula (.ofDigit d hd) := by
  have hidle := h.multiplyBehindAppended
  unfold Editor.typeDigit
  rw [if_neg (by omega), restartIfEvaluated_of hevaluated]
  generalize e.multiplyBehindAppended = e at hidle ⊢
  dsimp only
  rw [hidle.dropPendingPoint, if_neg (by rw [hidle.typing]; exact Bool.false_ne_true)]
  refine (pushTyped_tokens (n := .ofDigit d hd)
    (e := { e with typed := [Nat.digitChar d], typing := true }) rfl).trans ?_
  unfold typingAt
  rw [hidle.pointPending, hidle.hasPoint]
  rfl

/-- A digit starts afresh, if the formula was evaluated. -/
theorem typeDigit_restartIfEvaluated (h : e.Invariant) {d : Nat} (hd : d ≤ 9) :
    e.restartIfEvaluated.typeDigit d = e.typeDigit d := by
  unfold typeDigit
  rw [if_neg (by omega), if_neg (by omega),
    restartIfEvaluated_of (invariant_restartIfEvaluated h).2]

/-- **A digit keeps the invariant.** -/
theorem invariant_typeDigit (h : e.Invariant) (d : Nat) : (e.typeDigit d).Invariant := by
  by_cases hd : 9 < d
  · unfold typeDigit
    rw [if_pos hd]
    exact h
  · have hd : d ≤ 9 := by omega
    obtain ⟨hinv, hevaluated⟩ := invariant_restartIfEvaluated h
    rw [← typeDigit_restartIfEvaluated h hd]
    rcases hinv.number with ⟨base, n, hn⟩ | ⟨hidle, -⟩
    · have happended := hn.appended hinv
      rw [hn.typeDigit happended hd]
      exact (hn.isReady hinv).invariant_typingAt happended _
    · obtain ⟨hready, happended⟩ := hidle.isReady_multiply hinv hevaluated
      rw [hidle.typeDigit hevaluated hd]
      exact hready.invariant_typingAt happended _

/-- A number takes one point. -/
theorem IsTyping.typePoint {base : Formula} {n : Numeral} (h : e.IsTyping base n) :
    e.typePoint = if n.hasPoint then e else e.typingAt base n.pushPoint := by
  unfold Editor.typePoint
  dsimp only
  rw [restartIfEvaluated_of h.evaluated, h.hasPoint, h.typed, n.contains_text, Bool.or_self]
  cases hpoint : n.hasPoint with
  | true => rfl
  | false =>
    have hnone : n.fraction = none := by simpa [Numeral.hasPoint] using hpoint
    have hformula : e.formula = base ++ [Token.ofDecimal n.value] := by
      rw [h.formula, Numeral.tokens, Numeral.pending, hnone]
      rfl
    have hpop : e.pop = { e with formula := base } := by
      unfold pop
      rw [hformula, List.dropLast_concat]
    rw [if_pos h.typing, hpop]
    dsimp only
    rw [h.typed, ← n.text_pushPoint hpoint, h.typing]
    exact pushTyped_tokens (n := n.pushPoint)
      (e := { e with
        formula := base, typed := n.pushPoint.text, typing := true, hasPoint := true
        pointPending := true }) rfl

/-- A point without a number in front of it is one behind a zero. -/
theorem IsIdle.typePoint (h : e.IsIdle) (hevaluated : e.evaluated = false) :
    e.typePoint =
      e.multiplyBehindAppended.typingAt e.multiplyBehindAppended.formula
        (Numeral.ofDigit 0 (by decide)).pushPoint := by
  unfold Editor.typePoint
  dsimp only
  rw [restartIfEvaluated_of hevaluated, h.hasPoint, h.typed]
  rw [if_neg (by decide), if_neg (by rw [h.typing]; exact Bool.false_ne_true)]
  generalize e.multiplyBehindAppended = e
  exact pushTyped_tokens (n := (Numeral.ofDigit 0 (by decide)).pushPoint)
    (e := { e with
      typed := ['0', '.'], typing := true, hasPoint := true, pointPending := true }) rfl

/-- A point starts afresh, if the formula was evaluated. -/
theorem typePoint_restartIfEvaluated (h : e.Invariant) :
    e.restartIfEvaluated.typePoint = e.typePoint := by
  unfold typePoint
  dsimp only
  rw [restartIfEvaluated_of (invariant_restartIfEvaluated h).2]

/-- **The point keeps the invariant.** -/
theorem invariant_typePoint (h : e.Invariant) : e.typePoint.Invariant := by
  obtain ⟨hinv, hevaluated⟩ := invariant_restartIfEvaluated h
  rw [← typePoint_restartIfEvaluated h]
  rcases hinv.number with ⟨base, n, hn⟩ | ⟨hidle, -⟩
  · rw [hn.typePoint]
    split
    · exact hinv
    · exact (hn.isReady hinv).invariant_typingAt (hn.appended hinv) _
  · obtain ⟨hready, happended⟩ := hidle.isReady_multiply hinv hevaluated
    rw [hidle.typePoint hevaluated]
    exact hready.invariant_typingAt happended _

/-! ## §2. Operators. -/

/-- The final signs are cut off, and all of them. -/
theorem withoutFinalSigns_cut (f : Formula) :
    ∃ g, f = withoutFinalSigns f ++ g ∧ (∀ t ∈ g, isSign t = true)
      ∧ (withoutFinalSigns f).getLast?.any isSign = false := by
  refine ⟨(f.reverse.takeWhile isSign).reverse, ?_, ?_, ?_⟩
  · unfold withoutFinalSigns
    rw [← List.reverse_append, List.takeWhile_append_dropWhile, List.reverse_reverse]
  · intro t ht
    exact List.all_eq_true.1 List.all_takeWhile t (List.mem_reverse.1 ht)
  · unfold withoutFinalSigns
    rw [List.getLast?_reverse]
    cases h : f.reverse.dropWhile isSign with
    | nil => rfl
    | cons t rest =>
      have ht := List.head?_dropWhile_not isSign f.reverse
      rw [h] at ht
      simpa using ht

/-- Nothing is cut off from a formula that does not end with a sign. -/
theorem withoutFinalSigns_of {f : Formula} (h : f.getLast?.any isSign = false) :
    withoutFinalSigns f = f := by
  obtain ⟨g, hcut, hg, -⟩ := withoutFinalSigns_cut f
  rcases List.eq_nil_or_concat g with rfl | ⟨g, t, rfl⟩
  · rw [List.append_nil] at hcut
    exact hcut.symm
  · have hlast : f.getLast? = some t := by
      rw [hcut, List.concat_eq_append, ← List.append_assoc, List.getLast?_concat]
    rw [hlast, Option.any_some, hg t (by simp)] at h
    cases h

theorem isOperator_of_isSign {t : Token} (h : isSign t = true) : ∃ op, t = .operator op := by
  cases t with
  | operator op => exact ⟨op, rfl⟩
  | _ => cases h

/-- Behind the end of a value an operator is appended. -/
theorem IsSettled.invariant_pushOperator (h : e.IsSettled) (happended : e.appended = .other)
    {op : Operator} (hop : op ≠ .factorial)
    (hfollow : (Token.operator op).mayFollow e.formula.getLast? = true) :
    { e with formula := e.formula ++ [.operator op] : Editor }.Invariant := by
  have hnoted : Appended.behind (some (.operator op)) = .other := by
    cases op <;> first | rfl | exact absurd rfl hop
  refine (h.push hfollow (Formula.deepen_operator op _) (fun h => nomatch h)).invariant ?_ ?_
  · show (e.formula ++ [Token.operator op]).getLast?.any Token.isNumber = false
    rw [List.getLast?_concat]
    rfl
  · show e.appended = Appended.behind (e.formula ++ [Token.operator op]).getLast?
    rw [List.getLast?_concat, happended, hnoted]

theorem mayFollow_value {last : Option Token} (h : last.any Token.endsValue = true) {op : Operator}
    (hop : op ≠ .factorial) : (Token.operator op).mayFollow last = true := by
  obtain ⟨t, rfl, ht⟩ := (Option.any_eq_true _ _).1 h
  cases op with
  | factorial => exact absurd rfl hop
  | minus => simp [Token.mayFollow, ht]
  | _ => exact ht

/-- At the start of the formula or of a bracket a minus may stand. -/
theorem mayFollow_minus {last : Option Token} (h : last = none ∨ last = some .leftBracket) :
    (Token.operator .minus).mayFollow last = true := by
  rcases h with rfl | rfl <;> rfl

/-- An operator that may follow the last token is appended. -/
theorem placeOperator_append {op : Operator} (hop : op ≠ .factorial)
    (hfollow : (Token.operator op).mayFollow e.formula.getLast? = true) :
    e.placeOperator op = { e with formula := e.formula ++ [.operator op] } := by
  -- No operator may follow one that joins two operands.
  have hjoint : ∀ u : Operator, u ≠ .factorial → e.formula.getLast? ≠ some (.operator u) := by
    intro u hu hlast
    rw [hlast] at hfollow
    cases u with
    | factorial => exact absurd rfl hu
    | _ => cases op <;> first | exact absurd rfl hop | cases hfollow
  -- Where no value ends, only a minus sign may follow.
  have hminus : e.formula.getLast?.any Token.endsValue = false → op = .minus := by
    intro hvalue
    cases op with
    | minus => rfl
    | factorial => exact absurd rfl hop
    | _ => exact absurd (hvalue.symm.trans hfollow) Bool.false_ne_true
  have hsign : e.formula.getLast?.any isSign = false := by
    cases hlast : e.formula.getLast? with
    | none => rfl
    | some t =>
      cases t with
      | operator u =>
        cases u with
        | plus => exact absurd hlast (hjoint _ (by decide))
        | minus => exact absurd hlast (hjoint _ (by decide))
        | _ => rfl
      | _ => rfl
  unfold placeOperator
  dsimp only
  rw [withoutFinalSigns_of hsign]
  split
  · next hlast => exact absurd hlast (hjoint _ (by decide))
  · next hlast => exact absurd hlast (hjoint _ (by decide))
  · next hlast => rw [if_pos (hminus (by rw [hlast]; rfl))]
  · next hlast => rw [if_pos (hminus (by rw [hlast]; rfl))]
  · rfl

/-- Behind a product or quotient sign a minus opens a bracket, and another operator
takes the place of the sign. -/
theorem IsSettled.invariant_behindTight (h : e.IsSettled) (happended : e.appended = .other)
    {base : Formula} {u : Operator} (hbase : e.formula = base ++ [.operator u])
    (hu : u.bindsTightly = true) {op : Operator} (hop : op ≠ .factorial) :
    (if op = .minus then
        { e with
          formula := e.formula ++ [.leftBracket, .operator op], openBrackets := e.openBrackets + 1 }
      else { e with formula := e.formula.dropLast ++ [.operator op] } : Editor).Invariant := by
  have hlast : e.formula.getLast? = some (.operator u) := by
    rw [hbase, List.getLast?_concat]
  split
  · next hminus =>
    have hopen := h.push (t := .leftBracket) (d := e.openBrackets + 1)
      (by rw [hlast]; cases u <;> first | rfl | cases hu) rfl (fun h => nomatch h)
    have hsign := hopen.invariant_pushOperator happended hop (by
      show (Token.operator op).mayFollow (e.formula ++ [Token.leftBracket]).getLast? = true
      rw [List.getLast?_concat, hminus]
      rfl)
    rw [show e.formula ++ [Token.leftBracket, .operator op]
        = e.formula ++ [.leftBracket] ++ [.operator op] by simp]
    exact hsign
  · have hdepth := h.depth
    rw [hbase] at hdepth
    have hfollow := (Formula.depth?_pop hdepth).1
    have hvalue : base.getLast?.any Token.endsValue = true := by
      cases u <;> first | exact hfollow | cases hu
    have hcut := h.dropOperators hbase (by
      intro t ht
      exact ⟨u, List.mem_singleton.1 ht⟩)
    rw [hbase, List.dropLast_concat]
    exact hcut.invariant_pushOperator happended hop (mayFollow_value hvalue hop)

/-- Where an operand begins, only a minus is appended. -/
theorem IsSettled.invariant_atStart (h : e.IsSettled) (happended : e.appended = .other)
    (hlast : e.formula.getLast? = none ∨ e.formula.getLast? = some .leftBracket) {op : Operator}
    (hop : op ≠ .factorial) :
    (if op = .minus then { e with formula := e.formula ++ [.operator op] }
      else { e with formula := e.formula } : Editor).Invariant := by
  split
  · next hminus =>
    refine h.invariant_pushOperator happended hop ?_
    rw [hminus]
    exact mayFollow_minus hlast
  · refine h.invariant ?_ ?_
    · rcases hlast with hlast | hlast
      · rw [hlast]
        rfl
      · rw [hlast]
        rfl
    · rw [happended]
      rcases hlast with hlast | hlast
      · rw [hlast]
        rfl
      · rw [hlast]
        rfl

/-- **An operator at the end of a settled formula.** -/
theorem IsSettled.invariant_placeOperator (h : e.IsSettled) (happended : e.appended = .other)
    {op : Operator} (hop : op ≠ .factorial) : (e.placeOperator op).Invariant := by
  obtain ⟨g, hcut, hg, hlast⟩ := withoutFinalSigns_cut e.formula
  have hbase := h.dropOperators hcut fun t ht => isOperator_of_isSign (hg t ht)
  unfold placeOperator
  dsimp only
  generalize withoutFinalSigns e.formula = base at hcut hlast hbase ⊢
  -- What stands in front of the final signs decides.
  split
  · next hl =>
    obtain ⟨b, hb⟩ := List.getLast?_eq_some_iff.1 hl
    exact hbase.invariant_behindTight happended hb rfl hop
  · next hl =>
    obtain ⟨b, hb⟩ := List.getLast?_eq_some_iff.1 hl
    exact hbase.invariant_behindTight happended hb rfl hop
  · next hl => exact hbase.invariant_atStart happended (.inl hl) hop
  · next hl => exact hbase.invariant_atStart happended (.inr hl) hop
  · next t htimes hdivide hbracket hl =>
    refine hbase.invariant_pushOperator happended hop (mayFollow_value ?_ hop)
    have hpoint := hbase.idle.last
    show base.getLast?.any Token.endsValue = true
    rw [hl] at hlast ⊢
    cases t with
    | operator op =>
      cases op with
      | times => exact absurd rfl htimes
      | divide => exact absurd rfl hdivide
      | factorial => rfl
      | _ => cases hlast
    | leftBracket => exact absurd rfl hbracket
    | point => exact absurd hl hpoint
    | _ => rfl

/-- **The factorial key keeps the invariant.** -/
theorem invariant_typeFactorial (h : e.Invariant) : e.typeFactorial.Invariant := by
  unfold typeFactorial
  split
  · exact h
  · next hskip =>
    rcases h.number with ⟨base, n, hn⟩ | ⟨hidle, -⟩
    · have hformula : e.closeNumber.formula = base ++ [Token.ofDecimal n.value] := by
        rw [hn.closeNumber]
      have hsign := (isSettled_closeNumber h).push (t := .operator .factorial)
        (d := e.closeNumber.openBrackets) (by rw [hformula, List.getLast?_concat]; rfl) rfl
        (fun h => nomatch h)
      exact hsign.invariant_note List.getLast?_concat rfl
    · -- Without a number being typed the key is ignored.
      exact absurd (by simp [hidle.typing]) hskip

/-- **Every operator key keeps the invariant.** -/
theorem invariant_typeOperator (h : e.Invariant) (op : Operator) :
    (e.typeOperator op).Invariant := by
  unfold typeOperator
  split
  · exact invariant_typeFactorial h
  · next hop => exact ((isSettled_closeNumber h).note .other).invariant_placeOperator rfl hop

/-! ## §3. Constants and brackets. -/

/-- **A constant keeps the invariant.** -/
theorem invariant_typeConstant (h : e.Invariant) (c : Constant) : (e.typeConstant c).Invariant := by
  obtain ⟨hready, hidle⟩ := (isSettled_closeNumber h).isReady_multiply
  have hpush := hready.push hidle (t := .constant c) rfl rfl
  exact hpush.invariant_note List.getLast?_concat rfl

/-- **A left bracket keeps the invariant.** -/
theorem invariant_typeLeftBracket (h : e.Invariant) : e.typeLeftBracket.Invariant := by
  obtain ⟨hready, hidle⟩ := (isSettled_closeNumber h).isReady_multiply
  have hpush := hready.push hidle (t := .leftBracket) rfl rfl
  exact hpush.invariant_note List.getLast?_concat rfl

/-- **A right bracket keeps the invariant.** -/
theorem invariant_typeRightBracket (h : e.Invariant) : e.typeRightBracket.Invariant := by
  unfold typeRightBracket
  split
  · exact h
  · next hopen =>
    have hsame := openBrackets_closeNumber (h.not_evaluated hopen)
    have hpush := (isSettled_closeNumber h).pushRightBracket (hsame ▸ hopen)
    exact hpush.invariant_note List.getLast?_concat rfl

end PocketCalc.Editor
