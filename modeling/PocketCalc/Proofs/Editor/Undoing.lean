/-
  PocketCalc.Proofs.Editor.Undoing
  ────────────────────────────────
  **THE ERASE KEY TAKES BACK WHAT A KEY APPENDED.**

  The erase key does not know which key was pressed before it.  It takes the last token
  away, the implied product sign of that token too, and reads everything else off the
  token that is then the last one.  The invariant makes this enough: in front of a new
  token the editor stands as if its last number had just been closed, and from there it
  is brought in step again to the state that it had.

      resync_closeNumber    the state is found again
      erase_withToken       what erasing does behind a token
      erase_typingAt        what erasing does behind a digit
-/
import PocketCalc.Proofs.Editor.Erasing
import PocketCalc.Session.Action

namespace PocketCalc

namespace Editor

variable {e : Editor}

/-! ## §1. Keys that can be taken back. -/

/-- No number is being typed, or one in its plain text. -/
def IsPlain (e : Editor) : Prop :=
  e.typing = false ∨ ∃ v, Decimal.readTyped e.typed = some v ∧ e.typed = v.plain

/-- **The keys that append and can be taken back** by one press of the erase key.  A digit
would replace a lone zero, and a key that closes a number would forget how it was
typed. -/
def CanUndo (e : Editor) : Action → Prop
  | .digit d => d ≤ 9 ∧ e.typed ≠ ['0']
  | .point => e.typing = true ∧ '.' ∉ e.typed
  | .constant _ => e.IsPlain
  | .leftBracket => e.IsPlain
  | .rightBracket => e.IsPlain ∧ 0 < e.openBrackets
  | .operator .factorial => e.IsPlain ∧ e.typeFactorial ≠ e
  | .operator op =>
      e.IsPlain ∧ (e.formula.getLast?.any Token.endsValue = true
        ∨ op = .minus ∧ (e.formula = [] ∨ e.formula.getLast? = some .leftBracket))
  | _ => False

/-! ## §2. Implied product signs. -/

theorem dropImpliedTimes_note (e : Editor) (a : Appended) :
    (e.note a).dropImpliedTimes = e.dropImpliedTimes.note a := by
  unfold dropImpliedTimes note
  dsimp only
  split <;> rfl

/-- No implied product sign is the last token, so none is taken away. -/
theorem dropImpliedTimes_of (h : AreImplied e.impliedTimes e.formula) :
    e.dropImpliedTimes = e := by
  have hlt : ∀ i ∈ e.impliedTimes, i + 1 < e.formula.length := fun i hi => (h.implied i hi).succ_lt
  have hfilter : e.impliedTimes.filter (· < e.formula.length) = e.impliedTimes :=
    List.filter_eq_self.2 fun i hi => decide_eq_true (Nat.lt_of_succ_lt (hlt i hi))
  unfold dropImpliedTimes
  dsimp only
  rw [hfilter, if_neg]
  rintro ⟨hpos, hlast⟩
  have := hlt _ (List.mem_of_getLast? hlast)
  omega

/-- An implied product sign is taken away again. -/
theorem dropImpliedTimes_pushImpliedTimes (h : AreImplied e.impliedTimes e.formula) :
    e.pushImpliedTimes.dropImpliedTimes = e := by
  have hfilter : (e.impliedTimes ++ [e.formula.length]).filter (· < e.formula.length + 1)
      = e.impliedTimes ++ [e.formula.length] := by
    refine List.filter_eq_self.2 fun i hi => decide_eq_true ?_
    rcases List.mem_append.1 hi with hi | hi
    · have := (h.implied i hi).succ_lt
      omega
    · rw [List.mem_singleton.1 hi]
      exact Nat.lt_succ_self _
  unfold dropImpliedTimes pushImpliedTimes push pop
  simp only [List.length_append, List.length_singleton, hfilter, List.getLast?_concat,
    List.dropLast_concat]
  rw [if_pos ⟨by omega, by simp⟩]

theorem dropImpliedTimes_multiplyBehindValue (h : AreImplied e.impliedTimes e.formula) :
    e.multiplyBehindValue.dropImpliedTimes = e := by
  unfold multiplyBehindValue
  split
  · exact dropImpliedTimes_pushImpliedTimes h
  · exact dropImpliedTimes_of h

theorem dropImpliedTimes_multiplyBehindAppended (h : AreImplied e.impliedTimes e.formula) :
    e.multiplyBehindAppended.dropImpliedTimes = e.note .other := by
  unfold multiplyBehindAppended
  split
  · next hother =>
    rw [dropImpliedTimes_of h, note, ← hother]
  · rw [dropImpliedTimes_note, dropImpliedTimes_pushImpliedTimes h]

/-! ## §3. The state is found again. -/

theorem IsTyping.typingAt {base : Formula} {n : Numeral} (h : e.IsTyping base n) :
    e.typingAt base n = e := by
  unfold Editor.typingAt
  rw [← h.formula, ← h.typed, ← h.typing, ← h.hasPoint, ← h.pointPending]

/-- Behind anything but a number, the last token is noted. -/
theorem resync_of (h : e.formula.getLast?.any Token.isNumber = false)
    (happended : e.appended = Appended.behind e.formula.getLast?) : (e.note .other).resync = e := by
  have hsame : e.note (Appended.behind e.formula.getLast?) = e := by
    rw [← happended]
    rfl
  have hlast : (e.note .other).formula.getLast? = e.formula.getLast? := rfl
  unfold resync
  rw [hlast]
  cases hl : e.formula.getLast? with
  | none =>
    rw [hl] at hsame
    exact hsame
  | some t =>
    rw [hl] at h hsame
    cases t with
    | number v => cases h
    | operator op => cases op <;> exact hsame
    | _ => exact hsame

/-- A number in its plain text has no pending point. -/
theorem IsTyping.plain_text {base : Formula} {n : Numeral} (h : e.IsTyping base n)
    (hplain : e.IsPlain) : n.text = n.value.normalized.plain ∧ n.pending = false := by
  rcases hplain with hidle | ⟨v, hread, htext⟩
  · exact absurd (hidle.symm.trans h.typing) Bool.false_ne_true
  · rw [h.typed] at hread htext
    obtain rfl : n.value.normalized = v := Option.some.inj (n.readTyped_text.symm.trans hread)
    refine ⟨htext, ?_⟩
    rw [← n.getLast?_text_eq, htext, ← Numeral.text_ofDecimal, Numeral.getLast?_text_eq,
      Numeral.pending_ofDecimal]

/-- **Once its last number is closed, the editor is brought in step to the state that it
had.** -/
theorem resync_closeNumber (h : e.Invariant) (hevaluated : e.evaluated = false)
    (hplain : e.IsPlain) : (e.closeNumber.note .other).resync = e := by
  rcases h.number with ⟨base, n, hn⟩ | ⟨hidle, hlast⟩
  · -- The number is typed on from its plain text, which is what was typed.
    have htext := (hn.plain_text hplain).1
    have happended := hn.appended h
    have hclose : (e.closeNumber.note .other).formula.getLast? = some (Token.ofDecimal n.value) := by
      rw [hn.closeNumber]
      exact List.getLast?_concat
    unfold resync
    rw [hclose]
    show (e.closeNumber.note .other).pop.resume n.value.normalized.plain = e
    rw [← htext, resume_text, hn.closeNumber]
    refine Eq.trans ?_ hn.typingAt
    unfold Editor.typingAt note pop
    dsimp only
    rw [List.dropLast_concat, ← happended]
  · rw [hidle.closeNumber (.inl hevaluated), ← hevaluated]
    exact resync_of (hlast hevaluated) (h.appended hevaluated)

/-! ## §4. Erasing a token. -/

/-- The editor behind one more token, with the open brackets and the note that go with
it. -/
def withToken (e : Editor) (t : Token) (d : Nat) (a : Appended) : Editor :=
  { e with formula := e.formula ++ [t], openBrackets := d, appended := a }

theorem IsIdle.wiped (h : e.IsIdle) (hevaluated : e.evaluated = false) :
    e.wiped = e.note .other := by
  unfold Editor.wiped note
  rw [h.typed, h.typing, h.hasPoint, hevaluated]

/-- **Behind a token that is no number**, erasing takes it away, and its implied product
sign. -/
theorem erase_withToken (hidle : e.IsIdle) (hevaluated : e.evaluated = false) {t : Token} {d : Nat}
    (ht : t.isNumber = false) (hd : t.deepen e.openBrackets = some d) (a : Appended) :
    (e.withToken t d a).erase = (e.dropImpliedTimes.note .other).resync := by
  have hwiped : (e.withToken t d a).wiped = e.withToken t d .other := by
    show e.wiped.withToken t d .other = _
    rw [hidle.wiped hevaluated]
    rfl
  have hremove : (e.withToken t d .other).removeToken = e.note .other :=
    removeToken_concat (e := e.withToken t d .other) rfl hd
  have hlast : (e.withToken t d a).formula.getLast? = some t := List.getLast?_concat
  rw [erase_eq (e := e.withToken t d a) hidle.pointPending, hlast, hwiped, hremove,
    dropImpliedTimes_note]
  cases t with
  | number v => cases ht
  | _ => rfl

/-- **The last character of a number** is taken away.  If nothing but a sign is left, the
number goes, and its implied product sign; otherwise it is typed on. -/
theorem erase_typingAt (e : Editor) (base : Formula) {n : Numeral} (hpending : n.pending = false) :
    (e.typingAt base n).erase =
      let rest : Editor := { e.wiped with formula := base, pointPending := false }
      if n.text.dropLast.isEmpty || n.text.dropLast == ['-'] then rest.dropImpliedTimes.resync
      else rest.resume n.text.dropLast := by
  have hformula : (e.typingAt base n).formula = base ++ [Token.ofDecimal n.value] := by
    show base ++ n.tokens = _
    rw [Numeral.tokens, hpending]
    rfl
  have hlast : (e.typingAt base n).formula.getLast? = some (Token.ofDecimal n.value) := by
    rw [hformula, List.getLast?_concat]
  have hshort : (e.typingAt base n).shortened n.value.normalized = n.text.dropLast := by
    unfold shortened
    show (if true && !n.text.isEmpty then n.text else _).dropLast = _
    simp [n.text_ne_nil]
  have hrest : (e.typingAt base n).wiped.pop
      = { e.wiped with formula := base, pointPending := false } := by
    unfold pop
    rw [show (e.typingAt base n).wiped.formula = base ++ [Token.ofDecimal n.value] from hformula,
      List.dropLast_concat, ← hpending]
    rfl
  rw [erase_eq hpending, hlast]
  show (if _ then _ else _) = _
  rw [hshort, hrest]

/-- A digit behind a number is taken away again. -/
theorem IsTyping.erase_pushDigit {base : Formula} {n : Numeral} (h : e.IsTyping base n)
    (happended : e.appended = .other) {d : Nat} (hd : d ≤ 9) :
    (e.typingAt base (n.pushDigit d hd)).erase = e := by
  have hshort : (n.pushDigit d hd).text.dropLast = n.text := by
    rw [n.text_pushDigit, List.dropLast_concat]
  rw [erase_typingAt e base (n.pending_pushDigit d hd), hshort]
  dsimp only
  rw [if_neg (by simp [n.text_ne_nil, n.text_ne_minus]), resume_text]
  refine Eq.trans ?_ h.typingAt
  unfold Editor.typingAt wiped
  rw [← happended, ← h.evaluated]

/-- A number of one digit is taken away, and its implied product sign. -/
theorem IsIdle.erase_ofDigit (h : e.IsIdle) (hevaluated : e.evaluated = false) {d : Nat}
    (hd : d ≤ 9) :
    (e.typingAt e.formula (.ofDigit d hd)).erase = (e.dropImpliedTimes.note .other).resync := by
  have hrest : ({ e.wiped with formula := e.formula, pointPending := false } : Editor)
      = e.note .other := by
    rw [h.wiped hevaluated, ← h.pointPending]
    rfl
  rw [erase_typingAt e e.formula (n := .ofDigit d hd) rfl, hrest, ← dropImpliedTimes_note]
  rfl

variable (h : e.Invariant) (hevaluated : e.evaluated = false)

include h hevaluated

/-- The token of an operand, with its product sign. -/
theorem erase_operand (hplain : e.IsPlain) {t : Token} {d : Nat} (ht : t.isNumber = false)
    (hd : t.deepen e.closeNumber.multiplyBehindValue.openBrackets = some d) (a : Appended) :
    (e.closeNumber.multiplyBehindValue.withToken t d a).erase = e := by
  have hclosed := isSettled_closeNumber h
  obtain ⟨hready, hidle⟩ := hclosed.isReady_multiply
  rw [erase_withToken hidle hready.evaluated ht hd a,
    dropImpliedTimes_multiplyBehindValue hclosed.implied, resync_closeNumber h hevaluated hplain]

/-- The token of an operator or of a right bracket. -/
theorem erase_sign (hplain : e.IsPlain) {t : Token} {d : Nat} (ht : t.isNumber = false)
    (hd : t.deepen e.closeNumber.openBrackets = some d) (a : Appended) :
    (e.closeNumber.withToken t d a).erase = e := by
  have hclosed := isSettled_closeNumber h
  rw [erase_withToken hclosed.idle hclosed.evaluated ht hd a, dropImpliedTimes_of hclosed.implied,
    resync_closeNumber h hevaluated hplain]

/-- A number in its plain text is closed without losing a token. -/
theorem formula_closeNumber (hplain : e.IsPlain) : e.closeNumber.formula = e.formula := by
  rcases h.number with ⟨base, n, hn⟩ | ⟨hidle, -⟩
  · rw [hn.closeNumber, hn.formula, Numeral.tokens, (hn.plain_text hplain).2]
    rfl
  · rw [hidle.closeNumber (.inl hevaluated)]

/-! ## §5. Key by key. -/

theorem erase_typeConstant (hplain : e.IsPlain) (c : Constant) : (e.typeConstant c).erase = e :=
  erase_operand h hevaluated hplain rfl rfl .constant

theorem erase_typeLeftBracket (hplain : e.IsPlain) : e.typeLeftBracket.erase = e :=
  erase_operand h hevaluated hplain rfl rfl .other

theorem erase_typeRightBracket (hplain : e.IsPlain) (hopen : 0 < e.openBrackets) :
    e.typeRightBracket.erase = e := by
  have hopen' : e.closeNumber.openBrackets ≠ 0 := by
    rw [openBrackets_closeNumber hevaluated]
    omega
  unfold typeRightBracket
  rw [if_neg (by omega)]
  exact erase_sign h hevaluated hplain rfl (Formula.deepen_rightBracket hopen') .rightBracket

/-- A factorial key that is not ignored. -/
theorem erase_typeFactorial (hplain : e.IsPlain) (haccepted : e.typeFactorial ≠ e) :
    e.typeFactorial.erase = e := by
  unfold typeFactorial at haccepted ⊢
  split at haccepted
  · exact absurd rfl haccepted
  · next hskip =>
    rw [if_neg hskip]
    exact erase_sign h hevaluated hplain rfl rfl .factorial

theorem erase_typeOperator (hplain : e.IsPlain) {op : Operator} (hop : op ≠ .factorial)
    (hfollow : (Token.operator op).mayFollow e.formula.getLast? = true) :
    (e.typeOperator op).erase = e := by
  have hfollow' : (Token.operator op).mayFollow (e.closeNumber.note .other).formula.getLast?
      = true := by
    show (Token.operator op).mayFollow e.closeNumber.formula.getLast? = true
    rwa [formula_closeNumber h hevaluated hplain]
  unfold typeOperator
  rw [if_neg hop, placeOperator_append hop hfollow']
  exact erase_sign h hevaluated hplain rfl (Formula.deepen_operator op _) .other

/-- A point is erased from the number that it was typed behind. -/
theorem erase_typePoint (htyping : e.typing = true) (hpoint : '.' ∉ e.typed) :
    e.typePoint.erase = e := by
  rcases h.number with ⟨base, n, hn⟩ | ⟨hidle, -⟩
  · have hnone : n.hasPoint = false := by
      rw [← n.contains_text, ← hn.typed]
      simpa using hpoint
    have hsettled : n.pushPoint.settled = n := by
      refine Numeral.text_injective ?_
      rw [← n.pushPoint.text_settled, n.text_pushPoint hnone]
      simp
    have happended := hn.appended h
    have hn' := isTyping_typingAt hevaluated base n.pushPoint
    rw [hn.typePoint, if_neg (by rw [hnone]; exact Bool.false_ne_true),
      hn'.erase_of_pending happended rfl, hsettled]
    exact hn.typingAt
  · exact absurd (hidle.typing.symm.trans htyping) Bool.false_ne_true

/-- A digit is erased from the number that it was typed behind, or it was the only one. -/
theorem erase_typeDigit {d : Nat} (hd : d ≤ 9) (hzero : e.typed ≠ ['0']) :
    (e.typeDigit d).erase = e := by
  rcases h.number with ⟨base, n, hn⟩ | ⟨hidle, -⟩
  · have happended := hn.appended h
    have hpush : n.typeDigit d hd = n.pushDigit d hd := if_neg (hn.typed ▸ hzero)
    rw [hn.typeDigit happended hd, hpush]
    exact hn.erase_pushDigit happended hd
  · -- The number of one digit goes, and then its product sign.
    have hready := (hidle.isReady_multiply h hevaluated).1
    rw [hidle.typeDigit hevaluated hd,
      hidle.multiplyBehindAppended.erase_ofDigit hready.evaluated hd,
      dropImpliedTimes_multiplyBehindAppended h.implied]
    have hsame := resync_closeNumber h hevaluated (.inl hidle.typing)
    rwa [hidle.closeNumber (.inl hevaluated), ← hevaluated] at hsame

omit h hevaluated in
/-- An operator that can be taken back may follow the last token. -/
theorem CanUndo.mayFollow {op : Operator} (h : e.CanUndo (.operator op)) (hop : op ≠ .factorial) :
    e.IsPlain ∧ (Token.operator op).mayFollow e.formula.getLast? = true := by
  have h : e.IsPlain ∧ (e.formula.getLast?.any Token.endsValue = true
      ∨ op = .minus ∧ (e.formula = [] ∨ e.formula.getLast? = some .leftBracket)) := by
    cases op with
    | factorial => exact absurd rfl hop
    | _ => exact h
  obtain ⟨hplain, hvalue | ⟨rfl, hstart⟩⟩ := h
  · exact ⟨hplain, mayFollow_value hvalue hop⟩
  · exact ⟨hplain, mayFollow_minus (hstart.imp_left List.getLast?_eq_none_iff.2)⟩

end Editor

end PocketCalc
