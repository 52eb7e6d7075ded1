/-
  PocketCalc.Proofs.Editor.Invariant
  ──────────────────────────────────
  **WHAT ALWAYS HOLDS OF THE EDITOR.**

  The formula is one that can be typed, the counter counts its open brackets, and
  the positions kept are those of implied product signs.  A number is either being
  typed, and then the text typed is a numeral and the formula ends with its value,
  or it is not, and then nothing of one is left over.

  Every key passes through one of two states, from which the invariant is reached
  again by one more token:

      IsSettled    no number is being typed
      IsReady      the formula stands in front of an operand
-/
import PocketCalc.Proofs.Decimal.Numeral
import PocketCalc.Proofs.Editor.Implied
import PocketCalc.Editor.Evaluating

namespace PocketCalc

/-! ## §1. The invariant. -/

/-- The tokens of a numeral: its value, and its point while the places are
missing. -/
def Numeral.tokens (n : Numeral) : Formula :=
  Token.ofDecimal n.value :: if n.pending then [.point] else []

/-- A pending point is a token of its own. -/
theorem Numeral.length_tokens (n : Numeral) : n.tokens.length = if n.pending then 2 else 1 := by
  unfold tokens
  split <;> rfl

/-- A formula that ends with the tokens of a numeral is not shorter than they are. -/
theorem Numeral.length_tokens_le (n : Numeral) (base : Formula) :
    (if n.pending then 2 else 1) ≤ (base ++ n.tokens).length := by
  rw [← n.length_tokens, List.length_append]
  exact Nat.le_add_left _ _

/-- In front of the tokens of a numeral stands the rest of the formula. -/
theorem Numeral.take_tokens (n : Numeral) (base : Formula) :
    (base ++ n.tokens).take ((base ++ n.tokens).length - if n.pending then 2 else 1) = base := by
  rw [← n.length_tokens, List.length_append, Nat.add_sub_cancel, List.take_left]

/-- What the editor has to note when the formula ends with the token. -/
def Appended.behind : Option Token → Appended
  | some (.constant _) => .constant
  | some .rightBracket => .rightBracket
  | some (.operator .factorial) => .factorial
  | _ => .other

/-- Nothing is noted behind a number, and behind everything that ends no value. -/
theorem Appended.behind_eq_other_iff (last : Option Token) :
    Appended.behind last = .other ↔
      last.any Token.isNumber = true ∨ last.any Token.endsValue = false := by
  cases last with
  | none => decide
  | some t =>
    cases t with
    | operator op => cases op <;> decide
    | constant c => cases c <;> decide
    | number v => simp [behind, Token.isNumber]
    | _ => decide

namespace Editor

/-- The number being typed is `n`, behind the formula `base`. -/
structure IsTyping (e : Editor) (base : Formula) (n : Numeral) : Prop where
  typing : e.typing = true
  evaluated : e.evaluated = false
  typed : e.typed = n.text
  hasPoint : e.hasPoint = n.hasPoint
  pointPending : e.pointPending = n.pending
  formula : e.formula = base ++ n.tokens

/-- The editor with the number `n` being typed, behind the formula `base`. -/
def typingAt (e : Editor) (base : Formula) (n : Numeral) : Editor :=
  { e with
    formula := base ++ n.tokens
    typed := n.text, typing := true, hasPoint := n.hasPoint, pointPending := n.pending }

theorem isTyping_typingAt {e : Editor} (h : e.evaluated = false) (base : Formula) (n : Numeral) :
    (e.typingAt base n).IsTyping base n :=
  ⟨rfl, h, rfl, rfl, rfl, rfl⟩

/-- No number is being typed. -/
structure IsIdle (e : Editor) : Prop where
  typing : e.typing = false
  typed : e.typed = []
  hasPoint : e.hasPoint = false
  pointPending : e.pointPending = false
  last : e.formula.getLast? ≠ some .point

/-- **The invariant of the editor.** -/
structure Invariant (e : Editor) : Prop where
  depth : e.formula.depth? = some e.openBrackets
  implied : AreImplied e.impliedTimes e.formula
  number : (∃ base n, e.IsTyping base n) ∨
    (e.IsIdle ∧ (e.evaluated = false → e.formula.getLast?.any Token.isNumber = false))
  appended : e.evaluated = false → e.appended = Appended.behind e.formula.getLast?
  closed : e.evaluated = true → e.openBrackets = 0

/-- No number is being typed, whatever the last token is. -/
structure IsSettled (e : Editor) : Prop where
  idle : e.IsIdle
  evaluated : e.evaluated = false
  depth : e.formula.depth? = some e.openBrackets
  implied : AreImplied e.impliedTimes e.formula

/-- The formula stands in front of an operand. -/
structure IsReady (e : Editor) : Prop where
  evaluated : e.evaluated = false
  depth : e.formula.depth? = some e.openBrackets
  awaits : e.formula.getLast?.all Token.awaitsOperand = true
  implied : ∀ t, t.beginsOperand = true → AreImplied e.impliedTimes (e.formula ++ [t])

/-- A formula with open brackets was not evaluated. -/
theorem Invariant.not_evaluated {e : Editor} (h : e.Invariant) (hopen : e.openBrackets ≠ 0) :
    e.evaluated = false := by
  cases hevaluated : e.evaluated with
  | false => rfl
  | true => exact absurd (h.closed hevaluated) hopen

/-! ## §2. In front of an operand. -/

theorem mayFollow_of_begins {t : Token} (ht : t.beginsOperand = true) (last : Option Token) :
    t.mayFollow last = last.all Token.awaitsOperand := by
  cases t <;> first | rfl | cases ht

/-- The operand taken away from the end of the formula. -/
theorem isReady_of_operand {e : Editor} {t : Token} {d : Nat} (ht : t.beginsOperand = true)
    (hd : t.deepen e.openBrackets = some d) (hevaluated : e.evaluated = false)
    (hdepth : (e.formula ++ [t]).depth? = some d)
    (himplied : AreImplied e.impliedTimes (e.formula ++ [t])) : e.IsReady := by
  obtain ⟨hfollow, d', hd', hdeep⟩ := Formula.depth?_pop hdepth
  rw [mayFollow_of_begins ht] at hfollow
  refine ⟨hevaluated, ?_, hfollow, fun u hu => himplied.exchange hu⟩
  have hsame : d' = e.openBrackets := by
    cases t with
    | leftBracket =>
      cases hd
      exact Nat.succ.inj (Option.some.inj hdeep)
    | number v =>
      cases hd
      exact Option.some.inj hdeep
    | constant c =>
      cases hd
      exact Option.some.inj hdeep
    | _ => cases ht
  rw [← hsame]
  exact hd'

namespace IsReady

variable {e : Editor}

/-- The formula behind an operand of one token. -/
theorem depth?_push (h : e.IsReady) {t : Token} {d : Nat} (ht : t.beginsOperand = true)
    (hd : t.deepen e.openBrackets = some d) : (e.formula ++ [t]).depth? = some d := by
  refine Formula.depth?_push h.depth ?_ hd
  rw [mayFollow_of_begins ht]
  exact h.awaits

/-- **A number is typed.** -/
theorem invariant_typingAt (h : e.IsReady) (happended : e.appended = .other) (n : Numeral) :
    (e.typingAt e.formula n).Invariant := by
  have hnumber : (e.formula ++ [Token.ofDecimal n.value]).depth? = some e.openBrackets :=
    h.depth?_push rfl rfl
  have htokens : (e.typingAt e.formula n).formula = e.formula ++ [Token.ofDecimal n.value]
      ++ if n.pending then [.point] else [] := by
    unfold typingAt Numeral.tokens
    rw [List.append_cons]
  constructor
  · show _ = some e.openBrackets
    rw [htokens]
    cases n.pending with
    | false => simpa using hnumber
    | true => exact Formula.depth?_push hnumber (by rw [List.getLast?_concat]; rfl) rfl
  · rw [htokens]
    exact (h.implied _ rfl).append _
  · exact .inl ⟨e.formula, n, isTyping_typingAt h.evaluated e.formula n⟩
  · intro _
    show e.appended = _
    rw [happended, htokens]
    cases n.pending with
    | false => simp [Appended.behind, Token.ofDecimal]
    | true => simp [Appended.behind]
  · intro hevaluated
    exact absurd (h.evaluated.symm.trans hevaluated) Bool.false_ne_true

end IsReady

/-- In front of the number that is being typed. -/
theorem IsTyping.isReady {e : Editor} {base : Formula} {n : Numeral} (h : e.IsTyping base n)
    (hinv : e.Invariant) : { e with formula := base }.IsReady := by
  have htokens : e.formula = base ++ [Token.ofDecimal n.value]
      ++ if n.pending then [.point] else [] := by
    rw [h.formula, Numeral.tokens, List.append_cons]
  have hdepth := hinv.depth
  have himplied := hinv.implied
  rw [htokens] at hdepth himplied
  have hpoint : ∀ t ∈ (if n.pending then [Token.point] else []), t.beginsOperand = false := by
    intro t ht
    split at ht
    · rw [List.mem_singleton.1 ht]
      rfl
    · cases ht
  refine isReady_of_operand (t := Token.ofDecimal n.value) rfl rfl h.evaluated ?_
    (himplied.dropAll hpoint)
  show (base ++ [Token.ofDecimal n.value]).depth? = some e.openBrackets
  cases hn : n.pending with
  | false => simpa [hn] using hdepth
  | true =>
    rw [hn] at hdepth
    obtain ⟨-, d, hd, hdeep⟩ := Formula.depth?_pop hdepth
    cases hdeep
    exact hd

/-! ## §3. The number is closed. -/

theorem invariant_restart (e : Editor) : e.restart.Invariant where
  depth := rfl
  implied := AreImplied.nil _
  number := .inr ⟨⟨rfl, rfl, rfl, rfl, fun h => nomatch h⟩, fun _ => rfl⟩
  appended := fun _ => rfl
  closed := fun _ => rfl

theorem invariant_restartIfEvaluated {e : Editor} (h : e.Invariant) :
    e.restartIfEvaluated.Invariant ∧ e.restartIfEvaluated.evaluated = false := by
  unfold restartIfEvaluated
  cases hevaluated : e.evaluated with
  | false => exact ⟨h, hevaluated⟩
  | true => exact ⟨invariant_restart e, rfl⟩

/-- Without its pending point, the formula ends with the number being typed. -/
theorem IsTyping.formula_withoutFinalPoint {e : Editor} {base : Formula} {n : Numeral}
    (h : e.IsTyping base n) : withoutFinalPoint e.formula = base ++ [Token.ofDecimal n.value] := by
  rw [h.formula, Numeral.tokens]
  cases n.pending with
  | false =>
    have hlast : (base ++ [Token.ofDecimal n.value]).getLast? ≠ some .point := by
      rw [List.getLast?_concat]
      exact fun hpoint => nomatch hpoint
    exact if_neg hlast
  | true =>
    show withoutFinalPoint (base ++ [Token.ofDecimal n.value, .point]) = _
    rw [List.append_cons, withoutFinalPoint, if_pos List.getLast?_concat, List.dropLast_concat]

theorem IsTyping.formula_of_not_pending {e : Editor} {base : Formula} {n : Numeral}
    (h : e.IsTyping base n) (hpending : e.pointPending = false) :
    e.formula = base ++ [Token.ofDecimal n.value] := by
  rw [h.formula, Numeral.tokens, ← h.pointPending, hpending]
  rfl

/-- The point that waits for its places is dropped. -/
theorem IsTyping.dropPendingPoint {e : Editor} {base : Formula} {n : Numeral}
    (h : e.IsTyping base n) :
    e.dropPendingPoint =
      { e with pointPending := false, formula := base ++ [Token.ofDecimal n.value] } := by
  unfold Editor.dropPendingPoint
  cases hpending : e.pointPending with
  | true =>
    rw [if_pos rfl, h.formula_withoutFinalPoint]
  | false =>
    rw [if_neg Bool.false_ne_true, ← h.formula_of_not_pending hpending, ← hpending]

theorem IsIdle.dropPendingPoint {e : Editor} (h : e.IsIdle) : e.dropPendingPoint = e := by
  unfold Editor.dropPendingPoint
  rw [h.pointPending]
  rfl

/-- Unless the formula goes on from a result, it stays, and only the number being
typed ends. -/
theorem closeNumber_eq {e : Editor} (h : e.evaluated = false ∨ e.lastResult = none) :
    e.closeNumber =
      { { e with evaluated := false }.dropPendingPoint with
        hasPoint := false, typing := false, typed := [] } := by
  unfold closeNumber
  rcases h with h | h
  · rw [h]
  · rw [h]
    cases e.evaluated <;> rfl

theorem IsTyping.closeNumber {e : Editor} {base : Formula} {n : Numeral} (h : e.IsTyping base n) :
    e.closeNumber =
      { e with
        formula := base ++ [Token.ofDecimal n.value]
        typed := [], typing := false, hasPoint := false, pointPending := false } := by
  have hsame : { e with evaluated := false } = e := by
    rw [← h.evaluated]
  rw [closeNumber_eq (.inl h.evaluated), hsame, h.dropPendingPoint]

theorem IsIdle.closeNumber {e : Editor} (h : e.IsIdle)
    (hresult : e.evaluated = false ∨ e.lastResult = none) :
    e.closeNumber = { e with evaluated := false } := by
  have hidle : { e with evaluated := false }.IsIdle :=
    ⟨h.typing, h.typed, h.hasPoint, h.pointPending, h.last⟩
  rw [closeNumber_eq hresult, hidle.dropPendingPoint]
  show _ = { e with
    evaluated := false, hasPoint := e.hasPoint, typing := e.typing, typed := e.typed }
  rw [h.typing, h.typed, h.hasPoint]

/-- A formula that was not evaluated keeps its open brackets. -/
theorem openBrackets_closeNumber {e : Editor} (h : e.evaluated = false) :
    e.closeNumber.openBrackets = e.openBrackets := by
  rw [closeNumber_eq (.inl h)]
  show { e with evaluated := false }.dropPendingPoint.openBrackets = e.openBrackets
  unfold Editor.dropPendingPoint
  split <;> rfl

theorem closeNumber_of_result {e : Editor} {r : Decimal} (hevaluated : e.evaluated = true)
    (hresult : e.lastResult = some r) :
    e.closeNumber = e.restart.push (Token.ofDecimal r) := by
  unfold closeNumber
  rw [hevaluated, hresult]
  rfl

/-- **Closing the number settles the editor.** -/
theorem isSettled_closeNumber {e : Editor} (h : e.Invariant) : e.closeNumber.IsSettled := by
  rcases h.number with ⟨base, n, hn⟩ | ⟨hidle, -⟩
  · rw [hn.closeNumber]
    have hready := hn.isReady h
    refine ⟨⟨rfl, rfl, rfl, rfl, ?_⟩, hn.evaluated, hready.depth?_push rfl rfl,
      hready.implied _ rfl⟩
    show (base ++ [Token.ofDecimal n.value]).getLast? ≠ some .point
    rw [List.getLast?_concat]
    exact fun h => nomatch h
  · by_cases hresult : e.evaluated = false ∨ e.lastResult = none
    · rw [hidle.closeNumber hresult]
      exact ⟨⟨hidle.typing, hidle.typed, hidle.hasPoint, hidle.pointPending, hidle.last⟩, rfl,
        h.depth, h.implied⟩
    · -- The formula goes on from the last result, which is the only token.
      rw [not_or, Bool.not_eq_false] at hresult
      obtain ⟨r, hr⟩ := Option.ne_none_iff_exists'.1 hresult.2
      rw [closeNumber_of_result hresult.1 hr]
      exact ⟨⟨rfl, rfl, rfl, rfl, fun h => nomatch h⟩, rfl, rfl, AreImplied.nil _⟩

/-- A right bracket may follow everything in a settled formula. -/
theorem IsSettled.mayFollow_rightBracket {e : Editor} (h : e.IsSettled) :
    Token.rightBracket.mayFollow e.formula.getLast? = true := by
  have hlast := h.idle.last
  cases hl : e.formula.getLast? with
  | none => rfl
  | some t => simpa [Token.mayFollow, hl] using hlast

/-- A settled editor has the invariant if its last token is no number and is noted. -/
theorem IsSettled.invariant {e : Editor} (h : e.IsSettled)
    (hlast : e.formula.getLast?.any Token.isNumber = false)
    (happended : e.appended = Appended.behind e.formula.getLast?) : e.Invariant where
  depth := h.depth
  implied := h.implied
  number := .inr ⟨h.idle, fun _ => hlast⟩
  appended := fun _ => happended
  closed := fun hevaluated => by
    rw [h.evaluated] at hevaluated
    cases hevaluated

theorem IsSettled.note {e : Editor} (h : e.IsSettled) (a : Appended) : (e.note a).IsSettled :=
  ⟨⟨h.idle.typing, h.idle.typed, h.idle.hasPoint, h.idle.pointPending, h.idle.last⟩, h.evaluated,
    h.depth, h.implied⟩

/-- A last token that is no number is noted. -/
theorem IsSettled.invariant_note {e : Editor} (h : e.IsSettled) {t : Token}
    (hlast : e.formula.getLast? = some t) (hnumber : t.isNumber = false) :
    (e.note (Appended.behind (some t))).Invariant := by
  refine (h.note _).invariant ?_ ?_
  · show e.formula.getLast?.any Token.isNumber = false
    rw [hlast]
    exact hnumber
  · show Appended.behind (some t) = Appended.behind e.formula.getLast?
    rw [hlast]

/-- A token appended to a settled formula. -/
theorem IsSettled.push {e : Editor} (h : e.IsSettled) {t : Token} {d : Nat}
    (hfollow : t.mayFollow e.formula.getLast? = true) (hd : t.deepen e.openBrackets = some d)
    (hpoint : t ≠ .point) :
    { e with formula := e.formula ++ [t], openBrackets := d }.IsSettled := by
  refine ⟨⟨h.idle.typing, h.idle.typed, h.idle.hasPoint, h.idle.pointPending, ?_⟩, h.evaluated,
    Formula.depth?_push h.depth hfollow hd, h.implied.append [t]⟩
  show (e.formula ++ [t]).getLast? ≠ some .point
  rw [List.getLast?_concat]
  intro h
  exact hpoint (Option.some.inj h)

/-- A right bracket that closes an open one. -/
theorem IsSettled.pushRightBracket {e : Editor} (h : e.IsSettled) (hopen : e.openBrackets ≠ 0) :
    { e with
      formula := e.formula ++ [.rightBracket]
      openBrackets := e.openBrackets - 1 : Editor }.IsSettled :=
  h.push h.mayFollow_rightBracket (Formula.deepen_rightBracket hopen) fun h => nomatch h

/-- A settled editor stays settled when its last operators are taken away. -/
theorem IsSettled.dropOperators {e : Editor} (h : e.IsSettled) {base g : Formula}
    (hcut : e.formula = base ++ g) (hg : ∀ t ∈ g, ∃ op, t = .operator op) :
    { e with formula := base }.IsSettled := by
  have hdepth := h.depth
  have himplied := h.implied
  rw [hcut] at hdepth himplied
  have hpoint := Formula.not_mem_point h.depth h.idle.last
  refine ⟨⟨h.idle.typing, h.idle.typed, h.idle.hasPoint, h.idle.pointPending, ?_⟩, h.evaluated,
    Formula.depth?_dropOperators hdepth hg, himplied.dropAll ?_⟩
  · intro hlast
    refine hpoint ?_
    rw [hcut]
    exact List.mem_append_left g (List.mem_of_getLast? hlast)
  · intro t ht
    obtain ⟨op, rfl⟩ := hg t ht
    rfl

/-- Where a point cannot stand, an operand is expected unless a value ends. -/
theorem awaits_of_not_endsValue {last : Option Token} (hpoint : last ≠ some .point)
    (h : last.any Token.endsValue = false) : last.all Token.awaitsOperand = true := by
  cases last with
  | none => rfl
  | some t =>
    cases t with
    | operator op => cases op <;> first | rfl | cases h
    | leftBracket => rfl
    | point => exact absurd rfl hpoint
    | _ => cases h

/-- In front of an operand that is not multiplied with the value before it. -/
theorem IsSettled.isReady {e : Editor} (h : e.IsSettled)
    (hlast : e.formula.getLast?.any Token.endsValue = false) : e.IsReady := by
  exact ⟨h.evaluated, h.depth, awaits_of_not_endsValue h.idle.last hlast,
    fun t _ => h.implied.append [t]⟩

/-- In front of an operand that is. -/
theorem IsSettled.isReady_pushImpliedTimes {e : Editor} (h : e.IsSettled)
    (hlast : e.formula.getLast?.any Token.endsValue = true) : e.pushImpliedTimes.IsReady := by
  refine ⟨h.evaluated, Formula.depth?_push h.depth hlast rfl, ?_, ?_⟩
  · show (e.formula ++ [Token.operator .times]).getLast?.all Token.awaitsOperand = true
    rw [List.getLast?_concat]
    rfl
  · intro t ht
    exact h.implied.insert hlast ht

/-- A token that begins an operand, behind a formula that awaits one. -/
theorem IsReady.push {e : Editor} (h : e.IsReady) (hidle : e.IsIdle) {t : Token} {d : Nat}
    (ht : t.beginsOperand = true) (hd : t.deepen e.openBrackets = some d) :
    { e with formula := e.formula ++ [t], openBrackets := d }.IsSettled := by
  refine ⟨⟨hidle.typing, hidle.typed, hidle.hasPoint, hidle.pointPending, ?_⟩, h.evaluated,
    h.depth?_push ht hd, h.implied t ht⟩
  show (e.formula ++ [t]).getLast? ≠ some .point
  rw [List.getLast?_concat]
  intro hlast
  cases hlast
  cases ht

/-- In front of an operand that is multiplied with a value before it. -/
theorem IsSettled.isReady_multiply {e : Editor} (h : e.IsSettled) :
    e.multiplyBehindValue.IsReady ∧ e.multiplyBehindValue.IsIdle := by
  unfold multiplyBehindValue endsWithValue
  by_cases hlast : e.formula.getLast?.any Token.endsValue = true
  · rw [if_pos hlast]
    refine ⟨h.isReady_pushImpliedTimes hlast, h.idle.typing, h.idle.typed, h.idle.hasPoint,
      h.idle.pointPending, ?_⟩
    show (e.formula ++ [Token.operator .times]).getLast? ≠ some .point
    rw [List.getLast?_concat]
    intro h
    cases h
  · rw [if_neg hlast]
    exact ⟨h.isReady (by simpa using hlast), h.idle⟩

end Editor

end PocketCalc
