/-
  PocketCalc.Proofs.Session.Typing
  ────────────────────────────────
  **WHAT IS TYPED IS WHAT IS COMPUTED.**

  The characters of a written expression are typed one by one.  Between any two
  subexpressions the editor is in one of two states: it stands in front of an
  operand (`Editor.standing`), or an operand has just ended (`Editor.EndsAt`).
  The induction over the expression goes from the one to the other, with any
  formula in front and any number of open brackets.

      types_expression   typing the characters appends the tokens
      typed_evaluated    equals evaluates them, with or without the brackets at the end
      typed_words_lost   full words of zeros behind a digit are lost in its factorial
-/
import PocketCalc.Proofs.Grammar.Written
import PocketCalc.Proofs.Session.Refusal

namespace PocketCalc

/-! ## §1. Typing characters. -/

namespace Session

/-- The session after some characters were typed. -/
def typeChars (s : Session MemoryStore) (cs : List Char) : Session MemoryStore :=
  (s.applyAll (cs.filterMap Action.ofChar?)).value

/-- Characters are typed one after the other. -/
theorem typeChars_append (s : Session MemoryStore) (cs ds : List Char) :
    s.typeChars (cs ++ ds) = (s.typeChars cs).typeChars ds := by
  unfold typeChars
  rw [List.filterMap_append, applyAll_append]

theorem typeChars_single (s : Session MemoryStore) {c : Char} {a : Action}
    (h : Action.ofChar? c = some a) : s.typeChars [c] = (s.apply a).value := by
  unfold typeChars
  rw [List.filterMap_cons_some h, List.filterMap_nil]
  rfl

end Session

/-- Typing the characters takes one editor to another, and changes nothing else in
the session. -/
def Types (cs : List Char) (e e' : Editor) : Prop :=
  ∀ s : Session MemoryStore, { s with editor := e }.typeChars cs = { s with editor := e' }

namespace Types

variable {e e₁ e₂ : Editor}

theorem nil (e : Editor) : Types [] e e := fun _ => rfl

/-- What is typed in two parts takes the editor there in two parts. -/
theorem append {cs ds : List Char} (h₁ : Types cs e e₁) (h₂ : Types ds e₁ e₂) :
    Types (cs ++ ds) e e₂ := by
  intro s
  rw [Session.typeChars_append, h₁ s, h₂ s]

theorem cons {c : Char} {cs : List Char} (h₁ : Types [c] e e₁) (h₂ : Types cs e₁ e₂) :
    Types (c :: cs) e e₂ :=
  append h₁ h₂

/-- The action of a character that only edits. -/
theorem single {c : Char} {a : Action} (h : Action.ofChar? c = some a)
    (hedit : ∀ s : Session MemoryStore,
      ({ s with editor := e }.apply a).value = { s with editor := e₁ }) : Types [c] e e₁ := by
  intro s
  rw [Session.typeChars_single _ h, hedit s]

theorem operator (e : Editor) (op : Operator) :
    Types [Written.operatorChar op] e (e.typeOperator op) := by
  cases op with
  | _ => exact single rfl fun s => rfl

theorem constant (e : Editor) (c : Constant) :
    Types [Written.constantChar c] e (e.typeConstant c) := by
  cases c with
  | _ => exact single rfl fun s => rfl

theorem leftBracket (e : Editor) : Types ['('] e e.typeLeftBracket := single rfl fun _ => rfl

theorem rightBracket (e : Editor) : Types [')'] e e.typeRightBracket := single rfl fun _ => rfl

/-- A point is typed where no formula counts as evaluated. -/
theorem point (h : e.evaluated = false) : Types ['.'] e e.typePoint := by
  refine single rfl fun s => ?_
  show ({ s with editor := e }.clearResultIfEvaluated.edit Editor.typePoint : Session _) = _
  unfold Session.clearResultIfEvaluated
  rw [if_neg (by simpa using h)]
  rfl

theorem ofChar?_digitChar : ∀ d : Fin 10, Action.ofChar? (Nat.digitChar d) = some (.digit d) := by
  decide

/-- A digit is typed there, too. -/
theorem digit (h : e.evaluated = false) {d : Nat} (hd : d ≤ 9) :
    Types [Nat.digitChar d] e (e.typeDigit d) := by
  refine single (ofChar?_digitChar ⟨d, by omega⟩) fun s => ?_
  show ({ s with editor := e }.clearResultIfEvaluated.edit fun e => e.typeDigit d : Session _) = _
  unfold Session.clearResultIfEvaluated
  rw [if_neg (by simpa using h)]
  rfl

end Types

/-! ## §2. In front of an operand and behind one. -/

namespace Editor

/-- The editor that holds the formula `f` with `d` open brackets, no number being
typed and no product sign implied. -/
def standing (f : Formula) (d : Nat) (a : Appended) : Editor :=
  { formula := f, openBrackets := d, appended := a }

/-- An operand has just ended, and with its number closed the formula is `f`. -/
structure EndsAt (e : Editor) (f : Formula) (d : Nat) : Prop where
  evaluated : e.evaluated = false
  openBrackets : e.openBrackets = d
  closed : ∃ a, e.closeNumber = standing f d a
  ends : f.getLast?.any Token.endsValue = true

theorem isIdle_standing {f : Formula} (hf : f.getLast? ≠ some .point) (d : Nat) (a : Appended) :
    (standing f d a).IsIdle :=
  ⟨rfl, rfl, rfl, rfl, hf⟩

theorem closeNumber_standing {f : Formula} (hf : f.getLast? ≠ some .point) (d : Nat)
    (a : Appended) : (standing f d a).closeNumber = standing f d a := by
  rw [(isIdle_standing hf d a).closeNumber (.inl rfl)]
  rfl

theorem ne_point_of_awaits {f : Formula} (hf : f.getLast?.all Token.awaitsOperand = true) :
    f.getLast? ≠ some .point := by
  intro h
  rw [h] at hf
  cases hf

/-- Behind a token that ends a value, the editor stands behind an operand. -/
theorem endsAt_standing {f : Formula} (hf : f.getLast?.any Token.endsValue = true) (d : Nat)
    (a : Appended) : (standing f d a).EndsAt f d := by
  have hpoint : f.getLast? ≠ some .point := by
    intro h
    rw [h] at hf
    cases hf
  exact ⟨rfl, rfl, ⟨a, closeNumber_standing hpoint d a⟩, hf⟩

/-- A number that is being typed ends a value. -/
theorem endsAt_typingAt (f : Formula) (d : Nat) (n : Numeral) :
    ((standing f d .other).typingAt f n).EndsAt (f ++ [Token.ofDecimal n.value]) d := by
  have htyping := isTyping_typingAt (e := standing f d .other) rfl f n
  refine ⟨rfl, rfl, ⟨.other, ?_⟩, ?_⟩
  · rw [htyping.closeNumber]
    rfl
  · rw [List.getLast?_concat]
    rfl

/-- Where an operand is awaited, no value ends. -/
theorem not_endsValue_of_awaits {last : Option Token} (h : last.all Token.awaitsOperand = true) :
    last.any Token.endsValue = false := by
  cases last with
  | none => rfl
  | some t =>
    cases t with
    | operator op => cases op <;> first | rfl | cases h
    | leftBracket => rfl
    | _ => cases h

/-- Where an operand is awaited, no product sign is implied. -/
theorem multiplyBehindValue_standing {f : Formula}
    (hf : f.getLast?.all Token.awaitsOperand = true) (d : Nat) (a : Appended) :
    (standing f d a).multiplyBehindValue = standing f d a := by
  unfold multiplyBehindValue endsWithValue
  rw [show (standing f d a).formula = f from rfl, not_endsValue_of_awaits hf]
  rfl

theorem typeConstant_standing {f : Formula} (hf : f.getLast?.all Token.awaitsOperand = true)
    (d : Nat) (c : Constant) :
    (standing f d .other).typeConstant c = standing (f ++ [.constant c]) d .constant := by
  unfold typeConstant
  rw [closeNumber_standing (ne_point_of_awaits hf), multiplyBehindValue_standing hf]
  rfl

theorem typeLeftBracket_standing {f : Formula} (hf : f.getLast?.all Token.awaitsOperand = true)
    (d : Nat) :
    (standing f d .other).typeLeftBracket = standing (f ++ [.leftBracket]) (d + 1) .other := by
  unfold typeLeftBracket
  rw [closeNumber_standing (ne_point_of_awaits hf), multiplyBehindValue_standing hf]
  rfl

/-- Behind a value an open bracket is closed. -/
theorem EndsAt.typeRightBracket {e : Editor} {f : Formula} {d : Nat} (h : e.EndsAt f (d + 1)) :
    e.typeRightBracket = standing (f ++ [.rightBracket]) d .rightBracket := by
  obtain ⟨a, hclosed⟩ := h.closed
  unfold Editor.typeRightBracket
  rw [if_neg (by rw [h.openBrackets]; omega), hclosed]
  rfl

/-- Behind a value an operator is appended. -/
theorem EndsAt.typeOperator {e : Editor} {f : Formula} {d : Nat} (h : e.EndsAt f d) {op : Operator}
    (hop : op ≠ .factorial) : e.typeOperator op = standing (f ++ [.operator op]) d .other := by
  obtain ⟨a, hclosed⟩ := h.closed
  unfold Editor.typeOperator
  rw [if_neg hop, hclosed]
  exact placeOperator_append (e := standing f d .other) hop (mayFollow_value h.ends hop)

/-- At the start of the formula or of a bracket a minus sign is appended. -/
theorem typeMinus_standing {f : Formula}
    (hf : f.getLast? = none ∨ f.getLast? = some .leftBracket) (d : Nat) :
    (standing f d .other).typeOperator .minus = standing (f ++ [.operator .minus]) d .other := by
  have hfollow := mayFollow_minus hf
  unfold typeOperator
  rw [if_neg (by decide), closeNumber_standing (last_ne_point hfollow)]
  exact placeOperator_append (e := standing f d .other) (by decide) hfollow

end Editor

/-! ## §3. Literals. -/

/-- More digits behind a numeral. -/
theorem types_digits {e : Editor} (hevaluated : e.evaluated = false)
    (happended : e.appended = .other) (base : Formula) {ds : List Char} (hds : AreDigits ds) :
    ∀ n : Numeral, (ds = [] ∨ n.text ≠ ['0']) →
      ∃ m : Numeral, m.text = n.text ++ ds
        ∧ Types ds (e.typingAt base n) (e.typingAt base m) := by
  induction ds with
  | nil =>
    intro n _
    exact ⟨n, (List.append_nil _).symm, Types.nil _⟩
  | cons c ds ih =>
    intro n hn
    have hzero : n.text ≠ ['0'] := hn.resolve_left (List.cons_ne_nil _ _)
    obtain ⟨d, hd, rfl⟩ := Numeral.exists_digitChar (hds c List.mem_cons_self)
    have htext : (n.typeDigit d hd).text = n.text ++ [Nat.digitChar d] := by
      rw [n.text_typeDigit, if_neg hzero]
    -- The next digit is not the first one, so it does not replace a lone zero.
    have hnext : (n.typeDigit d hd).text ≠ ['0'] := by
      rw [htext]
      intro h
      have hlength := congrArg List.length h
      rw [List.length_append] at hlength
      have := List.length_pos_iff.2 n.text_ne_nil
      simp only [List.length_cons, List.length_nil] at hlength
      omega
    obtain ⟨m, hm, htypes⟩ := ih (fun x hx => hds x (List.mem_cons_of_mem _ hx)) _ (.inr hnext)
    refine ⟨m, by rw [hm, htext, List.append_assoc]; rfl, ?_⟩
    have htyping := Editor.isTyping_typingAt hevaluated base n
    have hdigit := Types.digit (e := e.typingAt base n) hevaluated hd
    rw [htyping.typeDigit happended hd] at hdigit
    exact hdigit.cons htypes

/-- The integer digits of a literal. -/
theorem types_whole {f : Formula} (hf : f.getLast?.all Token.awaitsOperand = true) (d : Nat)
    (n : Literal) :
    ∃ m : Numeral, m.text = n.whole
      ∧ Types n.whole (Editor.standing f d .other) ((Editor.standing f d .other).typingAt f m) := by
  obtain ⟨whole, fraction, hwhole, hcanonical, hfraction⟩ := n
  cases whole with
  | nil => exact absurd hcanonical (by simp)
  | cons c ds =>
    obtain ⟨x, hx, rfl⟩ := Numeral.exists_digitChar (hwhole c List.mem_cons_self)
    -- A zero in front is the only integer digit.
    have hzero : ds = [] ∨ (Numeral.ofDigit x hx).text ≠ ['0'] := by
      rcases hcanonical with h | ⟨-, h⟩
      · exact .inl (List.cons.inj h).2
      · right
        intro htext
        refine h ?_
        rw [List.head?_cons]
        exact congrArg some (List.cons.inj htext).1
    have hds : AreDigits ds := fun c hc => hwhole c (List.mem_cons_of_mem _ hc)
    obtain ⟨m, hm, htypes⟩ := types_digits (e := Editor.standing f d .other) rfl rfl f hds _ hzero
    refine ⟨m, hm, ?_⟩
    have hidle := Editor.isIdle_standing (Editor.ne_point_of_awaits hf) d .other
    have hdigit := Types.digit (e := Editor.standing f d .other) rfl hx
    rw [hidle.typeDigit rfl hx] at hdigit
    exact hdigit.cons htypes

/-- **A literal is typed.** -/
theorem types_literal {f : Formula} (hf : f.getLast?.all Token.awaitsOperand = true) (d : Nat)
    (n : Literal) :
    Types n.chars (Editor.standing f d .other)
      ((Editor.standing f d .other).typingAt f n.numeral) := by
  obtain ⟨m, hm, hwhole⟩ := types_whole hf d n
  have hpoint : m.hasPoint = false := by
    rw [← m.contains_text, hm]
    cases hc : n.whole.contains '.' with
    | false => rfl
    | true => exact absurd (n.areDigits_whole '.' (by simpa using hc)) (by decide)
  cases hfraction : n.fraction with
  | none =>
    have hchars := Literal.chars_whole hfraction
    -- Two numerals of one text are the same.
    have hsame : m = n.numeral := Numeral.text_injective (hm.trans hchars.symm)
    rw [hchars, ← hsame]
    exact hwhole
  | some cs =>
    have hchars := Literal.chars_fraction hfraction
    have htyping := Editor.isTyping_typingAt (e := Editor.standing f d .other) rfl f m
    have htypes := Types.point htyping.evaluated
    rw [htyping.typePoint, hpoint] at htypes
    -- Behind the point even a zero is typed on.
    have hmore : cs = [] ∨ m.pushPoint.text ≠ ['0'] := by
      right
      intro h
      have hlast := m.pushPoint.getLast?_text_eq
      rw [h] at hlast
      cases hlast
    obtain ⟨k, hk, hdigits⟩ := types_digits (e := Editor.standing f d .other) rfl rfl f
      (n.areDigits_fraction cs hfraction).2 m.pushPoint hmore
    have hsame : k = n.numeral := by
      refine Numeral.text_injective ?_
      rw [hk, m.text_pushPoint hpoint, hm]
      show _ = n.chars
      rw [hchars, List.append_assoc]
      rfl
    rw [hchars, ← hsame]
    exact hwhole.append (htypes.cons hdigits)

/-! ## §4. Expressions. -/

/-- The factorial sign of a number that is being typed. -/
theorem typeFactorial_typingAt (f : Formula) (d : Nat) (n : Numeral) :
    ((Editor.standing f d .other).typingAt f n).typeOperator .factorial
      = Editor.standing (f ++ [Token.ofDecimal n.value, .operator .factorial]) d .factorial := by
  have htyping := Editor.isTyping_typingAt (e := Editor.standing f d .other) rfl f n
  have hskip : ¬ ((((Editor.standing f d .other).typingAt f n).appended = .factorial
      || !((Editor.standing f d .other).typingAt f n).typing) = true) := by
    show ¬ ((decide (Appended.other = .factorial) || !true) = true)
    decide
  unfold Editor.typeOperator Editor.typeFactorial
  rw [if_pos rfl, if_neg hskip, htyping.closeNumber]
  show Editor.standing (f ++ [Token.ofDecimal n.value] ++ [.operator .factorial]) d .factorial = _
  rw [List.append_assoc]
  rfl

/-- Behind an operator an operand is awaited, unless it is the factorial sign. -/
theorem awaits_operator {op : Operator} (h : op ≠ .factorial) (f : Formula) :
    (f ++ [Token.operator op]).getLast?.all Token.awaitsOperand = true := by
  rw [List.getLast?_concat]
  cases op <;> first | rfl | exact absurd rfl h

namespace Written

mutual

/-- An atom is typed where an operand is awaited. -/
theorem types_atom : ∀ (a : Atom) (f : Formula) (d : Nat),
    f.getLast?.all Token.awaitsOperand = true →
      ∃ e, Types a.chars (Editor.standing f d .other) e ∧ e.EndsAt (f ++ a.tree.tokens) d
  | .literal n factorial, f, d, hf => by
    have hliteral := types_literal hf d n
    cases factorial with
    | false =>
      have hchars : (Atom.literal n false).chars = n.chars := List.append_nil _
      rw [hchars]
      exact ⟨_, hliteral, Editor.endsAt_typingAt f d n.numeral⟩
    | true =>
      have hsign := Types.operator ((Editor.standing f d .other).typingAt f n.numeral) .factorial
      rw [typeFactorial_typingAt] at hsign
      refine ⟨_, hliteral.append hsign, Editor.endsAt_standing ?_ d .factorial⟩
      rw [List.append_cons, List.getLast?_concat]
      rfl
  | .constant c, f, d, hf => by
    have hconstant := Types.constant (Editor.standing f d .other) c
    rw [Editor.typeConstant_standing hf] at hconstant
    refine ⟨_, hconstant, Editor.endsAt_standing ?_ d .constant⟩
    rw [List.getLast?_concat]
    rfl
  | .bracket e, f, d, hf => by
    have hopen := Types.leftBracket (Editor.standing f d .other)
    rw [Editor.typeLeftBracket_standing hf] at hopen
    obtain ⟨e₁, htypes, hends⟩ := types_expression e (f ++ [.leftBracket]) (d + 1)
      (.inr List.getLast?_concat)
    -- The bracket is open, so the key closes it.
    have hclose := Types.rightBracket e₁
    rw [hends.typeRightBracket] at hclose
    refine ⟨_, hopen.cons (htypes.append hclose), ?_⟩
    have htokens : f ++ (Atom.bracket e).tree.tokens
        = f ++ [.leftBracket] ++ e.tree.tokens ++ [.rightBracket] := by
      simp [Atom.tree, PocketCalc.Atom.tokens]
    rw [htokens]
    refine Editor.endsAt_standing ?_ d .rightBracket
    rw [List.getLast?_concat]
    rfl

/-- So is a product. -/
theorem types_product : ∀ (p : Product) (f : Formula) (d : Nat),
    f.getLast?.all Token.awaitsOperand = true →
      ∃ e, Types p.chars (Editor.standing f d .other) e ∧ e.EndsAt (f ++ p.tree.tokens) d
  | .single a, f, d, hf => types_atom a f d hf
  | .join p op a, f, d, hf => by
    obtain ⟨e₁, hp, hends⟩ := types_product p f d hf
    have hoperator := Types.operator e₁ op.val
    rw [hends.typeOperator op.ne_factorial] at hoperator
    obtain ⟨e₂, ha, hends₂⟩ := types_atom a (f ++ p.tree.tokens ++ [.operator op.val]) d
      (awaits_operator op.ne_factorial _)
    refine ⟨e₂, hp.append (hoperator.cons ha), ?_⟩
    have htokens : f ++ (Product.join p op a).tree.tokens
        = f ++ p.tree.tokens ++ [.operator op.val] ++ a.tree.tokens := by
      simp [Product.tree, PocketCalc.Product.tokens, minusSign]
    rw [htokens]
    exact hends₂

/-- **Typing the characters of an expression appends its tokens.** -/
theorem types_expression : ∀ (e : Expression) (f : Formula) (d : Nat),
    f.getLast? = none ∨ f.getLast? = some .leftBracket →
      ∃ e', Types e.chars (Editor.standing f d .other) e' ∧ e'.EndsAt (f ++ e.tree.tokens) d
  | .single false p, f, d, hf => by
    refine types_product p f d ?_
    rcases hf with h | h
    · rw [h]
      rfl
    · rw [h]
      rfl
  | .single true p, f, d, hf => by
    have hminus := Types.operator (Editor.standing f d .other) .minus
    rw [Editor.typeMinus_standing hf] at hminus
    obtain ⟨e', hp, hends⟩ := types_product p (f ++ [.operator .minus]) d
      (awaits_operator (by decide) f)
    refine ⟨e', hminus.cons hp, ?_⟩
    have htokens : f ++ (Expression.single true p).tree.tokens
        = f ++ [.operator .minus] ++ p.tree.tokens := by
      simp [Expression.tree, PocketCalc.Expression.tokens, minusSign]
    rw [htokens]
    exact hends
  | .join e op p, f, d, hf => by
    obtain ⟨e₁, he, hends⟩ := types_expression e f d hf
    have hoperator := Types.operator e₁ op.val
    rw [hends.typeOperator op.ne_factorial] at hoperator
    obtain ⟨e₂, hp, hends₂⟩ := types_product p (f ++ e.tree.tokens ++ [.operator op.val]) d
      (awaits_operator op.ne_factorial _)
    refine ⟨e₂, he.append (hoperator.cons hp), ?_⟩
    have htokens : f ++ (Expression.join e op p).tree.tokens
        = f ++ e.tree.tokens ++ [.operator op.val] ++ p.tree.tokens := by
      simp [Expression.tree, PocketCalc.Expression.tokens, minusSign]
    rw [htokens]
    exact hends₂

end

end Written

/-! ## §5. Brackets left out. -/

/-- Behind the last operand of a closed formula nothing is left to complete. -/
theorem Editor.EndsAt.formula_complete {e : Editor} {f : Formula} (h : e.EndsAt f 0) :
    e.complete.formula = f := by
  obtain ⟨a, hclosed⟩ := h.closed
  unfold Editor.complete
  rw [h.evaluated, if_neg Bool.false_ne_true, hclosed]
  exact List.append_nil f

/-- A settled formula is completed by its right brackets. -/
theorem formula_complete_of_isSettled {e : Editor} (h : e.IsSettled) :
    e.complete.formula = e.formula ++ List.replicate e.openBrackets .rightBracket := by
  unfold Editor.complete
  rw [h.evaluated, if_neg Bool.false_ne_true, h.idle.closeNumber (.inl h.evaluated)]

/-- Completing a formula that was not evaluated closes its number first. -/
theorem formula_complete_closeNumber {e : Editor} (h : e.Invariant)
    (hevaluated : e.evaluated = false) : e.complete.formula = e.closeNumber.complete.formula := by
  rw [formula_complete_of_isSettled (Editor.isSettled_closeNumber h)]
  unfold Editor.complete
  rw [hevaluated, if_neg Bool.false_ne_true]

/-- A right bracket in front of equals makes no difference to the completed
formula: either there is none to close, or equals would have supplied it. -/
theorem formula_complete_typeRightBracket {e : Editor} (h : e.Invariant) :
    e.typeRightBracket.complete.formula = e.complete.formula := by
  unfold Editor.typeRightBracket
  split
  · rfl
  · next hopen =>
    have hevaluated := h.not_evaluated hopen
    have hclosed := Editor.isSettled_closeNumber h
    have hsame := Editor.openBrackets_closeNumber hevaluated
    rw [formula_complete_closeNumber h hevaluated, formula_complete_of_isSettled hclosed]
    have hpos : e.closeNumber.openBrackets ≠ 0 := hsame ▸ hopen
    have hpush := (hclosed.pushRightBracket hpos).note .rightBracket
    refine (formula_complete_of_isSettled hpush).trans ?_
    show e.closeNumber.formula ++ [Token.rightBracket]
        ++ List.replicate (e.closeNumber.openBrackets - 1) .rightBracket = _
    obtain ⟨d, hd⟩ := Nat.exists_eq_succ_of_ne_zero hpos
    rw [hd, List.append_assoc]
    rfl

namespace Session

/-- Right brackets typed at the end change the editor only, and not its completed
formula. -/
theorem typeChars_rightBrackets (k : Nat) {s : Session MemoryStore} (h : s.Invariant) :
    ∃ e, s.typeChars (List.replicate k ')') = { s with editor := e }
      ∧ e.complete.formula = s.editor.complete.formula := by
  induction k generalizing s with
  | zero => exact ⟨s.editor, rfl, rfl⟩
  | succ k ih =>
    have hstep : s.typeChars [')'] = { s with editor := s.editor.typeRightBracket } :=
      Types.rightBracket s.editor s
    have hinv : ({ s with editor := s.editor.typeRightBracket } : Session MemoryStore).Invariant :=
      ⟨Editor.invariant_typeRightBracket h.editor, h.depth, h.last⟩
    obtain ⟨e, he, hcomplete⟩ := ih hinv
    refine ⟨e, ?_, ?_⟩
    · show s.typeChars ([')'] ++ List.replicate k ')') = _
      rw [typeChars_append, hstep, he]
    · rw [hcomplete]
      exact formula_complete_typeRightBracket h.editor

/-- What equals leaves behind depends on the completed formula only. -/
theorem value_equals (s : Session MemoryStore) :
    let f := s.editor.complete.formula
    let s' := (s.apply .equals).value
    s'.editor.formula = f
      ∧ (∀ v, evaluate f = .ok v →
          s'.result = s.settings.showResult (some v) ∧ s'.history = s.history ++ [⟨f, v⟩])
      ∧ (∀ e, evaluate f = .error e → s'.result = e.shortMessage ∧ s'.history = s.history) := by
  intro f s'
  have hvalue : s' = (s.edit Editor.complete).calculate.value := rfl
  rw [value_calculate] at hvalue
  refine ⟨formula_equals s, ?_, ?_⟩
  · intro v hv
    rw [show evaluate (s.edit Editor.complete).editor.formula = .ok v from hv] at hvalue
    rw [hvalue]
    exact ⟨rfl, rfl⟩
  · intro e he
    rw [show evaluate (s.edit Editor.complete).editor.formula = .error e from he] at hvalue
    rw [hvalue]
    exact ⟨rfl, rfl⟩

end Session

/-! ## §6. Typed and computed. -/

namespace Written

/-- An expression is evaluated to its value, or it is refused for a factorial, or for
a zero divisor. -/
theorem evaluate_tokens (e : Expression) :
    evaluate e.tokens =
      if e.factorialOperands.all acceptsFactorial then orRefuse .divisionByZero e.value?
      else .error .invalidExpression := by
  have haccepted := factorialsAccepted_expression e
  have hvalue := PocketCalc.evaluate_tokens e.tree
  have hsome := isSome_withoutFactorials e.tree
  unfold Expression.tokens Expression.value?
  rw [hvalue]
  unfold Formula.refusal
  rw [haccepted] at hsome ⊢
  cases hall : e.factorialOperands.all acceptsFactorial with
  | true => rfl
  | false =>
    -- Without its factorials the tree has no value.
    rw [hall] at hsome
    have hnone : e.tree.value? = none := by
      rw [← value?_withoutFactorials,
        Option.isNone_iff_eq_none.1 (Option.isSome_eq_false_iff.1 hsome)]
      rfl
    rw [hnone]
    rfl

/-- Typing an expression, and as many of its final brackets as one likes, leaves its
tokens to be completed, and changes nothing but the editor. -/
theorem typeChars_expression (settings : Settings) (e : Expression) {cs : List Char} {k : Nat}
    (h : e.chars = cs ++ List.replicate k ')') :
    ∃ e', (Session.fresh settings).typeChars cs = { Session.fresh settings with editor := e' }
      ∧ e'.complete.formula = e.tokens := by
  obtain ⟨e₁, htypes, hends⟩ := types_expression e [] 0 (.inl rfl)
  have hall : (Session.fresh settings).typeChars e.chars
      = { Session.fresh settings with editor := e₁ } := htypes (Session.fresh settings)
  have hinv : ((Session.fresh settings).typeChars cs).Invariant :=
    Session.invariant_applyAll (Session.invariant_fresh settings) _
  -- Had the brackets been typed, the completed formula would be the same.
  rw [h, Session.typeChars_append] at hall
  generalize (Session.fresh settings).typeChars cs = s at hall hinv ⊢
  obtain ⟨e₂, hbrackets, hcomplete⟩ := Session.typeChars_rightBrackets k hinv
  rw [hbrackets] at hall
  obtain ⟨editor, settings', store, result⟩ := s
  injection hall with heditor hsettings hstore hresult
  refine ⟨editor, ?_, ?_⟩
  · dsimp only at hsettings hstore hresult
    rw [hsettings, hstore, hresult]
  · rw [← show e₂.complete.formula = editor.complete.formula from hcomplete, heditor]
    exact hends.formula_complete

/-- **An expression that is typed is evaluated**, with or without the brackets at its end:
equals leaves its tokens and shows and records what they are evaluated to. -/
theorem typed_evaluated (settings : Settings) (e : Expression) {cs : List Char} {k : Nat}
    (h : e.chars = cs ++ List.replicate k ')') :
    let s := (Session.fresh settings).typeChars (cs ++ ['='])
    s.editor.formula = e.tokens
      ∧ (∀ v, evaluate e.tokens = .ok v →
          s.result = settings.showResult (some v) ∧ s.history = [⟨e.tokens, v⟩])
      ∧ ∀ error, evaluate e.tokens = .error error →
          s.result = error.shortMessage ∧ s.history = [] := by
  intro s
  obtain ⟨e', htyped, hcomplete⟩ := typeChars_expression settings e h
  have hs : s = ({ Session.fresh settings with editor := e' }.apply .equals).value := by
    show (Session.fresh settings).typeChars (cs ++ ['=']) = _
    rw [Session.typeChars_append, htyped]
    exact Session.typeChars_single _ rfl
  have hequals := Session.value_equals { Session.fresh settings with editor := e' }
  dsimp only at hequals
  rw [← hs, hcomplete] at hequals
  exact hequals

/-- The factorial of a literal. -/
def Expression.ofFactorial (n : Literal) : Expression := .single false (.single (.literal n true))

/-- It is evaluated to what the factorial of the literal is computed to. -/
theorem evaluate_ofFactorial {n : Literal} {v : Decimal} (h : n.value.factorial = .ok v) :
    evaluate (Expression.ofFactorial n).tokens = .ok v.normalized := by
  have haccepted : (Expression.ofFactorial n).factorialOperands.all acceptsFactorial = true := by
    show (acceptsFactorial n && true) = true
    rw [acceptsFactorial_eq_true.2 ⟨v, h⟩]
    rfl
  have hvalue : (Expression.ofFactorial n).value? = some v.normalized.normalized := by
    show ((n.value.factorial.toOption.bind fun y => some y.normalized).map _).map _ = _
    rw [h]
    rfl
  rw [evaluate_tokens, if_pos haccepted, hvalue, Decimal.normalized_normalized]
  rfl

/-- A one with more zeros than the limit counts is no whole number up to the limit. -/
theorem not_whole_oneWithZeros {zeros : Nat} (h : factorialLimit < zeros) :
    ¬ ∃ m : Nat, m ≤ factorialLimit
      ∧ (Literal.oneWithZeros zeros).value = (Decimal.ofInt m).normalized := by
  rintro ⟨m, hm, hvalue⟩
  rw [Literal.value_oneWithZeros] at hvalue
  by_cases h0 : m = 0
  · rw [h0] at hvalue
    cases congrArg Decimal.mantissa hvalue
  · obtain ⟨c, j, -, hj, -, hnormal⟩ := normalized_natCast h0
    have hscale : -(zeros : Int) = 0 - j := congrArg Decimal.scale (hvalue.trans (hnormal 0))
    omega

/-- **Full words of zeros are typed, and lost when the factorial is computed.**  The factorial
of a one with such zeros behind it is shown and recorded as one. -/
theorem typed_words_lost {zeros words : Nat} (hwords : 0 < words)
    (hzeros : (zeros : Int) = words * shiftModulus) :
    let n := Literal.oneWithZeros zeros
    let e := Expression.ofFactorial n
    let s := (Session.fresh {}).typeChars (e.chars ++ ['='])
    e.chars = '1' :: List.replicate zeros '0' ++ ['!']
      ∧ e.factorialOperands = [n]
      ∧ (¬ ∃ m : Nat, m ≤ factorialLimit ∧ n.value = (Decimal.ofInt m).normalized)
      ∧ s.result = "1" ∧ s.history = [⟨e.tokens, ⟨1, 0⟩⟩] := by
  intro n e s
  have hchars : e.chars = n.chars ++ ['!'] := rfl
  rw [Literal.chars_whole rfl] at hchars
  have hlimit : factorialLimit < zeros := by
    unfold shiftModulus at hzeros
    unfold factorialLimit
    omega
  have hvalue : n.value = ⟨1, -(words * shiftModulus)⟩ := by
    rw [← hzeros]
    exact Literal.value_oneWithZeros zeros
  have hnormal : Decimal.normalized ⟨(1 : Nat), -(words * shiftModulus)⟩
      = ⟨1, -(words * shiftModulus)⟩ := Decimal.isNormal_of_mod _ (by decide)
  have hfactorial := factorial_of_words words (show 1 ≤ factorialLimit by decide)
    (n.normalized_value.trans (hvalue.trans hnormal.symm))
  have hequals := typed_evaluated {} e (k := 0) (List.append_nil _).symm
  obtain ⟨hresult, hhistory⟩ := hequals.2.1 ⟨1, 0⟩ (evaluate_ofFactorial hfactorial)
  have hshown : ({} : Settings).showResult (some ⟨1, 0⟩) = "1" := by decide +kernel
  exact ⟨hchars, rfl, not_whole_oneWithZeros hlimit, hresult.trans hshown, hhistory⟩

end Written

/-- **WHAT IS TYPED IS WHAT IS COMPUTED.**  The characters of an expression, with or
without the brackets at its end, and then an equals sign leave the tokens of the
whole expression.  Its value is shown and is the only record; without a value the
refusal is shown, that of a factorial before that of a zero divisor, and nothing is
recorded.  A factorial is accepted if its operand is a whole number up to the limit, and
otherwise only if the operand is such a number with full words of zeros behind it, for
which it needs more digits than a word counts. -/
theorem typed_computed (settings : Settings) (e : Written.Expression) (cs : List Char) (k : Nat)
    (h : e.chars = cs ++ List.replicate k ')') :
    let s := (Session.fresh settings).typeChars (cs ++ ['='])
    s.editor.formula = e.tokens
      ∧ (if e.factorialOperands.all Written.acceptsFactorial then
          match e.value? with
          | some v => s.result = settings.showResult (some v) ∧ s.history = [⟨e.tokens, v⟩]
          | none => s.result = EvalError.divisionByZero.shortMessage ∧ s.history = []
        else s.result = EvalError.invalidExpression.shortMessage ∧ s.history = [])
      ∧ (∀ n ∈ e.factorialOperands, (n.whole.length : Int) ≤ shiftModulus →
          (Written.acceptsFactorial n = true
            ↔ ∃ m, m ≤ factorialLimit ∧ n.value = (Decimal.ofInt m).normalized))
      ∧ ∀ n ∈ e.factorialOperands,
          (Written.acceptsFactorial n = true
            ↔ ∃ m words : Nat, m ≤ factorialLimit
              ∧ n.value = Decimal.normalized ⟨m, -(words * shiftModulus)⟩) := by
  intro s
  obtain ⟨hformula, hok, herror⟩ := Written.typed_evaluated settings e h
  have hevaluate := Written.evaluate_tokens e
  refine ⟨hformula, ?_, fun n _ hn => Written.acceptsFactorial_iff hn,
    fun n _ => Written.acceptsFactorial_iff_words n⟩
  split
  · next hall =>
    rw [if_pos hall] at hevaluate
    split
    · next v hv =>
      rw [hv] at hevaluate
      exact hok v hevaluate
    · next hv =>
      rw [hv] at hevaluate
      exact herror _ hevaluate
  · next hall =>
    rw [if_neg hall] at hevaluate
    exact herror _ hevaluate

/-- The expression `2*(3.50+4!)`, typed without its bracket. -/
theorem typed_computed_bracket_left_out :
    ∃ e : Written.Expression,
      e.chars = "2*(3.50+4!".toList ++ List.replicate 1 ')'
        ∧ ((Session.fresh {}).typeChars ("2*(3.50+4!".toList ++ ['='])).editor.formula = e.tokens
        ∧ ((Session.fresh {}).typeChars ("2*(3.50+4!".toList ++ ['='])).result = "55"
        ∧ ((Session.fresh {}).typeChars ("2*(3.50+4!".toList ++ ['='])).history
            = [⟨e.tokens, ⟨55, 0⟩⟩] := by
  let two : Literal := ⟨['2'], none, by decide, by decide, fun _ h => nomatch h⟩
  let half : Literal := ⟨['3'], some ['5', '0'], by decide, by decide, by
    rintro _ ⟨⟩
    decide⟩
  let four : Literal := ⟨['4'], none, by decide, by decide, fun _ h => nomatch h⟩
  let sum : Written.Expression :=
    .join (.single false (.single (.literal half false))) ⟨.plus, rfl⟩
      (.single (.literal four true))
  let e : Written.Expression :=
    .single false (.join (.single (.literal two false)) ⟨.times, rfl⟩ (.bracket sum))
  have hchars : e.chars = "2*(3.50+4!".toList ++ List.replicate 1 ')' := rfl
  obtain ⟨hformula, hresult, -⟩ := typed_computed {} e "2*(3.50+4!".toList 1 hchars
  have hvalue : e.value? = some ⟨55, 0⟩ := by decide +kernel
  have haccepted : e.factorialOperands.all Written.acceptsFactorial = true := by decide +kernel
  have hshown : ({} : Settings).showResult (some ⟨55, 0⟩) = "55" := by decide +kernel
  rw [if_pos haccepted, hvalue] at hresult
  exact ⟨e, hchars, hformula, hresult.1.trans hshown, hresult.2⟩

/-- A one with 4294967296 zeros is no whole number up to the limit.  Its factorial is shown
and recorded as one, where the refusal of a factorial is due. -/
theorem typed_zeros_lost :
    let n := Literal.oneWithZeros 4294967296
    let e := Written.Expression.ofFactorial n
    let s := (Session.fresh {}).typeChars (e.chars ++ ['='])
    e.chars = '1' :: List.replicate 4294967296 '0' ++ ['!']
      ∧ e.factorialOperands = [n]
      ∧ (¬ ∃ m : Nat, m ≤ factorialLimit ∧ n.value = (Decimal.ofInt m).normalized)
      ∧ s.result = "1" ∧ s.history = [⟨e.tokens, ⟨1, 0⟩⟩]
      ∧ "1" ≠ EvalError.invalidExpression.shortMessage := by
  have hword : ((4294967296 : Nat) : Int) = (1 : Nat) * shiftModulus := by decide
  have hwords := Written.typed_words_lost Nat.one_pos hword
  exact ⟨hwords.1, hwords.2.1, hwords.2.2.1, hwords.2.2.2.1, hwords.2.2.2.2, by decide⟩

end PocketCalc
