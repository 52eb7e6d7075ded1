/-
  PocketCalc.Proofs.Evaluation.Value
  ──────────────────────────────────
  **EVALUATION IS THE VALUE OF THE SYNTAX TREE.**

  Two halves make the evaluator and the grammar agree.

      evaluate_tokens          an expression is evaluated to the value of its tree,
                               or refused for a factorial, or for a zero divisor
      wellFormed_of_evaluate   a formula that has a value is an expression

  The second half goes backwards through the stages: a formula is well formed if
  it is so after one replacement, for the window that was replaced is an operand
  as much as the number in its place.
-/
import PocketCalc.Proofs.Evaluation.Factorials
import PocketCalc.Proofs.Grammar.Reading

namespace PocketCalc

/-! ## §1. Expressions are evaluated. -/

/-- Why an expression without value is refused. -/
def Formula.refusal (f : Formula) : EvalError :=
  if f.factorialsAccepted then .divisionByZero else .invalidExpression

/-- The factorial stage as a whole: the expression without factorial signs, or the refusal
of a factorial. -/
theorem exhaust_factorials (e : Expression) :
    factorials.exhaust e.tokens
      = orRefuse .invalidExpression (e.withoutFactorials?.map Expression.tokens) :=
  (settles_factorials_expression e).exhaust_eq fun _ hg _ => findFactorial_idle hg

/-- The bracket stage as a whole: the expression without brackets, or the refusal of a
zero divisor. -/
theorem exhaust_brackets (e : Expression) (h : ∀ t ∈ e.tokens, notFactorial t = true) :
    brackets.exhaust e.tokens
      = orRefuse .divisionByZero (e.withoutBrackets?.map Expression.tokens) := by
  refine (settles_brackets_expression e h).exhaust_eq ?_
  intro g _ hg
  obtain ⟨e', he', rfl⟩ := Option.map_eq_some_iff.1 hg
  have hflat := flat_withoutBrackets he' h
  show findBrackets _ = _
  unfold findBrackets
  rw [innermost_idle fun t ht => (Bool.and_eq_true_iff.1 (hflat t ht)).1]

/-- **An expression is evaluated to the value of its tree.**  Without a value it is
refused for a factorial, if one is refused, and for a zero divisor otherwise. -/
theorem evaluate_tokens (e : Expression) :
    evaluate e.tokens = orRefuse e.tokens.refusal e.value? := by
  have haccepted := isSome_withoutFactorials e
  have hvalue := value?_withoutFactorials e
  unfold evaluate Formula.refusal
  rw [if_neg (by simpa using tokens_ne_nil e), exhaust_factorials, ← haccepted, ← hvalue]
  cases he₁ : e.withoutFactorials? with
  | none => rfl
  | some e₁ =>
    have hf : ∀ t ∈ e₁.tokens, notFactorial t = true :=
      (settles_factorials_expression e).settled e₁.tokens (by rw [he₁]; rfl)
    have hvalue₁ := value?_withoutBrackets e₁
    -- From here on only a zero divisor can be refused.
    simp only [Option.map_some, orRefuse, Option.bind_some, Option.isSome_some, if_true]
    rw [exhaust_brackets e₁ hf, ← hvalue₁]
    cases he₂ : e₁.withoutBrackets? with
    | none => rfl
    | some e₂ => exact evaluateFlat_tokens e₂ (flat_withoutBrackets he₂ hf)

/-! ## §2. Windows are operands. -/

namespace Place

/-- Behind a number and behind another operand the same tokens complete the
formula, unless they begin with a factorial sign. -/
theorem accepts_behind (number : Bool) (d : Nat) {f : Formula}
    (hf : ∀ t ∈ f, notFactorial t = true) :
    accepts ⟨.behind number, d⟩ f = accepts ⟨.behind true, d⟩ f := by
  cases f with
  | nil => cases d <;> rfl
  | cons t f =>
    have ht := hf t List.mem_cons_self
    have hnext : next? ⟨.behind number, d⟩ t = next? ⟨.behind true, d⟩ t := by
      cases number with
      | true => rfl
      | false =>
        cases t with
        | operator op => cases op <;> first | rfl | cases ht
        | rightBracket => cases d <;> rfl
        | _ => rfl
    unfold accepts
    rw [read?_cons, read?_cons, hnext]

/-- A window is an operand if it is read like a number, up to the question whether
a factorial sign may follow. -/
def IsOperand (w : Formula) : Prop :=
  ∀ signed d, ∃ number, read? ⟨.before signed, d⟩ w = some ⟨.behind number, d⟩

/-- A number may stand wherever an operand stands, and the other way around. -/
theorem accepts_operand (p : Place) {before w after : Formula} {v : Decimal} (hw : IsOperand w)
    (hafter : ∀ t ∈ after, notFactorial t = true)
    (h : p.accepts (before ++ .number v :: after) = true) :
    p.accepts (before ++ (w ++ after)) = true := by
  rw [accepts_append] at h ⊢
  cases hq : p.read? before with
  | none =>
    rw [hq] at h
    cases h
  | some q =>
    rw [hq] at h
    obtain ⟨standing, d⟩ := q
    cases standing with
    | behind number => cases number <;> cases h
    | before signed =>
      obtain ⟨number, hnumber⟩ := hw signed d
      have hv : accepts ⟨.before signed, d⟩ (.number v :: after)
          = accepts ⟨.behind true, d⟩ after := rfl
      show accepts ⟨.before signed, d⟩ (w ++ after) = true
      rw [accepts_append, hnumber]
      show accepts ⟨.behind number, d⟩ after = true
      rw [accepts_behind number d hafter, ← hv]
      exact h

/-- A value is read where an operand is expected. -/
theorem next?_value {t : Token} {x : Decimal} (ht : t.value? = some x) (signed : Bool) (d : Nat) :
    ∃ number, next? ⟨.before signed, d⟩ t = some ⟨.behind number, d⟩ := by
  cases t with
  | number v => exact ⟨true, rfl⟩
  | constant c => exact ⟨false, rfl⟩
  | _ => cases ht

theorem next?_operator {op : Operator} (hop : op ≠ .factorial) (number : Bool) (d : Nat) :
    next? ⟨.behind number, d⟩ (.operator op) = some ⟨.before false, d⟩ := by
  cases op <;> first | (cases number <;> rfl) | exact absurd rfl hop

/-- An operand is expected, a minus sign may stand in front of it, and a value
comes. -/
theorem read?_term {t : Token} {x : Decimal} (ht : t.value? = some x) (negated : Bool) (d : Nat) :
    ∃ number, read? ⟨.before false, d⟩ (minusSign negated ++ [t]) = some ⟨.behind number, d⟩ := by
  obtain ⟨number, hn⟩ := next?_value ht negated d
  refine ⟨number, ?_⟩
  cases negated with
  | true =>
    show (next? ⟨.before true, d⟩ t).bind _ = _
    rw [hn]
    rfl
  | false =>
    show (next? ⟨.before false, d⟩ t).bind _ = _
    rw [hn]
    rfl

/-- Two values and the sign between them are an operand. -/
theorem isOperand_product {t u : Token} {x y : Decimal} (ht : t.value? = some x)
    (hu : u.value? = some y) (op : Tight) (negated : Bool) :
    IsOperand (t :: .operator op.val :: (minusSign negated ++ [u])) := by
  intro signed d
  obtain ⟨n, hn⟩ := next?_value ht signed d
  obtain ⟨number, hnumber⟩ := read?_term hu negated d
  refine ⟨number, ?_⟩
  rw [read?_cons, hn]
  show (next? ⟨.behind n, d⟩ (.operator op.val)).bind _ = _
  rw [next?_operator op.ne_factorial]
  exact hnumber

/-- One token is read in the same way inside brackets. -/
theorem next?_deeper {s s' : Standing} {d d' : Nat} {t : Token}
    (h : next? ⟨s, d⟩ t = some ⟨s', d'⟩) (k : Nat) :
    next? ⟨s, d + k⟩ t = some ⟨s', d' + k⟩ := by
  cases s with
  | before signed =>
    cases t with
    | operator op =>
      cases op with
      | minus =>
        cases signed with
        | true => cases h
        | false =>
          cases h
          rfl
      | _ => cases h
    | number v =>
      cases h
      rfl
    | constant c =>
      cases h
      rfl
    | leftBracket =>
      cases h
      show some (Place.mk (.before false) (d + k + 1)) = _
      rw [Nat.add_right_comm]
    | _ => cases h
  | behind number =>
    cases t with
    | operator op =>
      cases op <;> cases number <;> first | (cases h; rfl) | cases h
    | rightBracket =>
      -- The only token that looks at the number of open brackets.
      cases d with
      | zero => cases number <;> cases h
      | succ d =>
        rw [Nat.add_right_comm]
        cases number <;> (cases h; rfl)
    | _ => cases number <;> cases h

/-- What can be read with no bracket open can be read inside brackets. -/
theorem read?_deeper {f : Formula} {s s' : Standing} {d d' : Nat}
    (h : read? ⟨s, d⟩ f = some ⟨s', d'⟩) (k : Nat) :
    read? ⟨s, d + k⟩ f = some ⟨s', d' + k⟩ := by
  induction f generalizing s d with
  | nil =>
    cases h
    rfl
  | cons t f ih =>
    obtain ⟨⟨s₁, d₁⟩, hn, hr⟩ := Option.bind_eq_some_iff.1 h
    rw [read?_cons, next?_deeper hn k]
    exact ih hr

/-- Brackets around a well-formed formula are an operand. -/
theorem isOperand_brackets {f : Formula} (hf : f.wellFormed = true) :
    IsOperand (.leftBracket :: (f ++ [.rightBracket])) := by
  intro signed d
  refine ⟨false, ?_⟩
  obtain ⟨⟨standing, depth⟩, hread, hend⟩ := (Option.any_eq_true _ _).1 hf
  cases standing with
  | before signed => cases hend
  | behind number =>
    cases depth with
    | succ depth => cases hend
    | zero =>
      have hdeep := read?_deeper hread (d + 1)
      rw [Nat.zero_add] at hdeep
      show read? ⟨.before false, d + 1⟩ (f ++ [.rightBracket]) = _
      rw [read?_append, hdeep]
      cases number <;> rfl

end Place

/-! ## §3. Formulas with a value are well formed. -/

/-- What is added up behind a value completes it. -/
theorem accepts_of_addTerms {x v : Decimal} {f : Formula} (h : addTerms x f = .ok v)
    (number : Bool) : Place.accepts ⟨.behind number, 0⟩ f = true := by
  fun_induction addTerms x f generalizing number with
  | case1 => rfl
  | case2 acc op rest hop y rest' hterm w hw ih =>
    obtain ⟨negated, t, z, hrest, hz, -⟩ := cut_of_takeTerm hterm
    obtain ⟨n, hn⟩ := Place.read?_term hz negated 0
    have hcons : (.operator op :: rest : Formula)
        = .operator op :: (minusSign negated ++ [t] ++ rest') := by
      rw [hrest, List.append_assoc, List.singleton_append]
    rw [hcons]
    unfold Place.accepts
    rw [Place.read?_cons, Place.next?_operator (Additive.ne_factorial ⟨op, hop⟩)]
    show Place.accepts ⟨.before false, 0⟩ (minusSign negated ++ [t] ++ rest') = true
    rw [Place.accepts_append, hn]
    exact ih h n
  | _ => cases h

/-- A sum of terms is well formed. -/
theorem wellFormed_of_sumTerms {f : Formula} {v : Decimal} (h : sumTerms f = .ok v) :
    f.wellFormed = true := by
  unfold sumTerms at h
  split at h
  · split at h
    · next x rest hterm =>
      obtain ⟨negated, t, y, hf, hy, -⟩ := cut_of_takeTerm hterm
      obtain ⟨number, hn⟩ := Place.read?_term hy negated 0
      have hcut : f = minusSign negated ++ [t] ++ rest := by
        rw [hf, List.append_assoc, List.singleton_append]
      show Place.accepts ⟨.before false, 0⟩ f = true
      rw [hcut, Place.accepts_append, hn]
      exact accepts_of_addTerms h number
    · cases h
  · cases h

/-- A formula is well formed if its reduction is: the window is an operand, and the
value that takes its place is one, too. -/
theorem wellFormed_of_result {f w : Formula} {r : Reduction} (hw : Place.IsOperand w)
    (hcut : f = r.before ++ (w ++ r.after)) (hf : ∀ t ∈ f, notFactorial t = true)
    (ih : (∀ t ∈ r.result, notFactorial t = true) → r.result.wellFormed = true) :
    f.wellFormed = true := by
  obtain ⟨hbefore, -, hafter⟩ := forall_mem_join.1 (hcut ▸ hf)
  have hresult : ∀ t ∈ r.result, notFactorial t = true :=
    List.forall_mem_append.2 ⟨hbefore, List.forall_mem_cons.2 ⟨rfl, hafter⟩⟩
  rw [hcut]
  exact Place.accepts_operand _ hw hafter (ih hresult)

/-- A formula without factorial signs that has a value without further brackets is
well formed. -/
theorem wellFormed_of_evaluateFlat {f : Formula} {v : Decimal}
    (hf : ∀ t ∈ f, notFactorial t = true) (h : evaluateFlat f = .ok v) : f.wellFormed = true := by
  unfold evaluateFlat at h
  split at h
  · cases h
  · split at h
    · next g hg =>
      refine products.exhaust_induction
        (motive := fun f => (∀ t ∈ f, notFactorial t = true) → f.wellFormed = true)
        ?_ (fun _ _ => wellFormed_of_sumTerms h) hg hf
      intro f r hfind ih hf
      obtain ⟨t, u, x, y, op, negated, hcut, ht, hu, -⟩ := cut_of_findProduct hfind
      have hwindow : f = r.before ++
          ((t :: .operator op.val :: (minusSign negated ++ [u])) ++ r.after) := by
        rw [hcut]
        simp only [List.append_assoc, List.cons_append, List.nil_append]
      exact wellFormed_of_result (Place.isOperand_product ht hu op negated) hwindow hf ih
    · cases h

/-- The same with brackets. -/
theorem wellFormed_of_brackets {f g : Formula} {v : Decimal}
    (hf : ∀ t ∈ f, notFactorial t = true) (hg : brackets.exhaust f = .ok g)
    (h : evaluateFlat g = .ok v) : f.wellFormed = true := by
  refine brackets.exhaust_induction
    (motive := fun f => (∀ t ∈ f, notFactorial t = true) → f.wellFormed = true)
    ?_ (fun _ hg => wellFormed_of_evaluateFlat hg h) hg hf
  intro f r hfind ih hf
  obtain ⟨inner, hcut, hv⟩ := cut_of_findBrackets hfind
  have hwindow : f = r.before ++ ((.leftBracket :: (inner ++ [.rightBracket])) ++ r.after) := by
    rw [hcut]
    simp only [List.append_assoc, List.cons_append, List.nil_append]
  have hinner : ∀ t ∈ inner, notFactorial t = true := by
    intro t ht
    refine hf t ?_
    rw [hcut]
    simp [ht]
  have hwell : inner.wellFormed = true := wellFormed_of_evaluateFlat hinner hv
  exact wellFormed_of_result (Place.isOperand_brackets hwell) hwindow hf ih

/-- **A formula that has a value is well formed.** -/
theorem wellFormed_of_evaluate {f : Formula} {v : Decimal} (h : evaluate f = .ok v) :
    f.wellFormed = true := by
  unfold evaluate at h
  split at h
  · cases h
  · split at h
    · cases h
    · next g hg =>
      split at h
      · cases h
      · next k hk =>
        refine factorials.exhaust_induction
          (motive := fun f => f.wellFormed = true) ?_ ?_ hg
        · intro f r hfind ih
          obtain ⟨w, hcut, -⟩ := cut_of_findFactorial hfind
          -- A number is read the same way with its factorial sign and without it.
          have hstep : ∀ p : Place, p.read? (.number w :: .operator .factorial :: r.after)
              = p.read? (.number r.value.normalized :: r.after) := by
            rintro ⟨standing, d⟩
            cases standing with
            | before signed => rfl
            | behind number => cases number <;> rfl
          have hread : Place.start.read? f = Place.start.read? r.result := by
            rw [hcut, Reduction.result, Place.read?_append, Place.read?_append]
            exact congrArg _ (funext hstep)
          show (Place.start.read? f).any Place.isEnd = true
          rw [hread]
          exact ih
        · intro hidle
          exact wellFormed_of_brackets (idle_of_findFactorial hidle) hk h

/-! ## §4. The evaluator and the grammar. -/

/-- **THE EVALUATOR COMPUTES THE GRAMMAR.**  A formula has the value `v` exactly if
it is an expression written out whose tree has the value `v`; the tree is
determined by the formula; and an expression without value is refused for a
factorial, if one of its numbers is refused by its factorial signs, and for a zero
divisor otherwise, but never as missing. -/
theorem evaluate_grammar (f : Formula) :
    (∀ v, evaluate f = .ok v ↔ ∃ e : Expression, e.tokens = f ∧ e.value? = some v)
      ∧ Function.Injective Expression.tokens
      ∧ ∀ e : Expression,
          evaluate e.tokens =
              (match e.value? with
                | some v => .ok v
                | none =>
                    .error (if e.tokens.factorialsAccepted then .divisionByZero
                      else .invalidExpression))
            ∧ evaluate e.tokens ≠ .error .missingFormula := by
  refine ⟨?_, fun _ _ h => tokens_injective h, ?_⟩
  · intro v
    constructor
    · intro h
      obtain ⟨e, rfl⟩ := (wellFormed_iff f).1 (wellFormed_of_evaluate h)
      refine ⟨e, rfl, ?_⟩
      rw [evaluate_tokens] at h
      cases hv : e.value? with
      | none =>
        rw [hv] at h
        cases h
      | some w =>
        rw [hv] at h
        cases h
        rfl
    · rintro ⟨e, rfl, hv⟩
      rw [evaluate_tokens, hv]
      rfl
  · intro e
    rw [evaluate_tokens]
    unfold Formula.refusal
    cases e.value? with
    | some v => exact ⟨rfl, fun h => nomatch h⟩
    | none =>
      refine ⟨rfl, ?_⟩
      show Except.error _ ≠ _
      split <;> exact fun h => nomatch h

end PocketCalc
