/-
  PocketCalc.Proofs.Evaluation.Stages
  ───────────────────────────────────
  **THE STAGES ON SYNTAX TREES.**

  What a stage of the evaluator does to the tokens of an expression is again an
  expression: the factorial stage replaces the numbers by their factorials
  (`withoutFactorials?`), the bracket stage replaces the brackets by the values of
  what they enclose (`withoutBrackets?`).  Neither changes the value of the tree.

  So the evaluator computes the value of the tree, and its refusal tells why there
  is none (`evaluate_tokens`): the factorials are looked at first, and all that is
  left to refuse is a zero divisor.
-/
import PocketCalc.Proofs.Evaluation.Flat

namespace PocketCalc

/-! ## §1. Trees whose parts are replaced. -/

/-- A product of one part has the value of the part, if there is a part. -/
theorem value?_single (a? : Option Atom) :
    (a?.map Product.single).bind Product.value? = a?.bind Atom.value? := by
  cases a? <;> rfl

/-- The value of a product of parts that may be missing. -/
theorem value?_join (p? : Option Product) (op : Tight) (negated : Bool) (a? : Option Atom) :
    (p?.bind fun p => a?.map fun a => Product.join p op negated a).bind Product.value? =
      (p?.bind Product.value?).bind fun x => (a?.bind Atom.value?).bind fun y =>
        (op.val.apply x (y.signed negated)).toOption := by
  cases p? with
  | none => rfl
  | some p =>
    cases a? with
    | none =>
      show none = p.value?.bind fun _ => none
      cases p.value? <;> rfl
    | some a => rfl

theorem sum?_single (negated : Bool) (p? : Option Product) :
    (p?.map (Expression.single negated)).bind Expression.sum?
      = (p?.bind Product.value?).map (Decimal.signed negated) := by
  cases p? <;> rfl

/-- The sum of an expression of parts that may be missing. -/
theorem sum?_join (e? : Option Expression) (op : Additive) (negated : Bool) (p? : Option Product) :
    (e?.bind fun e => p?.map fun p => Expression.join e op negated p).bind Expression.sum? =
      (e?.bind Expression.sum?).bind fun x => (p?.bind Product.value?).bind fun y =>
        (op.val.apply x (y.signed negated)).toOption := by
  cases e? with
  | none => rfl
  | some e =>
    cases p? with
    | none =>
      show none = e.sum?.bind fun _ => none
      cases e.sum? <;> rfl
    | some p => rfl

theorem isFlat_operator {op : Operator} (h : op ≠ .factorial) : isFlat (.operator op) = true := by
  cases op <;> first | rfl | exact absurd rfl h

/-- Neither stage looks for the signs between two operands. -/
theorem flat_signs {op : Operator} (h : op ≠ .factorial) (negated : Bool) :
    ∀ t ∈ (.operator op :: minusSign negated : Formula), isFlat t = true := by
  intro t ht
  rcases List.mem_cons.1 ht with ht | ht
  · rw [ht]
    exact isFlat_operator h
  · rw [mem_minusSign ht]
    rfl

/-- A property of the tokens of two pieces and of what stands between them. -/
theorem forall_mem_join {q : Token → Prop} {f s g : Formula} :
    (∀ t ∈ f ++ (s ++ g), q t) ↔
      (∀ t ∈ f, q t) ∧ (∀ t ∈ s, q t) ∧ ∀ t ∈ g, q t := by
  simp only [List.mem_append, or_imp, forall_and]

namespace Rule.Settles

variable {rule : Rule} {idle : Token → Bool} {refusal : EvalError} {negated : Bool}

/-- A rule settles a product of one atom as it settles the atom. -/
theorem product_single {a : Atom} {a? : Option Atom}
    (ha : rule.Settles idle refusal a.tokens (a?.map Atom.tokens)) :
    rule.Settles idle refusal (Product.single a).tokens
      ((a?.map Product.single).map Product.tokens) := by
  cases a? <;> exact ha

/-- It settles the parts of a product one by one, if it is idle on the signs between them.
-/
theorem product_join {p : Product} {op : Tight} {a : Atom} {p? : Option Product} {a? : Option Atom}
    (hp : rule.Settles idle refusal p.tokens (p?.map Product.tokens))
    (hs : ∀ t ∈ (.operator op.val :: minusSign negated : Formula), idle t = true)
    (ha : rule.Settles idle refusal a.tokens (a?.map Atom.tokens)) :
    rule.Settles idle refusal (Product.join p op negated a).tokens
      ((p?.bind fun p => a?.map fun a => Product.join p op negated a).map Product.tokens) := by
  have h := hp.join hs ha
  cases p? <;> cases a? <;> exact h

/-- It settles an expression of one product behind its minus sign. -/
theorem expression_single {p : Product} {p? : Option Product}
    (hs : ∀ t ∈ minusSign negated, idle t = true)
    (hp : rule.Settles idle refusal p.tokens (p?.map Product.tokens)) :
    rule.Settles idle refusal (Expression.single negated p).tokens
      ((p?.map (Expression.single negated)).map Expression.tokens) := by
  have h := (of_idle hs).append hp
  cases p? <;> exact h

/-- It settles the parts of a sum one by one. -/
theorem expression_join {e : Expression} {op : Additive} {p : Product} {e? : Option Expression}
    {p? : Option Product}
    (he : rule.Settles idle refusal e.tokens (e?.map Expression.tokens))
    (hs : ∀ t ∈ (.operator op.val :: minusSign negated : Formula), idle t = true)
    (hp : rule.Settles idle refusal p.tokens (p?.map Product.tokens)) :
    rule.Settles idle refusal (Expression.join e op negated p).tokens
      ((e?.bind fun e => p?.map fun p => Expression.join e op negated p).map
        Expression.tokens) := by
  have h := he.join hs hp
  cases e? <;> cases p? <;> exact h

end Rule.Settles

/-! ## §2. Brackets replaced by values. -/

/-- The atom with the value of its brackets. -/
def Atom.withoutBrackets? : Atom → Option Atom
  | .number v n => some (.number v n)
  | .constant c => some (.constant c)
  | .bracket e => e.value?.map fun v => .number v 0

/-- The product without brackets. -/
def Product.withoutBrackets? : Product → Option Product
  | .single a => a.withoutBrackets?.map .single
  | .join p op negated a =>
      p.withoutBrackets?.bind fun p' => a.withoutBrackets?.map fun a' => .join p' op negated a'

/-- The expression without brackets. -/
def Expression.withoutBrackets? : Expression → Option Expression
  | .single negated p => p.withoutBrackets?.map (.single negated)
  | .join e op negated p =>
      e.withoutBrackets?.bind fun e' => p.withoutBrackets?.map fun p' => .join e' op negated p'

/-- Brackets replaced by their value leave the value of an atom as it is. -/
theorem value?_withoutBrackets_atom (a : Atom) :
    a.withoutBrackets?.bind Atom.value? = a.value? := by
  cases a with
  | bracket e =>
    show (e.value?.map _).bind _ = e.value?
    cases e.value? <;> rfl
  | _ => rfl

/-- The same for a product. -/
theorem value?_withoutBrackets_product (p : Product) :
    p.withoutBrackets?.bind Product.value? = p.value? := by
  match p with
  | .single a =>
    rw [Product.withoutBrackets?, value?_single, value?_withoutBrackets_atom, Product.value?]
  | .join p op negated a =>
    rw [Product.withoutBrackets?, value?_join, value?_withoutBrackets_product p,
      value?_withoutBrackets_atom, Product.value?]
    rfl

theorem sum?_withoutBrackets (e : Expression) :
    e.withoutBrackets?.bind Expression.sum? = e.sum? := by
  match e with
  | .single negated p =>
    rw [Expression.withoutBrackets?, sum?_single, value?_withoutBrackets_product,
      Expression.sum?]
  | .join e op negated p =>
    rw [Expression.withoutBrackets?, sum?_join, sum?_withoutBrackets e,
      value?_withoutBrackets_product, Expression.sum?]
    rfl

/-- Brackets replaced by their values leave the value of the expression as it
is. -/
theorem value?_withoutBrackets (e : Expression) :
    e.withoutBrackets?.bind Expression.value? = e.value? := by
  unfold Expression.value?
  rw [← sum?_withoutBrackets e]
  cases e.withoutBrackets? <;> rfl

/-- An atom without brackets and factorial signs is flat. -/
theorem flat_withoutBrackets_atom {a a' : Atom} (h : a.withoutBrackets? = some a')
    (hf : ∀ t ∈ a.tokens, notFactorial t = true) : ∀ t ∈ a'.tokens, isFlat t = true := by
  cases a with
  | number v n =>
    cases h
    intro t ht
    have hft := hf t ht
    rcases List.mem_cons.1 ht with ht | ht
    · rw [ht]
      rfl
    · rw [List.eq_of_mem_replicate ht] at hft
      cases hft
  | constant c =>
    cases h
    intro t ht
    rw [List.mem_singleton.1 ht]
    rfl
  | bracket e =>
    obtain ⟨v, -, rfl⟩ := Option.map_eq_some_iff.1 h
    intro t ht
    rw [List.mem_singleton.1 ht]
    rfl

theorem flat_withoutBrackets_product {p p' : Product} (h : p.withoutBrackets? = some p')
    (hf : ∀ t ∈ p.tokens, notFactorial t = true) : ∀ t ∈ p'.tokens, isFlat t = true := by
  match p with
  | .single a =>
    obtain ⟨a', ha, rfl⟩ := Option.map_eq_some_iff.1 h
    exact flat_withoutBrackets_atom ha hf
  | .join p op negated a =>
    obtain ⟨p'', hp, h⟩ := Option.bind_eq_some_iff.1 h
    obtain ⟨a', ha, rfl⟩ := Option.map_eq_some_iff.1 h
    obtain ⟨hfp, -, hfa⟩ := forall_mem_join (s := .operator op.val :: minusSign negated).1 hf
    exact forall_mem_join (s := .operator op.val :: minusSign negated).2
      ⟨flat_withoutBrackets_product hp hfp, flat_signs op.ne_factorial negated,
        flat_withoutBrackets_atom ha hfa⟩

/-- Without brackets and factorial signs the expression is flat. -/
theorem flat_withoutBrackets {e e' : Expression} (h : e.withoutBrackets? = some e')
    (hf : ∀ t ∈ e.tokens, notFactorial t = true) : ∀ t ∈ e'.tokens, isFlat t = true := by
  match e with
  | .single negated p =>
    obtain ⟨p', hp, rfl⟩ := Option.map_eq_some_iff.1 h
    have hfp : ∀ t ∈ p.tokens, notFactorial t = true := fun t ht =>
      hf t (List.mem_append_right _ ht)
    intro t ht
    rcases List.mem_append.1 ht with ht | ht
    · rw [mem_minusSign ht]
      rfl
    · exact flat_withoutBrackets_product hp hfp t ht
  | .join e op negated p =>
    obtain ⟨e'', he, h⟩ := Option.bind_eq_some_iff.1 h
    obtain ⟨p', hp, rfl⟩ := Option.map_eq_some_iff.1 h
    obtain ⟨hfe, -, hfp⟩ := forall_mem_join (s := .operator op.val :: minusSign negated).1 hf
    exact forall_mem_join (s := .operator op.val :: minusSign negated).2
      ⟨flat_withoutBrackets he hfe, flat_signs op.ne_factorial negated,
        flat_withoutBrackets_product hp hfp⟩

/-! ## §3. The bracket stage. -/

theorem notRight_of_flat {t : Token} (h : isFlat t = true) : notRight t = true :=
  (Bool.and_eq_true_iff.1 (Bool.and_eq_true_iff.1 h).1).2

theorem notRight_minusSign (negated : Bool) : ∀ t ∈ minusSign negated, notRight t = true := by
  intro t ht
  rw [mem_minusSign ht]
  rfl

/-- A pair of brackets around a flat expression is a window. -/
theorem settles_pair {e : Expression} (hflat : ∀ t ∈ e.tokens, isFlat t = true) :
    brackets.Settles notRight .divisionByZero ([.leftBracket] ++ (e.tokens ++ [.rightBracket]))
      ((evaluateFlat e.tokens).toOption.map fun v => [Token.ofDecimal v]) := by
  refine Rule.Settles.of_window (fun _ => rfl) ?_ ?_
  · intro error herror
    rw [evaluateFlat_tokens e hflat] at herror
    cases hv : e.value? with
    | none =>
      rw [hv] at herror
      cases herror
      rfl
    | some v =>
      rw [hv] at herror
      cases herror
  · intro before after hb
    have hcut : before ++ ([.leftBracket] ++ (e.tokens ++ [.rightBracket])) ++ after
        = before ++ .leftBracket :: (e.tokens ++ .rightBracket :: after) := by
      simp only [List.append_assoc, List.cons_append, List.nil_append]
    show findBrackets _ = _
    rw [hcut, findBrackets_cut after hb fun t ht => (Bool.and_eq_true_iff.1 (hflat t ht)).1]
    cases evaluateFlat e.tokens <;> rfl

/-- The value that takes the place of a pair is that of the tree. -/
theorem bind_withoutBrackets (e : Expression) (hf : ∀ t ∈ e.tokens, notFactorial t = true) :
    ((e.withoutBrackets?.map Expression.tokens).bind fun f =>
        (evaluateFlat f).toOption.map fun v => [Token.ofDecimal v])
      = (Atom.bracket e).withoutBrackets?.map Atom.tokens := by
  have hvalue := value?_withoutBrackets e
  show _ = (e.value?.map fun v => Atom.number v 0).map Atom.tokens
  rw [← hvalue]
  cases he : e.withoutBrackets? with
  | none => rfl
  | some e' =>
    show (evaluateFlat e'.tokens).toOption.map _ = (e'.value?.map _).map _
    rw [evaluateFlat_tokens e' (flat_withoutBrackets he hf)]
    cases hv : e'.value? with
    | none => rfl
    | some v =>
      obtain ⟨x, -, rfl⟩ := Option.map_eq_some_iff.1 hv
      show some [Token.number x.normalized.normalized] = some [Token.number x.normalized]
      rw [Decimal.normalized_normalized]

-- The brackets inside a pair are worked off first, with the left bracket of the
-- pair among what stands in front of them; then the pair is an innermost one.
mutual

/-- The bracket stage takes an atom to the atom with the value of its brackets. -/
theorem settles_brackets_atom : ∀ (a : Atom), (∀ t ∈ a.tokens, notFactorial t = true) →
    brackets.Settles notRight .divisionByZero a.tokens (a.withoutBrackets?.map Atom.tokens)
  | .number v n, h => by
    refine Rule.Settles.of_idle ?_
    intro t ht
    rcases List.mem_cons.1 ht with ht | ht
    · rw [ht]
      rfl
    · rw [List.eq_of_mem_replicate ht]
      rfl
  | .constant c, h => by
    refine Rule.Settles.of_idle ?_
    intro t ht
    rw [List.mem_singleton.1 ht]
    rfl
  | .bracket e, h => by
    have hfe : ∀ t ∈ e.tokens, notFactorial t = true := fun t ht =>
      h t (List.mem_cons_of_mem _ (List.mem_append_left _ ht))
    have hs := settles_brackets_expression e hfe
    have htokens : (Atom.bracket e).tokens = [.leftBracket] ++ (e.tokens ++ [.rightBracket]) := rfl
    rw [htokens, ← bind_withoutBrackets e hfe]
    refine hs.inside _ (by intro t ht; rw [List.mem_singleton.1 ht]; rfl) ?_
    intro f hf
    obtain ⟨e', he', rfl⟩ := Option.map_eq_some_iff.1 hf
    exact settles_pair (flat_withoutBrackets he' hfe)

/-- The same for a product. -/
theorem settles_brackets_product : ∀ (p : Product), (∀ t ∈ p.tokens, notFactorial t = true) →
    brackets.Settles notRight .divisionByZero p.tokens (p.withoutBrackets?.map Product.tokens)
  | .single a, h => (settles_brackets_atom a h).product_single
  | .join p op negated a, h => by
    obtain ⟨hfp, -, hfa⟩ := forall_mem_join (s := .operator op.val :: minusSign negated).1 h
    exact (settles_brackets_product p hfp).product_join
      (fun t ht => notRight_of_flat (flat_signs op.ne_factorial negated t ht))
      (settles_brackets_atom a hfa)

/-- The same for an expression. -/
theorem settles_brackets_expression : ∀ (e : Expression),
    (∀ t ∈ e.tokens, notFactorial t = true) →
    brackets.Settles notRight .divisionByZero e.tokens
      (e.withoutBrackets?.map Expression.tokens)
  | .single negated p, h =>
    (settles_brackets_product p fun t ht => h t (List.mem_append_right _ ht)).expression_single
      (notRight_minusSign negated)
  | .join e op negated p, h => by
    obtain ⟨hfe, -, hfp⟩ := forall_mem_join (s := .operator op.val :: minusSign negated).1 h
    exact (settles_brackets_expression e hfe).expression_join
      (fun t ht => notRight_of_flat (flat_signs op.ne_factorial negated t ht))
      (settles_brackets_product p hfp)

end

end PocketCalc
