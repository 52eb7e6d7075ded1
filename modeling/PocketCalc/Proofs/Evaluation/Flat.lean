/-
  PocketCalc.Proofs.Evaluation.Flat
  ─────────────────────────────────
  **FORMULAS WITHOUT BRACKETS AND FACTORIALS.**

  A rule settles a piece of a formula if it works the piece off before it touches
  anything behind it, whatever stands around the piece:

      rule.exhaust (before ++ f ++ after) = rule.exhaust (before ++ g ++ after)

  for every `before` in which the rule finds nothing.  Pieces that are settled one
  by one are settled together (`Settles.append`), so a stage of the evaluator is
  understood by an induction over the syntax tree.  Here this is done for the last
  two stages: an expression without brackets and factorial signs has the value of
  its tree (`evaluateFlat_tokens`).
-/
import PocketCalc.Proofs.Decimal.Normal
import PocketCalc.Proofs.Evaluation.Windows

namespace PocketCalc

/-! ## §1. Settled pieces. -/

/-- The value, or a refusal if there is none. -/
def orRefuse {α : Type} (refusal : EvalError) : Option α → Except EvalError α
  | some x => .ok x
  | none => .error refusal

/-- The outcome of a rule on a formula whose middle piece is `g?`, or a refusal if
there is none. -/
def Rule.exhaustWith (rule : Rule) (refusal : EvalError) (before after : Formula) :
    Option Formula → Except EvalError Formula
  | some g => rule.exhaust (before ++ g ++ after)
  | none => .error refusal

/-- The rule turns the piece `f` into `g?`, or refuses it, before it touches what
stands behind it.  A token is idle if the rule finds nothing at it. -/
structure Rule.Settles (rule : Rule) (idle : Token → Bool) (refusal : EvalError) (f : Formula)
    (g? : Option Formula) : Prop where
  settled : ∀ g, g? = some g → ∀ t ∈ g, idle t = true
  exhaust : ∀ before after, (∀ t ∈ before, idle t = true) →
    rule.exhaust (before ++ f ++ after) = rule.exhaustWith refusal before after g?

namespace Rule.Settles

variable {rule : Rule} {idle : Token → Bool} {refusal : EvalError} {f g s : Formula}
  {f? g? : Option Formula}

/-- A piece of idle tokens is settled as it is. -/
theorem of_idle (hf : ∀ t ∈ f, idle t = true) : rule.Settles idle refusal f (some f) := by
  refine ⟨?_, fun _ _ _ => rfl⟩
  intro g hg
  cases hg
  exact hf

/-- Two pieces are settled one after the other. -/
theorem append (hf : rule.Settles idle refusal f f?) (hg : rule.Settles idle refusal g g?) :
    rule.Settles idle refusal (f ++ g) (f?.bind fun a => g?.map fun b => a ++ b) := by
  refine ⟨?_, ?_⟩
  · intro h hh t ht
    obtain ⟨a, ha, hh⟩ := Option.bind_eq_some_iff.1 hh
    obtain ⟨b, hb, rfl⟩ := Option.map_eq_some_iff.1 hh
    rcases List.mem_append.1 ht with ht | ht
    · exact hf.settled a ha t ht
    · exact hg.settled b hb t ht
  · intro before after hb
    have hfg : before ++ (f ++ g) ++ after = before ++ f ++ (g ++ after) := by
      simp only [List.append_assoc]
    rw [hfg, hf.exhaust before (g ++ after) hb]
    cases f? with
    | none => rfl
    | some a =>
      -- What the first piece has become is idle, so it joins what stands in front.
      have hba : ∀ t ∈ before ++ a, idle t = true :=
        List.forall_mem_append.2 ⟨hb, hf.settled a rfl⟩
      show rule.exhaust (before ++ a ++ (g ++ after)) = _
      rw [← List.append_assoc (before ++ a), hg.exhaust (before ++ a) after hba]
      cases g? with
      | none => rfl
      | some b => simp only [Rule.exhaustWith, Option.bind_some, Option.map_some, List.append_assoc]

/-- Two pieces with idle tokens between them. -/
theorem join (hf : rule.Settles idle refusal f f?) (hs : ∀ t ∈ s, idle t = true)
    (hg : rule.Settles idle refusal g g?) :
    rule.Settles idle refusal (f ++ (s ++ g))
      (f?.bind fun a => g?.map fun b => a ++ (s ++ b)) := by
  have h := hf.append ((of_idle hs).append hg)
  simpa only [Option.bind_some, Option.map_map, Function.comp_def] using h

/-- A piece inside another one is settled first, if what stands in front of it is
idle. -/
theorem inside (h? : Formula → Option Formula) (hs : ∀ t ∈ s, idle t = true)
    (hf : rule.Settles idle refusal f f?)
    (hrest : ∀ a, f? = some a → rule.Settles idle refusal (s ++ (a ++ g)) (h? a)) :
    rule.Settles idle refusal (s ++ (f ++ g)) (f?.bind h?) := by
  refine ⟨?_, ?_⟩
  · intro h hh
    obtain ⟨a, ha, hh⟩ := Option.bind_eq_some_iff.1 hh
    exact (hrest a ha).settled h hh
  · intro before after hb
    have hbs : ∀ t ∈ before ++ s, idle t = true := List.forall_mem_append.2 ⟨hb, hs⟩
    have hfg : before ++ (s ++ (f ++ g)) ++ after = before ++ s ++ f ++ (g ++ after) := by
      simp only [List.append_assoc]
    rw [hfg, hf.exhaust (before ++ s) (g ++ after) hbs]
    cases f? with
    | none => rfl
    | some a =>
      have hag : before ++ s ++ a ++ (g ++ after) = before ++ (s ++ (a ++ g)) ++ after := by
        simp only [List.append_assoc]
      show rule.exhaust (before ++ s ++ a ++ (g ++ after)) = _
      rw [hag]
      exact (hrest a rfl).exhaust before after hb

/-- A window of the rule is settled to the token of its value, or refused. -/
theorem of_window {r : Except EvalError Decimal} (hvalue : ∀ v, idle (Token.ofDecimal v) = true)
    (hrefusal : ∀ e, r = .error e → e = refusal)
    (hfind : ∀ before after, (∀ t ∈ before, idle t = true) →
      rule.find (before ++ f ++ after) = r.map fun v => some ⟨before, v, after⟩) :
    rule.Settles idle refusal f (r.toOption.map fun v => [Token.ofDecimal v]) := by
  refine ⟨?_, ?_⟩
  · intro g hg t ht
    obtain ⟨v, -, rfl⟩ := Option.map_eq_some_iff.1 hg
    rw [List.mem_singleton.1 ht]
    exact hvalue v
  · intro before after hb
    have hwindow := hfind before after hb
    cases r with
    | error e =>
      rw [rule.exhaust_of_error hwindow, hrefusal e rfl]
      rfl
    | ok v =>
      rw [rule.exhaust_of_some hwindow]
      show rule.exhaust (before ++ Token.ofDecimal v :: after) = _
      rw [List.append_cons]
      rfl

/-- A formula that is settled as a whole. -/
theorem exhaust_eq (hf : rule.Settles idle refusal f g?)
    (hnone : ∀ g, (∀ t ∈ g, idle t = true) → g? = some g → rule.find g = .ok none) :
    rule.exhaust f = orRefuse refusal g? := by
  have h := hf.exhaust [] [] (fun t ht => nomatch ht)
  simp only [List.nil_append, List.append_nil] at h
  rw [h]
  cases g? with
  | none => rfl
  | some g =>
    simp only [exhaustWith, List.nil_append, List.append_nil]
    exact rule.exhaust_of_none (hnone g (hf.settled g rfl) rfl)

end Rule.Settles

/-! ## §2. Flat formulas. -/

/-- Is the token neither a bracket nor a factorial sign? -/
def isFlat (t : Token) : Bool := notBracket t && notFactorial t

theorem mem_minusSign {negated : Bool} {t : Token} (h : t ∈ minusSign negated) :
    t = .operator .minus := by
  cases negated with
  | true => exact List.mem_singleton.1 h
  | false => cases h

/-- A flat atom is one token. -/
theorem exists_token_of_flat (a : Atom) (h : ∀ t ∈ a.tokens, isFlat t = true) :
    ∃ t x, a.tokens = [t] ∧ t.value? = some x ∧ a.value? = some x := by
  cases a with
  | number v n =>
    cases n with
    | zero => exact ⟨.number v, v, rfl, rfl, rfl⟩
    | succ n =>
      have hbad := h (.operator .factorial) (List.mem_cons_of_mem _ List.mem_cons_self)
      cases hbad
  | constant c => exact ⟨.constant c, c.value, rfl, rfl, rfl⟩
  | bracket e =>
    have hbad := h .leftBracket List.mem_cons_self
    cases hbad

/-! ## §3. Products and quotients. -/

theorem Additive.ne_factorial (op : Additive) : op.val ≠ .factorial := by
  intro h
  have hop := op.property
  rw [h] at hop
  cases hop

theorem Tight.ne_factorial (op : Tight) : op.val ≠ .factorial := by
  intro h
  have hop := op.property
  rw [h] at hop
  cases hop

/-- A product or quotient of two values is a window. -/
theorem settles_operation {t u : Token} {x y : Decimal} (ht : t.value? = some x)
    (hu : u.value? = some y) (op : Tight) (negated : Bool) :
    products.Settles notProduct .divisionByZero
      (t :: .operator op.val :: (minusSign negated ++ [u]))
      ((op.val.apply x (y.signed negated)).toOption.map fun v => [Token.ofDecimal v]) := by
  refine Rule.Settles.of_window (fun _ => rfl) (fun e => apply_error op.ne_factorial) ?_
  intro before after hb
  have hcut : before ++ t :: .operator op.val :: (minusSign negated ++ [u]) ++ after
      = before ++ t :: .operator op.val :: (minusSign negated ++ u :: after) := by
    simp only [List.append_assoc, List.cons_append, List.nil_append]
  show findProduct _ = _
  rw [hcut, findProduct_cut after op negated hb ht hu]
  cases op.val.apply x (y.signed negated) <;> rfl

/-- A product is worked off to one token that carries its value. -/
theorem settles_product : ∀ (p : Product), (∀ t ∈ p.tokens, isFlat t = true) →
    (p.value? = none ∧ products.Settles notProduct .divisionByZero p.tokens none) ∨
      ∃ t x, p.value? = some x ∧ t.value? = some x
        ∧ products.Settles notProduct .divisionByZero p.tokens (some [t])
  | .single a, h => by
    obtain ⟨t, x, ht, hx, ha⟩ := exists_token_of_flat a h
    right
    refine ⟨t, x, ha, hx, ?_⟩
    show products.Settles _ _ a.tokens _
    rw [ht]
    refine Rule.Settles.of_idle ?_
    intro s hs
    rw [List.mem_singleton.1 hs]
    exact notProduct_of_value hx
  | .join p op negated a, h => by
    have hp : ∀ t ∈ p.tokens, isFlat t = true := fun t ht => h t (List.mem_append_left _ ht)
    have ha : ∀ t ∈ a.tokens, isFlat t = true := fun t ht =>
      h t (List.mem_append_right _ (List.mem_cons_of_mem _ (List.mem_append_right _ ht)))
    obtain ⟨u, y, hu, hy, hya⟩ := exists_token_of_flat a ha
    have htokens : (Product.join p op negated a).tokens
        = [] ++ (p.tokens ++ (.operator op.val :: (minusSign negated ++ [u]))) := by
      rw [Product.tokens, hu]
      rfl
    rw [htokens]
    rcases settles_product p hp with ⟨hnone, hs⟩ | ⟨t, x, hx, ht, hs⟩
    · -- A refused product refuses everything it is a factor of.
      left
      refine ⟨by simp only [Product.value?, hnone, Option.bind_eq_bind, Option.bind_none], ?_⟩
      refine hs.inside (fun _ => none) (List.forall_mem_nil _) ?_
      intro g hg
      cases hg
    · have hvalue : (Product.join p op negated a).value?
          = (op.val.apply x (y.signed negated)).toOption := by
        simp only [Product.value?, hx, hya, Option.bind_eq_bind, Option.bind_some]
      have hall := hs.inside (fun _ => (op.val.apply x (y.signed negated)).toOption.map
        fun v => [Token.ofDecimal v]) (List.forall_mem_nil _) (by
          intro g hg
          cases hg
          exact settles_operation ht hy op negated)
      rw [hvalue]
      -- What is left is the value of the last operation, or its refusal.
      cases hv : op.val.apply x (y.signed negated) with
      | error e =>
        rw [hv] at hall
        exact .inl ⟨rfl, hall⟩
      | ok v =>
        rw [hv] at hall
        refine .inr ⟨Token.ofDecimal v, v, rfl, ?_, hall⟩
        show some v.normalized = some v
        rw [isNormal_of_apply hv]

/-! ## §4. Sums and differences. -/

/-- The sum of a formula that begins with a term. -/
def sumFrom (f : Formula) : Except EvalError Decimal :=
  match takeTerm f with
  | some (x, rest) => addTerms x rest
  | none => .error .invalidExpression

theorem addTerms_nil (x : Decimal) : addTerms x [] = .ok x.normalized := by
  rw [addTerms]

theorem addTerms_term {t : Token} {y : Decimal} (x : Decimal) (op : Additive) (negated : Bool)
    (ht : t.value? = some y) (rest : Formula) :
    addTerms x (.operator op.val :: (minusSign negated ++ t :: rest)) =
      match op.val.apply x (y.signed negated) with
      | .ok v => addTerms v rest
      | .error e => .error e := by
  rw [addTerms, if_pos op.property]
  split
  · next z rest' h =>
    rw [takeTerm_minusSign negated ht] at h
    cases h
    rfl
  · next h =>
    rw [takeTerm_minusSign negated ht] at h
    cases h

/-- Sums and differences are never refused. -/
theorem exists_apply_additive (op : Additive) (x y : Decimal) :
    ∃ v, op.val.apply x y = .ok v := by
  obtain ⟨op, hop⟩ := op
  cases op <;> first | exact ⟨_, rfl⟩ | cases hop

theorem notProduct_additive (op : Additive) (negated : Bool) :
    ∀ t ∈ (.operator op.val :: minusSign negated : Formula), notProduct t = true := by
  intro t ht
  rcases List.mem_cons.1 ht with ht | ht
  · rw [ht]
    obtain ⟨op, hop⟩ := op
    cases op <;> first | rfl | cases hop
  · rw [mem_minusSign ht]
    rfl

/-- An expression is worked off to a formula of terms whose sum is that of the
expression. -/
theorem settles_expression : ∀ (e : Expression), (∀ t ∈ e.tokens, isFlat t = true) →
    (e.sum? = none ∧ products.Settles notProduct .divisionByZero e.tokens none) ∨
      ∃ g x, e.sum? = some x ∧ products.Settles notProduct .divisionByZero e.tokens (some g)
        ∧ g.any Token.isValue = true ∧ ∀ rest, sumFrom (g ++ rest) = addTerms x rest
  | .single negated p, h => by
    have hp : ∀ t ∈ p.tokens, isFlat t = true := fun t ht => h t (List.mem_append_right _ ht)
    have hsign : products.Settles notProduct .divisionByZero (minusSign negated)
        (some (minusSign negated)) := by
      refine Rule.Settles.of_idle ?_
      intro t ht
      rw [mem_minusSign ht]
      rfl
    rcases settles_product p hp with ⟨hnone, hs⟩ | ⟨t, x, hx, ht, hs⟩
    · left
      exact ⟨by simp only [Expression.sum?, hnone, Option.map_none], hsign.append hs⟩
    · right
      refine ⟨minusSign negated ++ [t], x.signed negated,
        by simp only [Expression.sum?, hx, Option.map_some], hsign.append hs, ?_, ?_⟩
      · cases t <;> first | (cases negated <;> rfl) | cases ht
      · intro rest
        unfold sumFrom
        rw [List.append_assoc, List.singleton_append, takeTerm_minusSign negated ht]
  | .join e op negated p, h => by
    have he : ∀ t ∈ e.tokens, isFlat t = true := fun t ht => h t (List.mem_append_left _ ht)
    have hp : ∀ t ∈ p.tokens, isFlat t = true := fun t ht =>
      h t (List.mem_append_right _ (List.mem_cons_of_mem _ (List.mem_append_right _ ht)))
    have hop := notProduct_additive op negated
    rcases settles_expression e he with ⟨hnone, hse⟩ | ⟨g, x, hx, hse, hval, hsum⟩
    · -- A refusal on the left comes first, whatever stands on the right.
      left
      rcases settles_product p hp with ⟨-, hs⟩ | ⟨t, y, -, -, hs⟩
      · exact ⟨by simp only [Expression.sum?, hnone, Option.bind_eq_bind, Option.bind_none],
          hse.join hop hs⟩
      · exact ⟨by simp only [Expression.sum?, hnone, Option.bind_eq_bind, Option.bind_none],
          hse.join hop hs⟩
    · rcases settles_product p hp with ⟨hnone, hs⟩ | ⟨t, y, hy, ht, hs⟩
      · left
        exact ⟨by simp only [Expression.sum?, hx, hnone, Option.bind_eq_bind, Option.bind_none,
          Option.bind_some], hse.join hop hs⟩
      · -- Both terms have a value, and so has their sum.
        right
        obtain ⟨v, hv⟩ := exists_apply_additive op x (y.signed negated)
        refine ⟨g ++ (.operator op.val :: minusSign negated ++ [t]), v, ?_, hse.join hop hs, ?_, ?_⟩
        · simp only [Expression.sum?, hx, hy, hv, Option.bind_eq_bind, Option.bind_some]
          rfl
        · rw [List.any_append, hval, Bool.true_or]
        · intro rest
          have hassoc : g ++ (.operator op.val :: minusSign negated ++ [t]) ++ rest
              = g ++ (.operator op.val :: (minusSign negated ++ t :: rest)) := by
            simp only [List.append_assoc, List.cons_append, List.nil_append]
          rw [hassoc, hsum, addTerms_term x op negated ht, hv]

/-! ## §5. The value of a flat formula. -/

theorem tokens_ne_nil (e : Expression) : e.tokens ≠ [] := by
  have hatom : ∀ a : Atom, a.tokens ≠ [] := by
    intro a
    cases a <;> exact List.cons_ne_nil _ _
  have hproduct : ∀ p : Product, p.tokens ≠ [] := by
    intro p
    cases p with
    | single a => exact hatom a
    | join p op negated a => exact List.append_ne_nil_of_right_ne_nil _ (List.cons_ne_nil _ _)
  cases e with
  | single negated p => exact List.append_ne_nil_of_right_ne_nil _ (hproduct p)
  | join e op negated p => exact List.append_ne_nil_of_right_ne_nil _ (List.cons_ne_nil _ _)

/-- **A flat expression has the value of its tree**; only a zero divisor refuses
it. -/
theorem evaluateFlat_tokens (e : Expression) (h : ∀ t ∈ e.tokens, isFlat t = true) :
    evaluateFlat e.tokens = orRefuse .divisionByZero e.value? := by
  have hidle : ∀ g, (∀ t ∈ g, notProduct t = true) → products.find g = .ok none :=
    fun g hg => findProduct_idle hg
  unfold evaluateFlat
  rw [if_neg (by simpa using tokens_ne_nil e)]
  rcases settles_expression e h with ⟨hnone, hs⟩ | ⟨g, x, hx, hs, hval, hsum⟩
  · rw [hs.exhaust_eq fun g hg _ => hidle g hg]
    simp only [Expression.value?, hnone, Option.map_none, orRefuse]
  · rw [hs.exhaust_eq fun g hg _ => hidle g hg]
    have hfrom := hsum []
    rw [List.append_nil, addTerms_nil] at hfrom
    show sumTerms g = _
    simp only [Expression.value?, hx, Option.map_some, orRefuse]
    rw [← hfrom, sumTerms, if_pos hval]
    rfl

end PocketCalc
