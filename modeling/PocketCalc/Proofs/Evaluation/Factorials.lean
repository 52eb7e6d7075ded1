/-
  PocketCalc.Proofs.Evaluation.Factorials
  ───────────────────────────────────────
  **THE FACTORIAL STAGE ON SYNTAX TREES.**

  The factorial stage replaces every number with factorial signs by its factorial
  (`withoutFactorials?`), inside brackets too, and leaves the value of the tree as
  it is.  It refuses a formula exactly if one of the numbers is refused by its
  signs (`isSome_withoutFactorials`).
-/
import PocketCalc.Proofs.Evaluation.Stages

namespace PocketCalc

/-! ## §1. Numbers replaced by their factorials. -/

mutual

/-- The atom without factorial signs. -/
def Atom.withoutFactorials? : Atom → Option Atom
  | .number v n => (v.factorials? n).map fun w => .number w 0
  | .constant c => some (.constant c)
  | .bracket e => e.withoutFactorials?.map .bracket

/-- The product without factorial signs. -/
def Product.withoutFactorials? : Product → Option Product
  | .single a => a.withoutFactorials?.map .single
  | .join p op negated a =>
      p.withoutFactorials?.bind fun p' =>
        a.withoutFactorials?.map fun a' => .join p' op negated a'

/-- The expression without factorial signs. -/
def Expression.withoutFactorials? : Expression → Option Expression
  | .single negated p => p.withoutFactorials?.map (.single negated)
  | .join e op negated p =>
      e.withoutFactorials?.bind fun e' =>
        p.withoutFactorials?.map fun p' => .join e' op negated p'

end

mutual

/-- Factorials taken in advance leave the value of an atom as it is. -/
theorem value?_withoutFactorials_atom : ∀ a : Atom,
    a.withoutFactorials?.bind Atom.value? = a.value?
  | .number v n => by
    show ((v.factorials? n).map _).bind _ = v.factorials? n
    cases v.factorials? n <;> rfl
  | .constant c => rfl
  | .bracket e => by
    have he := sum?_withoutFactorials e
    rw [Atom.withoutFactorials?, Atom.value?, ← he]
    cases e.withoutFactorials? <;> rfl

/-- The same for a product. -/
theorem value?_withoutFactorials_product : ∀ p : Product,
    p.withoutFactorials?.bind Product.value? = p.value?
  | .single a => by
    rw [Product.withoutFactorials?, value?_single, value?_withoutFactorials_atom a, Product.value?]
  | .join p op negated a => by
    rw [Product.withoutFactorials?, value?_join, value?_withoutFactorials_product p,
      value?_withoutFactorials_atom a, Product.value?]
    rfl

/-- The same for the sum of an expression, before it is normalised. -/
theorem sum?_withoutFactorials : ∀ e : Expression,
    e.withoutFactorials?.bind Expression.sum? = e.sum?
  | .single negated p => by
    rw [Expression.withoutFactorials?, sum?_single, value?_withoutFactorials_product p,
      Expression.sum?]
  | .join e op negated p => by
    rw [Expression.withoutFactorials?, sum?_join, sum?_withoutFactorials e,
      value?_withoutFactorials_product p, Expression.sum?]
    rfl

end

/-- Factorials taken in advance leave the value of the expression as it is. -/
theorem value?_withoutFactorials (e : Expression) :
    e.withoutFactorials?.bind Expression.value? = e.value? := by
  unfold Expression.value?
  rw [← sum?_withoutFactorials e]
  cases e.withoutFactorials? <;> rfl

/-! ## §2. The factorial stage. -/

theorem notFactorial_minusSign (negated : Bool) :
    ∀ t ∈ minusSign negated, notFactorial t = true := by
  intro t ht
  rw [mem_minusSign ht]
  rfl

theorem notFactorial_signs {op : Operator} (h : op ≠ .factorial) (negated : Bool) :
    ∀ t ∈ (.operator op :: minusSign negated : Formula), notFactorial t = true := fun t ht =>
  (Bool.and_eq_true_iff.1 (flat_signs h negated t ht)).2

/-- A number and its factorial signs become one number, or the stage refuses them. -/
theorem settles_factorials_number (v : Decimal) (n : Nat) :
    factorials.Settles notFactorial .invalidExpression
      (.number v :: List.replicate n (.operator .factorial))
      ((v.factorials? n).map fun w => [.number w]) := by
  refine ⟨?_, ?_⟩
  · intro g hg t ht
    obtain ⟨w, -, rfl⟩ := Option.map_eq_some_iff.1 hg
    rw [List.mem_singleton.1 ht]
    rfl
  · intro before after hb
    -- one factorial sign goes at a time, the first one first
    induction n generalizing v with
    | zero => rfl
    | succ n ih =>
      have hcut : before ++ (.number v :: List.replicate (n + 1) (.operator .factorial)) ++ after
          = before ++ .number v :: .operator .factorial ::
              (List.replicate n (.operator .factorial) ++ after) := by
        simp only [List.replicate_succ, List.append_assoc, List.cons_append]
      have hfind := findFactorial_cut (List.replicate n (.operator .factorial) ++ after) v hb
      rw [hcut, Decimal.factorials?]
      cases hv : v.factorial with
      | error e =>
        rw [hv] at hfind
        rw [Rule.exhaust_of_error factorials hfind, factorial_error hv]
        rfl
      | ok w =>
        rw [hv] at hfind
        rw [Rule.exhaust_of_some factorials hfind]
        have hw := ih w.normalized
        simp only [Reduction.result, Token.ofDecimal, Except.toOption, Option.bind_some]
        simpa only [List.append_assoc, List.cons_append] using hw

mutual

/-- The stage takes an atom to the atom without factorial signs. -/
theorem settles_factorials_atom : ∀ a : Atom,
    factorials.Settles notFactorial .invalidExpression a.tokens
      (a.withoutFactorials?.map Atom.tokens)
  | .number v n => by
    have h := settles_factorials_number v n
    rw [Atom.withoutFactorials?, Option.map_map]
    exact h
  | .constant c => by
    refine Rule.Settles.of_idle ?_
    intro t ht
    rw [List.mem_singleton.1 ht]
    rfl
  | .bracket e => by
    -- The stage looks inside brackets and leaves them where they are.
    have hleft : ∀ t ∈ ([.leftBracket] : Formula), notFactorial t = true := by decide
    have hright : ∀ t ∈ ([.rightBracket] : Formula), notFactorial t = true := by decide
    have h := (Rule.Settles.of_idle hleft).append
      ((settles_factorials_expression e).append (Rule.Settles.of_idle hright))
    rw [Atom.withoutFactorials?]
    cases he : e.withoutFactorials? <;> (rw [he] at h; exact h)

/-- The same for a product: no factorial sign stands between its factors. -/
theorem settles_factorials_product : ∀ p : Product,
    factorials.Settles notFactorial .invalidExpression p.tokens
      (p.withoutFactorials?.map Product.tokens)
  | .single a => (settles_factorials_atom a).product_single
  | .join p op negated a =>
    (settles_factorials_product p).product_join (notFactorial_signs op.ne_factorial negated)
      (settles_factorials_atom a)

/-- The same for an expression. -/
theorem settles_factorials_expression : ∀ e : Expression,
    factorials.Settles notFactorial .invalidExpression e.tokens
      (e.withoutFactorials?.map Expression.tokens)
  | .single negated p =>
    (settles_factorials_product p).expression_single (notFactorial_minusSign negated)
  | .join e op negated p =>
    (settles_factorials_expression e).expression_join (notFactorial_signs op.ne_factorial negated)
      (settles_factorials_product p)

end

/-! ## §3. Which formulas the stage refuses. -/

/-- Only a number can be refused by the signs behind it. -/
theorem factorialsAccepted_cons {t : Token} (ht : ∀ v, t ≠ .number v) (f : Formula) :
    Formula.factorialsAccepted (t :: f) = f.factorialsAccepted := by
  cases t with
  | number v => exact absurd rfl (ht v)
  | _ => rfl

/-- A formula is accepted in parts, unless the second part starts with a sign that belongs
to the last number of the first. -/
theorem factorialsAccepted_append {f g : Formula} (hg : g.head? ≠ some (.operator .factorial)) :
    Formula.factorialsAccepted (f ++ g) = (f.factorialsAccepted && g.factorialsAccepted) := by
  induction f with
  | nil => rfl
  | cons t f ih =>
    cases t with
    | number v =>
      -- The signs of a last number do not go on in `g`.
      have hstop : ∀ u, g.head? = some u → isFactorial u = false := by
        intro u hu
        have hne : u ≠ .operator .factorial := fun hsame => hg (hsame ▸ hu)
        simpa [isFactorial] using hne
      have htake := takeWhile_append_stop hstop f
      show (_ && _) = (_ && _ && _)
      rw [List.append_eq, htake, ih, Bool.and_assoc]
    | _ => exact ih

theorem factorialsAccepted_minusSign (negated : Bool) (f : Formula) :
    Formula.factorialsAccepted (minusSign negated ++ f) = f.factorialsAccepted := by
  cases negated <;> rfl

/-- Behind an operator the parts are accepted one by one. -/
theorem factorialsAccepted_join {f g : Formula} {op : Operator} (h : op ≠ .factorial)
    (negated : Bool) :
    Formula.factorialsAccepted (f ++ .operator op :: (minusSign negated ++ g))
      = (f.factorialsAccepted && g.factorialsAccepted) := by
  rw [factorialsAccepted_append (by simpa using h),
    factorialsAccepted_cons (t := .operator op) (fun v hv => nomatch hv),
    factorialsAccepted_minusSign]

theorem isSome_bind_map {α β γ : Type} (x? : Option α) (y? : Option β) (f : α → β → γ) :
    (x?.bind fun x => y?.map fun y => f x y).isSome = (x?.isSome && y?.isSome) := by
  cases x? <;> cases y? <;> rfl

mutual

/-- The stage refuses an atom exactly if a number of it is refused by its signs. -/
theorem isSome_withoutFactorials_atom : ∀ a : Atom,
    a.withoutFactorials?.isSome = a.tokens.factorialsAccepted
  | .number v n => by
    have htail : Formula.factorialsAccepted (List.replicate n (.operator .factorial)) = true := by
      induction n with
      | zero => rfl
      | succ n ih => exact ih
    have htake : (List.replicate n (Token.operator .factorial)).takeWhile isFactorial
        = List.replicate n (.operator .factorial) := by
      rw [List.takeWhile_replicate]
      rfl
    show ((v.factorials? n).map _).isSome = ((v.factorials? _).isSome && _)
    rw [htake, htail, List.length_replicate, Bool.and_true, Option.isSome_map]
  | .constant c => rfl
  | .bracket e => by
    have he := isSome_withoutFactorials e
    show (e.withoutFactorials?.map Atom.bracket).isSome
      = Formula.factorialsAccepted (e.tokens ++ [.rightBracket])
    rw [factorialsAccepted_append (by simp), Option.isSome_map, he]
    exact (Bool.and_true _).symm

theorem isSome_withoutFactorials_product : ∀ p : Product,
    p.withoutFactorials?.isSome = p.tokens.factorialsAccepted
  | .single a => by
    rw [Product.withoutFactorials?, Option.isSome_map, isSome_withoutFactorials_atom a]
    rfl
  | .join p op negated a => by
    rw [Product.withoutFactorials?, isSome_bind_map, isSome_withoutFactorials_product p,
      isSome_withoutFactorials_atom a, Product.tokens,
      factorialsAccepted_join op.ne_factorial negated]

/-- The factorial stage refuses an expression exactly if a number of it is refused
by its factorial signs. -/
theorem isSome_withoutFactorials : ∀ e : Expression,
    e.withoutFactorials?.isSome = e.tokens.factorialsAccepted
  | .single negated p => by
    rw [Expression.withoutFactorials?, Option.isSome_map, isSome_withoutFactorials_product p,
      Expression.tokens, factorialsAccepted_minusSign]
  | .join e op negated p => by
    rw [Expression.withoutFactorials?, isSome_bind_map, isSome_withoutFactorials e,
      isSome_withoutFactorials_product p, Expression.tokens,
      factorialsAccepted_join op.ne_factorial negated]

end

end PocketCalc
