/-
  PocketCalc.Proofs.Evaluation.Context
  ────────────────────────────────────
  **A PIECE OF A FORMULA MAY BE REPLACED BY ITS VALUE.**

  The stages pass over the whole formula, and nothing is known of what stands around
  the piece: it may lack brackets or operands, or be refused.  What saves the argument
  is that factorials and brackets are found from the left, by looking no farther than
  the first token that is not idle:

      StopsAt          a window in front of the piece is the same, whatever follows
      exhaust_front    so what holds behind idle tokens holds behind any formula

  Behind idle tokens the piece is settled; and what follows it is worked off by itself,
  as long as it does not begin with a factorial sign.
-/
import PocketCalc.Proofs.Evaluation.Value

namespace PocketCalc

/-! ## §1. Reductions in context. -/

namespace Reduction

/-- The reduction with more tokens in front. -/
def behind (before : Formula) (r : Reduction) : Reduction := { r with before := before ++ r.before }

/-- The reduction with more tokens at the end. -/
def followedBy (r : Reduction) (after : Formula) : Reduction := { r with after := r.after ++ after }

@[simp] theorem result_behind (before : Formula) (r : Reduction) :
    (r.behind before).result = before ++ r.result := by
  simp only [result, behind, List.append_assoc]

@[simp] theorem result_followedBy (r : Reduction) (after : Formula) :
    (r.followedBy after).result = r.result ++ after := by
  simp only [result, followedBy, List.append_assoc, List.cons_append]

end Reduction

/-- **The rule looks no farther than the first token that is not idle**, and it finds
something there. -/
structure Rule.StopsAt (rule : Rule) (idle : Token → Bool) : Prop where
  idle_of_none : ∀ {f}, rule.find f = .ok none → ∀ t ∈ f, idle t = true
  find_append : ∀ {before : Formula} {t : Token} (after rest : Formula),
    (∀ u ∈ before, idle u = true) → idle t = false →
      rule.find (before ++ t :: (after ++ rest))
        = (rule.find (before ++ t :: after)).map (Option.map fun r => r.followedBy rest)

/-- **What holds behind idle tokens holds behind any formula.**  Two formulas may be
exchanged at the end, as far as `outcome` tells. -/
theorem Rule.StopsAt.exhaust_front {rule : Rule} {idle : Token → Bool} (h : rule.StopsAt idle)
    {α : Type} (outcome : Except EvalError Formula → α) {f g : Formula}
    (hfg : ∀ before, (∀ t ∈ before, idle t = true) →
      outcome (rule.exhaust (before ++ f)) = outcome (rule.exhaust (before ++ g)))
    (before : Formula) :
    outcome (rule.exhaust (before ++ f)) = outcome (rule.exhaust (before ++ g)) := by
  -- The induction is on the length: every reduction in front shortens what stands there.
  induction hn : before.length using Nat.strongRecOn generalizing before with
  | _ n ih =>
    cases hstop : before.dropWhile idle with
    | nil => exact hfg before (idle_of_dropWhile hstop)
    | cons t after =>
      obtain ⟨hcut, ht⟩ := cut_of_dropWhile hstop
      -- The search goes no further than `t`, so what stands behind `before` is not seen.
      have hidle : ∀ u ∈ before.takeWhile idle, idle u = true := fun u => mem_takeWhile
      have hfind : ∀ rest, rule.find (before ++ rest)
          = (rule.find before).map (Option.map fun r => r.followedBy rest) := by
        intro rest
        have happend := h.find_append after rest hidle ht
        rw [← hcut] at happend
        rw [← happend, ← List.cons_append, ← List.append_assoc, ← hcut]
      have hf := hfind f
      have hg := hfind g
      cases hbefore : rule.find before with
      | error e =>
        rw [hbefore] at hf hg
        rw [rule.exhaust_of_error hf, rule.exhaust_of_error hg]
      | ok found =>
        cases found with
        | none =>
          have hidle' := h.idle_of_none hbefore t (hcut ▸ by simp)
          exact absurd (hidle'.symm.trans ht) (by decide)
        | some r =>
          rw [hbefore] at hf hg
          rw [rule.exhaust_of_some hf, rule.exhaust_of_some hg, r.result_followedBy,
            r.result_followedBy]
          exact ih r.result.length (hn ▸ rule.shortens hbefore) r.result rfl

/-! ## §2. The factorial stage. -/

/-- The factorial of the number at the end of a formula. -/
def lastFactorial (f : Formula) : Except EvalError Decimal :=
  match f.getLast? with
  | some (.number v) => v.factorial
  | _ => .error .invalidExpression

/-- At the first factorial sign, all depends on the token in front of it. -/
theorem findFactorial_stop {before : Formula} (after : Formula)
    (hb : ∀ t ∈ before, notFactorial t = true) :
    findFactorial (before ++ .operator .factorial :: after)
      = (lastFactorial before).map fun n => some ⟨before.dropLast, n, after⟩ := by
  unfold findFactorial lastFactorial
  rw [dropWhile_cut hb rfl, takeWhile_cut hb rfl]
  cases before.getLast? with
  | none => rfl
  | some t =>
    cases t with
    | number v =>
      dsimp only
      cases v.factorial <;> rfl
    | _ => rfl

theorem stopsAt_factorials : factorials.StopsAt notFactorial where
  idle_of_none := idle_of_findFactorial
  find_append := by
    intro before t after rest hb ht
    obtain rfl : t = .operator .factorial := by simpa [notFactorial] using ht
    show findFactorial _ = (findFactorial _).map _
    rw [findFactorial_stop (after ++ rest) hb, findFactorial_stop after hb]
    cases lastFactorial before <;> rfl

/-- Behind idle tokens the first factorial sign is found as if they were not there, unless
it comes right behind them. -/
theorem findFactorial_behind {before f : Formula} (hb : ∀ t ∈ before, notFactorial t = true)
    (hf : f.head? ≠ some (.operator .factorial)) :
    findFactorial (before ++ f) = (findFactorial f).map (Option.map (Reduction.behind before)) := by
  cases hstop : f.dropWhile notFactorial with
  | nil =>
    have hidle := idle_of_dropWhile hstop
    rw [findFactorial_idle (List.forall_mem_append.2 ⟨hb, hidle⟩), findFactorial_idle hidle]
    rfl
  | cons t after =>
    obtain ⟨hcut, ht⟩ := cut_of_dropWhile hstop
    obtain rfl : t = .operator .factorial := by simpa [notFactorial] using ht
    have hidle : ∀ u ∈ f.takeWhile notFactorial, notFactorial u = true := fun u => mem_takeWhile
    generalize f.takeWhile notFactorial = front at hcut hidle
    subst hcut
    -- The sign is not the first token, so the one in front of it is the same.
    have hfront : front ≠ [] := by
      rintro rfl
      exact hf rfl
    have hlast : lastFactorial (before ++ front) = lastFactorial front := by
      unfold lastFactorial
      rw [List.getLast?_append, List.getLast?_eq_some_getLast hfront, Option.some_or]
    rw [← List.append_assoc, findFactorial_stop after (List.forall_mem_append.2 ⟨hb, hidle⟩),
      findFactorial_stop after hidle, hlast, List.dropLast_append_of_ne_nil hfront]
    cases lastFactorial front <;> rfl

/-- A factorial taken leaves a number behind, or what stood in front of it. -/
theorem head?_result {f : Formula} {r : Reduction} (h : findFactorial f = .ok (some r))
    (hf : f.head? ≠ some (.operator .factorial)) :
    r.result.head? ≠ some (.operator .factorial) := by
  obtain ⟨v, hcut, -⟩ := cut_of_findFactorial h
  rw [hcut] at hf
  unfold Reduction.result
  cases hbefore : r.before with
  | nil => simp [Token.ofDecimal]
  | cons t before =>
    rw [hbefore] at hf
    exact hf

/-- **Behind idle tokens a formula is worked off by itself.** -/
theorem exhaust_factorials_behind {before f : Formula}
    (hb : ∀ t ∈ before, notFactorial t = true) (hf : f.head? ≠ some (.operator .factorial)) :
    factorials.exhaust (before ++ f) = (factorials.exhaust f).map (before ++ ·) := by
  induction hn : f.length using Nat.strongRecOn generalizing f with
  | _ n ih =>
    have hbehind := findFactorial_behind hb hf
    cases hfind : findFactorial f with
    | error e =>
      rw [hfind] at hbehind
      rw [factorials.exhaust_of_error hbehind, factorials.exhaust_of_error hfind]
      rfl
    | ok found =>
      cases found with
      | none =>
        rw [hfind] at hbehind
        rw [factorials.exhaust_of_none hbehind, factorials.exhaust_of_none hfind]
        rfl
      | some r =>
        rw [hfind] at hbehind
        rw [factorials.exhaust_of_some hbehind, factorials.exhaust_of_some hfind, r.result_behind]
        exact ih r.result.length (hn ▸ factorials.shortens hfind) (head?_result hfind hf) rfl

/-! ## §3. The bracket stage. -/

/-- What stands in front of the last left bracket of a formula, and the value of what
stands behind it. -/
def lastBracket (f : Formula) : Except EvalError (Formula × Decimal) :=
  match f.reverse.dropWhile notLeft with
  | [] => .error .invalidExpression
  | _ :: front => (evaluateFlat (f.reverse.takeWhile notLeft).reverse).map (front.reverse, ·)

/-- At the first right bracket, all depends on what stands in front of it. -/
theorem findBrackets_stop {before : Formula} (after : Formula)
    (hb : ∀ t ∈ before, notRight t = true) :
    findBrackets (before ++ .rightBracket :: after)
      = (lastBracket before).map fun c => some ⟨c.1, c.2, after⟩ := by
  unfold findBrackets innermost lastBracket
  rw [dropWhile_cut hb rfl, takeWhile_cut hb rfl]
  dsimp only
  cases before.reverse.dropWhile notLeft with
  | nil => rfl
  | cons t front =>
    dsimp only
    cases evaluateFlat (before.reverse.takeWhile notLeft).reverse <;> rfl

theorem idle_of_findBrackets {f : Formula} (h : findBrackets f = .ok none) :
    ∀ t ∈ f, notRight t = true := by
  cases hstop : f.dropWhile notRight with
  | nil => exact idle_of_dropWhile hstop
  | cons t after =>
    obtain ⟨hcut, ht⟩ := cut_of_dropWhile hstop
    obtain rfl : t = .rightBracket := by simpa [notRight] using ht
    rw [hcut, findBrackets_stop after fun u => mem_takeWhile] at h
    cases hlast : lastBracket (f.takeWhile notRight) <;> (rw [hlast] at h; cases h)

theorem stopsAt_brackets : brackets.StopsAt notRight where
  idle_of_none := idle_of_findBrackets
  find_append := by
    intro before t after rest hb ht
    obtain rfl : t = .rightBracket := by simpa [notRight] using ht
    show findBrackets _ = (findBrackets _).map _
    rw [findBrackets_stop (after ++ rest) hb, findBrackets_stop after hb]
    cases lastBracket before <;> rfl

/-! ## §4. Brackets replaced by their value. -/

/-- The first two stages, and then the last ones. -/
theorem evaluate_of_ne_nil {f : Formula} (h : f ≠ []) :
    evaluate f = (factorials.exhaust f).bind fun g => (brackets.exhaust g).bind evaluateFlat := by
  unfold evaluate
  rw [if_neg (by simpa using h)]
  cases factorials.exhaust f with
  | error e => rfl
  | ok g =>
    show _ = (brackets.exhaust g).bind evaluateFlat
    dsimp only
    cases brackets.exhaust g <;> rfl

/-- A settled piece in front of tokens that are worked off by themselves. -/
theorem exhaust_settled {before f g after : Formula}
    (hf : factorials.Settles notFactorial .invalidExpression f (some g))
    (hb : ∀ t ∈ before, notFactorial t = true)
    (hafter : after.head? ≠ some (.operator .factorial)) :
    factorials.exhaust (before ++ (f ++ after))
      = (factorials.exhaust after).map fun rest => before ++ (g ++ rest) := by
  have hidle : ∀ t ∈ before ++ g, notFactorial t = true :=
    List.forall_mem_append.2 ⟨hb, hf.settled g rfl⟩
  have hassoc : (fun rest => before ++ (g ++ rest)) = fun rest => before ++ g ++ rest :=
    funext fun rest => (List.append_assoc before g rest).symm
  rw [← List.append_assoc, hf.exhaust before after hb, hassoc]
  exact exhaust_factorials_behind hidle hafter

/-- **In any context, brackets may be replaced by the value of what they enclose**, if no
factorial sign follows them. -/
theorem evaluate_bracket {e : Expression} {v : Decimal} (hv : e.value? = some v)
    (before : Formula) {after : Formula} (hafter : after.head? ≠ some (.operator .factorial)) :
    evaluate (before ++ ((Atom.bracket e).tokens ++ after))
      = evaluate (before ++ ([.number v] ++ after)) := by
  -- The factorials inside are taken, and the brackets that are left are worth `v`.
  have hvalue := value?_withoutFactorials e
  rw [hv] at hvalue
  obtain ⟨e', he', hv'⟩ := Option.bind_eq_some_iff.1 hvalue
  have hfactorials := settles_factorials_atom (.bracket e)
  rw [Atom.withoutFactorials?, he'] at hfactorials
  have hbrackets := settles_brackets_atom (.bracket e') (hfactorials.settled _ rfl)
  rw [Atom.withoutBrackets?, hv'] at hbrackets
  have hstage : ∀ front rest : Formula,
      brackets.exhaust (front ++ ((Atom.bracket e').tokens ++ rest))
        = brackets.exhaust (front ++ ([.number v] ++ rest)) := by
    intro front rest
    refine stopsAt_brackets.exhaust_front id (fun front hfront => ?_) front
    rw [← List.append_assoc, ← List.append_assoc]
    exact hbrackets.exhaust front rest hfront
  have hnumber : factorials.Settles notFactorial .invalidExpression [.number v]
      (some [.number v]) := Rule.Settles.of_idle (by simp [notFactorial])
  rw [evaluate_of_ne_nil (by simp [Atom.tokens]), evaluate_of_ne_nil (by simp)]
  refine stopsAt_factorials.exhaust_front
    (fun stage => stage.bind fun g => (brackets.exhaust g).bind evaluateFlat)
    (fun before hbefore => ?_) before
  rw [exhaust_settled hfactorials hbefore hafter, exhaust_settled hnumber hbefore hafter]
  cases factorials.exhaust after with
  | error error => rfl
  | ok rest => exact congrArg (Except.bind · evaluateFlat) (hstage before rest)

end PocketCalc
