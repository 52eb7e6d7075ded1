/-
  PocketCalc.Proofs.Evaluation.Windows
  ────────────────────────────────────
  **WHERE THE REDUCTION RULES CUT.**

  Each rule finds its window by searching the formula.  Here every search is
  stated by concatenation instead (before, window, after), in both directions: a
  formula cut in this way is reduced at the window, and a formula that a rule
  reduces is cut in this way.

      factorials   before ++ [v, !] ++ after
      brackets     before ++ [(] ++ inner ++ [)] ++ after
      products     before ++ [x, × or ÷] ++ [−] ++ [y] ++ after
-/
import PocketCalc.Proofs.Grammar.Expression
import PocketCalc.Proofs.Sequence.Cutting

namespace PocketCalc

/-! ## §1. Exhausting a rule. -/

namespace Rule

variable (rule : Rule) {f : Formula}

/-- A rule that finds no window leaves the formula as it is. -/
theorem exhaust_of_none (h : rule.find f = .ok none) : rule.exhaust f = .ok f := by
  unfold Rule.exhaust
  split
  · next e he => rw [h] at he; cases he
  · rfl
  · next r hr => rw [h] at hr; cases hr

/-- After one reduction the rule goes on with the reduct. -/
theorem exhaust_of_some {r : Reduction} (h : rule.find f = .ok (some r)) :
    rule.exhaust f = rule.exhaust r.result := by
  rw [Rule.exhaust]
  split
  · next e he => rw [h] at he; cases he
  · next hn => rw [h] at hn; cases hn
  · next q hq => rw [h] at hq; cases hq; rfl

/-- An error of one reduction is the error of them all. -/
theorem exhaust_of_error {e : EvalError} (h : rule.find f = .error e) :
    rule.exhaust f = .error e := by
  unfold Rule.exhaust
  split
  · next e' he => rw [h] at he; cases he; rfl
  · next hn => rw [h] at hn; cases hn
  · next q hq => rw [h] at hq; cases hq

/-- What holds of a formula that a rule leaves alone, and of every formula whose
reduct has it, holds of all formulas that the rule can be exhausted on. -/
theorem exhaust_induction {motive : Formula → Prop} {g : Formula}
    (step : ∀ f r, rule.find f = .ok (some r) → motive r.result → motive f)
    (hg : rule.find g = .ok none → motive g) (h : rule.exhaust f = .ok g) : motive f := by
  -- The induction is on the length: every reduction shortens the formula.
  induction hn : f.length using Nat.strongRecOn generalizing f with
  | _ n ih =>
    cases hfind : rule.find f with
    | error e =>
      rw [rule.exhaust_of_error hfind] at h
      cases h
    | ok found =>
      cases found with
      | none =>
        rw [rule.exhaust_of_none hfind] at h
        cases h
        exact hg hfind
      | some r =>
        rw [rule.exhaust_of_some hfind] at h
        have hlt := rule.shortens hfind
        exact step f r hfind (ih r.result.length (hn ▸ hlt) h rfl)

end Rule

/-! ## §2. Factorials. -/

/-- The first factorial sign reduces the number in front of it, or the number is refused.
-/
theorem findFactorial_cut {before : Formula} (after : Formula) (v : Decimal)
    (hb : ∀ t ∈ before, notFactorial t = true) :
    findFactorial (before ++ .number v :: .operator .factorial :: after) =
      match v.factorial with
      | .ok n => .ok (some ⟨before, n, after⟩)
      | .error e => .error e := by
  -- The search passes over the number as well, which is then taken off its end.
  have hb' : ∀ t ∈ before ++ [.number v], notFactorial t = true :=
    List.forall_mem_append.2 ⟨hb, List.forall_mem_singleton.2 rfl⟩
  have hf : before ++ .number v :: .operator .factorial :: after
      = before ++ [.number v] ++ .operator .factorial :: after := by
    rw [List.append_assoc, List.singleton_append]
  unfold findFactorial
  rw [hf, dropWhile_cut hb' rfl, takeWhile_cut hb' rfl]
  cases hv : v.factorial <;> simp only [List.getLast?_concat, List.dropLast_concat, hv]

/-- Without a factorial sign there is nothing to reduce. -/
theorem findFactorial_idle {f : Formula} (hf : ∀ t ∈ f, notFactorial t = true) :
    findFactorial f = .ok none := by
  unfold findFactorial
  rw [(run_whole hf).2]

theorem idle_of_findFactorial {f : Formula} (h : findFactorial f = .ok none) :
    ∀ t ∈ f, notFactorial t = true := by
  unfold findFactorial at h
  split at h
  · next hd => exact idle_of_dropWhile hd
  · split at h
    · split at h <;> cases h
    · cases h

/-- A reduction that was found replaces a number and its sign, and nothing around them. -/
theorem cut_of_findFactorial {f : Formula} {r : Reduction} (h : findFactorial f = .ok (some r)) :
    ∃ v, f = r.before ++ .number v :: .operator .factorial :: r.after
      ∧ v.factorial = .ok r.value := by
  unfold findFactorial at h
  split at h
  · cases h
  · next t after hd =>
    obtain ⟨hf, ht⟩ := cut_of_dropWhile hd
    have ht' : t = .operator .factorial := by simpa [notFactorial] using ht
    split at h
    · next v hl =>
      split at h
      · next n hn =>
        cases h
        obtain ⟨before, hbefore⟩ := List.getLast?_eq_some_iff.1 hl
        refine ⟨v, ?_, hn⟩
        rw [hbefore, ht', List.append_assoc] at hf
        rw [hbefore, List.dropLast_concat]
        exact hf
      · cases h
    · cases h

/-! ## §3. Products and quotients. -/

/-- A value is taken with the minus sign in front of it. -/
theorem takeTerm_minusSign (negated : Bool) {t : Token} {y : Decimal} (ht : t.value? = some y)
    (rest : Formula) :
    takeTerm (minusSign negated ++ t :: rest) = some (y.signed negated, rest) := by
  cases negated with
  | true =>
    show t.value?.map _ = _
    rw [ht]
    rfl
  | false =>
    show takeTerm (t :: rest) = _
    cases t with
    | number v =>
      cases ht
      rfl
    | constant c =>
      cases ht
      rfl
    | _ => cases ht

/-- What was taken was a value, perhaps behind a minus sign. -/
theorem cut_of_takeTerm {f rest : Formula} {x : Decimal} (h : takeTerm f = some (x, rest)) :
    ∃ negated t y, f = minusSign negated ++ t :: rest ∧ t.value? = some y
      ∧ x = y.signed negated := by
  unfold takeTerm at h
  split at h
  · obtain ⟨y, hy, he⟩ := Option.map_eq_some_iff.1 h
    cases he
    exact ⟨true, _, _, rfl, hy, rfl⟩
  · obtain ⟨y, hy, he⟩ := Option.map_eq_some_iff.1 h
    cases he
    exact ⟨false, _, _, rfl, hy, rfl⟩
  · cases h

theorem notProduct_of_value {t : Token} {x : Decimal} (h : t.value? = some x) :
    notProduct t = true := by
  cases t <;> first | rfl | cases h

/-- The first product sign reduces the values on its two sides, or the operator refuses
them. -/
theorem findProduct_cut {before : Formula} (after : Formula) {t u : Token} {x y : Decimal}
    (op : Tight) (negated : Bool) (hb : ∀ t ∈ before, notProduct t = true)
    (ht : t.value? = some x) (hu : u.value? = some y) :
    findProduct (before ++ t :: .operator op.val :: (minusSign negated ++ u :: after)) =
      match op.val.apply x (y.signed negated) with
      | .ok v => .ok (some ⟨before, v, after⟩)
      | .error e => .error e := by
  -- Neither what stands in front nor the first value stops the search.
  have hb' : ∀ s ∈ before ++ [t], notProduct s = true :=
    List.forall_mem_append.2 ⟨hb, List.forall_mem_singleton.2 (notProduct_of_value ht)⟩
  have hop : notProduct (.operator op.val) = false := by
    show (!op.val.bindsTightly) = false
    rw [op.property]
    rfl
  have hf : before ++ t :: .operator op.val :: (minusSign negated ++ u :: after)
      = before ++ [t] ++ .operator op.val :: (minusSign negated ++ u :: after) := by
    rw [List.append_assoc, List.singleton_append]
  unfold findProduct
  rw [hf, dropWhile_cut hb' hop, takeWhile_cut hb' hop]
  cases hv : op.val.apply x (y.signed negated) <;>
    simp only [List.getLast?_concat, List.dropLast_concat, Option.bind_some, ht,
      takeTerm_minusSign negated hu, hv]

theorem findProduct_idle {f : Formula} (hf : ∀ t ∈ f, notProduct t = true) :
    findProduct f = .ok none := by
  unfold findProduct
  rw [(run_whole hf).2]

/-- A reduction that was found replaces two values and the sign between them. -/
theorem cut_of_findProduct {f : Formula} {r : Reduction} (h : findProduct f = .ok (some r)) :
    ∃ (t u : Token) (x y : Decimal) (op : Tight) (negated : Bool),
      f = r.before ++ t :: .operator op.val :: (minusSign negated ++ u :: r.after)
        ∧ t.value? = some x ∧ u.value? = some y
        ∧ op.val.apply x (y.signed negated) = .ok r.value := by
  unfold findProduct at h
  split at h
  · next op tail hd =>
    obtain ⟨hf, hop⟩ := cut_of_dropWhile hd
    have hop' : op.bindsTightly = true := by simpa [notProduct, Token.bindsTightly] using hop
    split at h
    · next x y after hx hy =>
      split at h
      · next v hv =>
        cases h
        obtain ⟨t, ht, hxt⟩ := Option.bind_eq_some_iff.1 hx
        obtain ⟨before, hbefore⟩ := List.getLast?_eq_some_iff.1 ht
        obtain ⟨negated, u, w, htail, hw, hyw⟩ := cut_of_takeTerm hy
        refine ⟨t, u, x, w, ⟨op, hop'⟩, negated, ?_, hxt, hw, hyw ▸ hv⟩
        rw [hbefore, htail, List.append_assoc] at hf
        rw [hbefore, List.dropLast_concat]
        exact hf
      · cases h
    · cases h
  · cases h

/-! ## §4. Brackets. -/

/-- Is the token no bracket? -/
def notBracket (t : Token) : Bool := notLeft t && notRight t

/-- The first right bracket and the nearest left one in front of it enclose what is
evaluated first. -/
theorem innermost_cut {before inner : Formula} (after : Formula)
    (hb : ∀ t ∈ before, notRight t = true) (hi : ∀ t ∈ inner, notBracket t = true) :
    innermost (before ++ .leftBracket :: (inner ++ .rightBracket :: after))
      = .ok (some ⟨before, inner, after⟩) := by
  -- The search for the right bracket passes over what is enclosed, too,
  have hb' : ∀ t ∈ before ++ .leftBracket :: inner, notRight t = true := by
    refine List.forall_mem_append.2 ⟨hb, List.forall_mem_cons.2 ⟨rfl, ?_⟩⟩
    intro t ht
    exact (Bool.and_eq_true_iff.1 (hi t ht)).2
  -- and from there the left one is searched for backwards.
  have hi' : ∀ t ∈ inner.reverse, notLeft t = true := by
    intro t ht
    exact (Bool.and_eq_true_iff.1 (hi t (List.mem_reverse.1 ht))).1
  have hf : before ++ .leftBracket :: (inner ++ .rightBracket :: after)
      = before ++ .leftBracket :: inner ++ .rightBracket :: after := by
    rw [List.append_assoc, List.cons_append]
  have hleft : notLeft .leftBracket = false := rfl
  have hr : (before ++ .leftBracket :: inner).reverse
      = inner.reverse ++ .leftBracket :: before.reverse := by
    rw [List.reverse_append, List.reverse_cons, List.append_assoc, List.singleton_append]
  unfold innermost
  rw [hf, dropWhile_cut hb' rfl, takeWhile_cut hb' rfl]
  simp only [hr, dropWhile_cut hi' hleft, takeWhile_cut hi' hleft, List.reverse_reverse]

/-- Innermost brackets are reduced to the value of what they enclose. -/
theorem findBrackets_cut {before inner : Formula} (after : Formula)
    (hb : ∀ t ∈ before, notRight t = true) (hi : ∀ t ∈ inner, notBracket t = true) :
    findBrackets (before ++ .leftBracket :: (inner ++ .rightBracket :: after)) =
      match evaluateFlat inner with
      | .ok v => .ok (some ⟨before, v, after⟩)
      | .error e => .error e := by
  unfold findBrackets
  cases hv : evaluateFlat inner <;> simp only [innermost_cut after hb hi, hv]

theorem innermost_idle {f : Formula} (hf : ∀ t ∈ f, notBracket t = true) :
    innermost f = .ok none := by
  have hl : f.all notLeft = true :=
    List.all_eq_true.2 fun t ht => (Bool.and_eq_true_iff.1 (hf t ht)).1
  have hd : f.dropWhile notRight = [] :=
    (run_whole fun t ht => (Bool.and_eq_true_iff.1 (hf t ht)).2).2
  unfold innermost
  rw [hd]
  simp only [hl, if_true]

/-- What was found is enclosed by brackets: none closes in front of them, and none stand
inside. -/
theorem cut_of_innermost {f : Formula} {c : Enclosure} (h : innermost f = .ok (some c)) :
    f = c.before ++ .leftBracket :: (c.inner ++ .rightBracket :: c.after)
      ∧ (∀ t ∈ c.before, notRight t = true) ∧ ∀ t ∈ c.inner, notBracket t = true := by
  unfold innermost at h
  split at h
  · split at h <;> cases h
  · next t after hd =>
    -- The search stops at the first right bracket.
    obtain ⟨hf, ht⟩ := cut_of_dropWhile hd
    have ht' : t = .rightBracket := by simpa [notRight] using ht
    split at h
    · cases h
    · next s before hb =>
      -- From there it goes back to the nearest left one.
      obtain ⟨hh, hs⟩ := cut_of_dropWhile hb
      have hs' : s = .leftBracket := by simpa [notLeft] using hs
      cases h
      have hw : f.takeWhile notRight = before.reverse ++ .leftBracket ::
          ((f.takeWhile notRight).reverse.takeWhile notLeft).reverse := by
        have hrev := congrArg List.reverse hh
        rw [hs', List.reverse_append, List.reverse_cons, List.append_assoc,
          List.singleton_append, List.reverse_reverse] at hrev
        exact hrev
      refine ⟨?_, ?_, ?_⟩
      · rw [ht', hw, List.append_assoc, List.cons_append] at hf
        exact hf
      · intro x hx
        refine mem_takeWhile (l := f) ?_
        rw [hw]
        exact List.mem_append_left _ hx
      · intro x hx
        have hx' := List.mem_reverse.1 hx
        have hl : notLeft x = true := mem_takeWhile hx'
        have hr : notRight x = true :=
          mem_takeWhile (l := f) (List.mem_reverse.1 (List.takeWhile_subset _ hx'))
        exact Bool.and_eq_true_iff.2 ⟨hl, hr⟩

/-- A reduction that was found replaces brackets by the value of what they enclosed. -/
theorem cut_of_findBrackets {f : Formula} {r : Reduction} (h : findBrackets f = .ok (some r)) :
    ∃ inner, f = r.before ++ .leftBracket :: (inner ++ .rightBracket :: r.after)
      ∧ evaluateFlat inner = .ok r.value := by
  unfold findBrackets at h
  split at h
  · cases h
  · cases h
  · next c hc =>
    split at h
    · next v hv =>
      cases h
      exact ⟨c.inner, (cut_of_innermost hc).1, hv⟩
    · cases h

end PocketCalc
