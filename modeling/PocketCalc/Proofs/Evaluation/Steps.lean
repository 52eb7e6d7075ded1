/-
  PocketCalc.Proofs.Evaluation.Steps
  ──────────────────────────────────
  **HOW MUCH AN EVALUATION DOES.**

  An evaluation is written down here step by step.  A window of tokens gives way to
  its value; two terms of a sum are joined; and what a pair of brackets encloses is
  evaluated by a call, to which all stages apply again (`evaluateCalling`).  Only so
  many calls may be nested in one another (`evaluateNested`): an evaluation that
  needs a deeper one comes to nothing.

  Steps are paid for with tokens.  A window lies inside the formula and is replaced
  by one token (`Cuts`), so what is left of the formula bounds what is left to do
  (`Spends`), and two parts of an evaluation are paid for one after the other
  (`Spends.bind`).

      evaluateCalling_flat   nothing is called for a formula without brackets
      spends_runBrackets     a pair of brackets pays for the call it takes
      evaluation_bounded     one level of calls is enough, and there are at most as
                             many reductions as tokens
-/
import PocketCalc.Evaluation.Checkpoint
import PocketCalc.Proofs.Evaluation.Context

namespace PocketCalc

/-! ## §1. Windows. -/

/-- Does the reduction put its value in the place of the tokens from `start` up to
`stop`, which makes the formula shorter? -/
structure Reduction.Cuts (r : Reduction) (f : Formula) (start stop : Nat) : Prop where
  start_lt : start < stop
  stop_le : stop ≤ f.length
  result_eq : r.result = f.take start ++ Token.ofDecimal r.value :: f.drop stop
  shorter : r.result.length < f.length

/-- Is this where a stage takes its window?  A sign is looked for from the left, and
the place in front of it begins the window; brackets are looked for from the first
right one. -/
def Stage.IsWindow : Stage → Formula → Nat → Nat → Prop
  | .factorials, f, start, stop =>
      f.findIdx (· == .operator .factorial) = start + 1 ∧ stop = start + 2
  | .brackets, f, start, stop =>
      f[start]? = some .leftBracket ∧ f.findIdx (· == .rightBracket) + 1 = stop
  | .products, f, start, stop =>
      f.findIdx Token.bindsTightly = start + 1 ∧ (stop = start + 3 ∨ stop = start + 4)

theorem Reduction.cuts_of_append {r : Reduction} {f window : Formula}
    (hf : f = r.before ++ (window ++ r.after)) (hw : 2 ≤ window.length) :
    r.Cuts f r.before.length (r.before.length + window.length) := by
  subst hf
  have hdrop : (r.before ++ (window ++ r.after)).drop (r.before.length + window.length)
      = r.after := by
    rw [← List.append_assoc, ← List.length_append, List.drop_left]
  refine ⟨by omega, ?_, ?_, ?_⟩
  · simp only [List.length_append]
    omega
  · rw [List.take_left, hdrop]
    rfl
  · simp only [Reduction.result, List.length_append, List.length_cons]
    omega

theorem before_of_findFactorial {f : Formula} {r : Reduction}
    (h : findFactorial f = .ok (some r)) : ∀ t ∈ r.before, notFactorial t = true := by
  unfold findFactorial at h
  split at h
  · cases h
  · split at h
    · split at h
      · cases h
        exact fun t ht => mem_takeWhile (List.dropLast_subset _ ht)
      · cases h
    · cases h

theorem before_of_findProduct {f : Formula} {r : Reduction}
    (h : findProduct f = .ok (some r)) : ∀ t ∈ r.before, notProduct t = true := by
  unfold findProduct at h
  split at h
  · split at h
    · split at h
      · cases h
        exact fun t ht => mem_takeWhile (List.dropLast_subset _ ht)
      · cases h
    · cases h
  · cases h

/-- **A factorial sign and the number in front of it are a window.** -/
theorem window_of_findFactorial {f : Formula} {r : Reduction}
    (h : findFactorial f = .ok (some r)) :
    ∃ start stop, Stage.IsWindow .factorials f start stop ∧ r.Cuts f start stop := by
  obtain ⟨v, hf, -⟩ := cut_of_findFactorial h
  have hcut : f = r.before ++ ([.number v, .operator .factorial] ++ r.after) := hf
  refine ⟨r.before.length, _, ⟨?_, rfl⟩, Reduction.cuts_of_append hcut (Nat.le_refl 2)⟩
  have hfront : ∀ t ∈ r.before ++ [.number v], (t == .operator .factorial) = false := by
    refine List.forall_mem_append.2 ⟨?_, List.forall_mem_singleton.2 rfl⟩
    intro t ht
    simpa [notFactorial] using before_of_findFactorial h t ht
  have hidx := findIdx_cut (x := .operator .factorial) r.after hfront (beq_self_eq_true _)
  rw [List.append_assoc, List.singleton_append, ← hf, List.length_append] at hidx
  exact hidx

/-- **A product or quotient sign and its two operands are a window.** -/
theorem window_of_findProduct {f : Formula} {r : Reduction}
    (h : findProduct f = .ok (some r)) :
    ∃ start stop, Stage.IsWindow .products f start stop ∧ r.Cuts f start stop := by
  obtain ⟨t, u, x, y, op, negated, hf, ht, -, -⟩ := cut_of_findProduct h
  have hcut : f = r.before
      ++ ((t :: .operator op.val :: (minusSign negated ++ [u])) ++ r.after) := by
    rw [hf]
    simp only [List.cons_append, List.append_assoc, List.nil_append]
  refine ⟨r.before.length, _, ⟨?_, ?_⟩, Reduction.cuts_of_append hcut (by simp)⟩
  · have hfront : ∀ s ∈ r.before ++ [t], s.bindsTightly = false := by
      refine List.forall_mem_append.2 ⟨?_, List.forall_mem_singleton.2 ?_⟩
      · intro s hs
        simpa [notProduct] using before_of_findProduct h s hs
      · simpa [notProduct] using notProduct_of_value ht
    have hidx := findIdx_cut (minusSign negated ++ u :: r.after) hfront
      (show Token.bindsTightly (.operator op.val) = true from op.property)
    rw [List.append_assoc, List.singleton_append, ← hf, List.length_append] at hidx
    exact hidx
  · cases negated
    · exact .inl rfl
    · exact .inr rfl

/-- **A pair of brackets and what it encloses are a window.** -/
theorem window_of_enclosure {f : Formula} {c : Enclosure} (h : innermost f = .ok (some c))
    (v : Decimal) :
    ∃ start stop, Stage.IsWindow .brackets f start stop
      ∧ Reduction.Cuts ⟨c.before, v, c.after⟩ f start stop := by
  obtain ⟨hf, hbefore, hinner⟩ := cut_of_innermost h
  have hcut : f = c.before ++ ((.leftBracket :: (c.inner ++ [.rightBracket])) ++ c.after) := by
    rw [hf]
    simp only [List.cons_append, List.append_assoc, List.nil_append]
  refine ⟨c.before.length, _, ⟨?_, ?_⟩,
    Reduction.cuts_of_append (r := ⟨c.before, v, c.after⟩) hcut (by simp)⟩
  · rw [hf, List.getElem?_append_right (Nat.le_refl _), Nat.sub_self]
    rfl
  · have hfront : ∀ t ∈ c.before ++ .leftBracket :: c.inner, (t == .rightBracket) = false := by
      refine List.forall_mem_append.2 ⟨?_, List.forall_mem_cons.2 ⟨rfl, ?_⟩⟩
      · intro t ht
        simpa [notRight] using hbefore t ht
      · intro t ht
        simpa [notRight] using (Bool.and_eq_true_iff.1 (hinner t ht)).2
    have hidx := findIdx_cut (x := .rightBracket) c.after hfront (beq_self_eq_true _)
    rw [List.append_assoc, List.cons_append, ← hf] at hidx
    rw [hidx]
    simp only [List.length_append, List.length_cons, List.length_nil]
    omega

/-! ## §2. Steps and runs. -/

/-- What an evaluation does next. -/
inductive EvalStep where
  /-- In one of the stages, a window of the formula gives way to its value. -/
  | replace (stage : Stage) (formula : Formula) (reduction : Reduction)
  /-- Two terms of a sum are joined. -/
  | join (op : Operator) (x y : Decimal)
  /-- What a pair of brackets of the formula encloses is evaluated by a call. -/
  | call (formula inner : Formula)

/-- Is the step a reduction?  A call by itself is none. -/
def EvalStep.isReduction : EvalStep → Bool
  | .call _ _ => false
  | _ => true

/-- Is the step in bounds, in a formula of no more than `n` tokens?  A window lies inside
the formula; a call gets what stands between two places of it, which is shorter and
holds neither a bracket nor a factorial sign. -/
def EvalStep.StaysWithin (n : Nat) : EvalStep → Prop
  | .replace stage f r =>
      f.length ≤ n ∧ ∃ start stop, stage.IsWindow f start stop ∧ r.Cuts f start stop
  | .join _ _ _ => True
  | .call f inner =>
      f.length ≤ n ∧ inner.length < f.length ∧ (∀ t ∈ inner, isFlat t = true)
        ∧ ∃ left right, left < right ∧ right < f.length
          ∧ inner = (f.take right).drop (left + 1)

/-- The steps that are done, and what comes of them: nothing if a call was nested too
deep. -/
structure EvalRun (α : Type) where
  steps : List EvalStep
  outcome : Option (Except EvalError α)

namespace EvalRun

variable {α β : Type}

/-- The number of reductions. -/
def reductions (x : EvalRun α) : Nat := x.steps.countP EvalStep.isReduction

/-- Nothing is left to do. -/
def done (r : Except EvalError α) : EvalRun α := ⟨[], some r⟩

/-- A call is nested too deep. -/
def tooDeep : EvalRun α := ⟨[], none⟩

/-- One step more, in front. -/
def after (s : EvalStep) (x : EvalRun α) : EvalRun α := ⟨s :: x.steps, x.outcome⟩

/-- Goes on with what came of the first run. -/
def bind (x : EvalRun α) (g : α → EvalRun β) : EvalRun β :=
  match x.outcome with
  | some (.ok a) => ⟨x.steps ++ (g a).steps, (g a).outcome⟩
  | some (.error e) => ⟨x.steps, some (.error e)⟩
  | none => ⟨x.steps, none⟩

end EvalRun

/-- Exhausts a rule, step by step. -/
def Rule.run (rule : Rule) (stage : Stage) (f : Formula) : EvalRun Formula :=
  match _h : rule.find f with
  | .error e => .done (.error e)
  | .ok none => .done (.ok f)
  | .ok (some r) => .after (.replace stage f r) (rule.run stage r.result)
termination_by f.length
decreasing_by exact rule.shortens _h

/-- Joins the terms of a formula to `acc`, left to right. -/
def joinTerms (acc : Decimal) (f : Formula) : EvalRun Decimal :=
  match f with
  | [] => .done (.ok acc.normalized)
  | .operator op :: rest =>
      if op.isAdditive then
        match _h : takeTerm rest with
        | some (y, rest') =>
            match op.apply acc y with
            | .ok v => .after (.join op acc y) (joinTerms v rest')
            | .error e => .done (.error e)
        | none => .done (.error .invalidExpression)
      else .done (.error .invalidExpression)
  | _ => .done (.error .invalidExpression)
termination_by f.length
decreasing_by
  have := takeTerm_length _h
  simp only [List.length_cons]
  omega

/-- The value of a formula of terms, plus and minus signs. -/
def runSum (f : Formula) : EvalRun Decimal :=
  if f.any Token.isValue then
    match takeTerm f with
    | some (x, rest) => joinTerms x rest
    | none => .done (.error .invalidExpression)
  else .done (.error .missingFormula)

/-- Replaces brackets, innermost first, by what a call gives for what they enclose. -/
def runBrackets (call : Formula → EvalRun Decimal) (f : Formula) : EvalRun Formula :=
  match _h : innermost f with
  | .error e => .done (.error e)
  | .ok none => .done (.ok f)
  | .ok (some c) =>
      .after (.call f c.inner) <| (call c.inner).bind fun v =>
        .after (.replace .brackets f ⟨c.before, v, c.after⟩) <|
          runBrackets call (Reduction.result ⟨c.before, v, c.after⟩)
termination_by f.length
decreasing_by
  have := innermost_length _h
  simp only [Reduction.result, List.length_append, List.length_cons]
  omega

/-- The last two stages. -/
def runFlat (f : Formula) : EvalRun Decimal := (products.run .products f).bind runSum

/-- All stages, with `call` for what brackets enclose. -/
def evaluateCalling (call : Formula → EvalRun Decimal) (f : Formula) : EvalRun Decimal :=
  if f.isEmpty then .done (.error .missingFormula)
  else
    (factorials.run .factorials f).bind fun g => (runBrackets call g).bind runFlat

/-- The evaluator that calls itself, with at most so many levels of calls. -/
def evaluateNested : Nat → Formula → EvalRun Decimal
  | 0 => evaluateCalling fun _ => .tooDeep
  | levels + 1 => evaluateCalling (evaluateNested levels)

/-! ## §3. Paying for steps. -/

/-- What is left of the tokens behind a run: `left` of the value, nothing behind a
refusal. -/
def leftOver {α : Type} (left : α → Nat) : Except EvalError α → Nat
  | .ok a => left a
  | .error _ => 0

/-- Does the run come to `r` by steps within `n` tokens, its reductions paid for by
`budget` tokens? -/
structure EvalRun.Spends {α : Type} (x : EvalRun α) (n budget : Nat) (left : α → Nat)
    (r : Except EvalError α) : Prop where
  outcome : x.outcome = some r
  steps : ∀ s ∈ x.steps, s.StaysWithin n
  reductions : x.reductions + leftOver left r ≤ budget

namespace EvalRun

variable {α β : Type} {x : EvalRun α} {n budget : Nat} {left : α → Nat} {left' : β → Nat}
  {r : Except EvalError α}

theorem Spends.done (h : leftOver left r ≤ budget) : (EvalRun.done r).Spends n budget left r := by
  refine ⟨rfl, (fun s hs => nomatch hs), ?_⟩
  show 0 + leftOver left r ≤ budget
  rwa [Nat.zero_add]

theorem Spends.refused (e : EvalError) :
    (EvalRun.done (.error e)).Spends n budget left (.error e) := .done (Nat.zero_le budget)

theorem Spends.mono {budget' : Nat} (hx : x.Spends n budget left r) (h : budget ≤ budget') :
    x.Spends n budget' left r := ⟨hx.outcome, hx.steps, Nat.le_trans hx.reductions h⟩

theorem Spends.left_le {a : α} (hx : x.Spends n budget left (.ok a)) : left a ≤ budget :=
  Nat.le_trans (Nat.le_add_left _ _) hx.reductions

/-- One step more takes at most one token more. -/
theorem Spends.after {s : EvalStep} (hs : s.StaysWithin n) (hx : x.Spends n budget left r) :
    (x.after s).Spends n (budget + 1) left r := by
  refine ⟨hx.outcome, List.forall_mem_cons.2 ⟨hs, hx.steps⟩, ?_⟩
  have hcount : (x.after s).reductions ≤ x.reductions + 1 := by
    show (s :: x.steps).countP EvalStep.isReduction ≤ _
    rw [List.countP_cons]
    show x.reductions + _ ≤ _
    split <;> omega
  have := hx.reductions
  omega

/-- A call by itself takes none. -/
theorem Spends.afterCall {f inner : Formula} (hs : (EvalStep.call f inner).StaysWithin n)
    (hx : x.Spends n budget left r) : (x.after (.call f inner)).Spends n budget left r := by
  refine ⟨hx.outcome, List.forall_mem_cons.2 ⟨hs, hx.steps⟩, ?_⟩
  have hcount : (x.after (.call f inner)).reductions = x.reductions :=
    List.countP_cons_of_neg Bool.false_ne_true
  rw [hcount]
  exact hx.reductions

/-- **What is left behind the first run pays for the second**, together with tokens that
were put aside. -/
theorem Spends.bind {g : α → EvalRun β} {z : α → Except EvalError β} (aside : Nat)
    (hx : x.Spends n budget left r)
    (hg : ∀ a, r = .ok a → (g a).Spends n (left a + aside) left' (z a)) :
    (x.bind g).Spends n (budget + aside) left' (r.bind z) := by
  have houtcome := hx.outcome
  have hreductions := hx.reductions
  unfold EvalRun.bind
  cases r with
  | error e =>
    rw [houtcome]
    refine ⟨rfl, hx.steps, ?_⟩
    simp only [leftOver] at hreductions
    show x.reductions + 0 ≤ _
    omega
  | ok a =>
    rw [houtcome]
    have hga := hg a rfl
    refine ⟨hga.outcome, List.forall_mem_append.2 ⟨hx.steps, hga.steps⟩, ?_⟩
    have hcount : EvalRun.reductions ⟨x.steps ++ (g a).steps, (g a).outcome⟩
        = x.reductions + (g a).reductions := List.countP_append
    have hsecond := hga.reductions
    simp only [leftOver] at hreductions
    show EvalRun.reductions ⟨x.steps ++ (g a).steps, (g a).outcome⟩ + leftOver left' (z a) ≤ _
    omega

end EvalRun

/-! ## §4. The stages. -/

/-- **A rule is exhausted with one token for each reduction**, and every one of them is
in bounds if what the rule finds is. -/
theorem Rule.spends_run (rule : Rule) (stage : Stage) {n : Nat} {f : Formula} (hn : f.length ≤ n)
    (hwindow : ∀ {g r}, rule.find g = .ok (some r) →
      ∃ start stop, stage.IsWindow g start stop ∧ r.Cuts g start stop) :
    (rule.run stage f).Spends n f.length List.length (rule.exhaust f) := by
  -- The induction is on the length: every reduction shortens the formula.
  induction hlen : f.length using Nat.strongRecOn generalizing f with
  | _ m ih =>
    subst hlen
    rw [Rule.run]
    split
    · next e he =>
      rw [rule.exhaust_of_error he]
      exact .refused e
    · next hnone =>
      rw [rule.exhaust_of_none hnone]
      exact .done (Nat.le_refl _)
    · next r hr =>
      have hlt := rule.shortens hr
      rw [rule.exhaust_of_some hr]
      have hrest := ih r.result.length hlt (by omega) rfl
      have hstep : (EvalStep.replace stage f r).StaysWithin n := ⟨hn, hwindow hr⟩
      exact (hrest.after hstep).mono hlt

theorem joinTerms_term {op : Operator} {f rest : Formula} {y : Decimal} (acc : Decimal)
    (hop : op.isAdditive = true) (hy : takeTerm f = some (y, rest)) :
    joinTerms acc (.operator op :: f) =
      match op.apply acc y with
      | .ok v => .after (.join op acc y) (joinTerms v rest)
      | .error e => .done (.error e) := by
  rw [joinTerms, if_pos hop]
  split
  · next y' rest' hy' =>
    rw [hy] at hy'
    cases hy'
    rfl
  · next hnone =>
    rw [hy] at hnone
    cases hnone

theorem joinTerms_missing {op : Operator} {f : Formula} (acc : Decimal)
    (hop : op.isAdditive = true) (hnone : takeTerm f = none) :
    joinTerms acc (.operator op :: f) = .done (.error .invalidExpression) := by
  rw [joinTerms, if_pos hop]
  split
  · next hy =>
    rw [hnone] at hy
    cases hy
  · rfl

/-- Every joint takes an operator and a term. -/
theorem spends_joinTerms (n : Nat) (acc : Decimal) (f : Formula) :
    (joinTerms acc f).Spends n f.length (fun _ => 0) (addTerms acc f) := by
  fun_induction addTerms acc f with
  | case1 acc =>
    rw [joinTerms]
    exact .done (Nat.le_refl 0)
  | case2 acc op rest hop y rest' hy v hv ih =>
    have hlt := takeTerm_length hy
    have hjoin : (EvalStep.join op acc y).StaysWithin n := trivial
    rw [joinTerms_term acc hop hy, hv]
    exact (ih.after hjoin).mono (Nat.succ_le_succ (Nat.le_of_lt hlt))
  | case3 acc op rest hop y rest' hy e he =>
    rw [joinTerms_term acc hop hy, he]
    exact .refused e
  | case4 acc op rest hop hnone =>
    rw [joinTerms_missing acc hop hnone]
    exact .refused _
  | case5 acc op rest hop =>
    rw [joinTerms, if_neg hop]
    exact .refused _
  | case6 acc f hnil hoperator =>
    rw [joinTerms.eq_3 _ _ hnil hoperator]
    exact .refused _

theorem spends_runSum (n : Nat) (f : Formula) :
    (runSum f).Spends n f.length (fun _ => 0) (sumTerms f) := by
  unfold runSum sumTerms
  split
  · cases hterm : takeTerm f with
    | none => exact .refused _
    | some found =>
      obtain ⟨x, rest⟩ := found
      exact (spends_joinTerms n x rest).mono (Nat.le_of_lt (takeTerm_length hterm))
  · exact .refused _

/-- The last two stages are those of a formula without brackets and factorial signs; it is
missing as a sum if it is missing at all. -/
theorem evaluateFlat_eq (f : Formula) : evaluateFlat f = (products.exhaust f).bind sumTerms := by
  unfold evaluateFlat
  cases f with
  | nil =>
    rw [products.exhaust_of_none (findProduct_idle fun t (ht : t ∈ []) => nomatch ht)]
    rfl
  | cons t f =>
    rw [if_neg (by simp)]
    cases products.exhaust (t :: f) <;> rfl

theorem spends_runFlat {n : Nat} {f : Formula} (hn : f.length ≤ n) :
    (runFlat f).Spends n f.length (fun _ => 0) (evaluateFlat f) := by
  rw [evaluateFlat_eq]
  exact (products.spends_run .products hn window_of_findProduct).bind 0 fun g _ =>
    spends_runSum n g

/-! ## §5. Calls. -/

theorem Rule.run_of_none (rule : Rule) (stage : Stage) {f : Formula}
    (h : rule.find f = .ok none) : rule.run stage f = .done (.ok f) := by
  rw [Rule.run]
  split
  · next e he => rw [h] at he; cases he
  · rfl
  · next r hr => rw [h] at hr; cases hr

theorem runBrackets_of_none (call : Formula → EvalRun Decimal) {f : Formula}
    (h : innermost f = .ok none) : runBrackets call f = .done (.ok f) := by
  rw [runBrackets]
  split
  · next e he => rw [h] at he; cases he
  · rfl
  · next c hc => rw [h] at hc; cases hc

/-- **Nothing is called for a flat formula.** -/
theorem evaluateCalling_flat (call : Formula → EvalRun Decimal) {f : Formula} (hne : f ≠ [])
    (hf : ∀ t ∈ f, isFlat t = true) : evaluateCalling call f = runFlat f := by
  have hfactorials : factorials.find f = .ok none :=
    findFactorial_idle fun t ht => (Bool.and_eq_true_iff.1 (hf t ht)).2
  have hbrackets : innermost f = .ok none :=
    innermost_idle fun t ht => (Bool.and_eq_true_iff.1 (hf t ht)).1
  unfold evaluateCalling
  rw [if_neg (by simpa using hne), factorials.run_of_none _ hfactorials]
  show (runBrackets call f).bind runFlat = runFlat f
  rw [runBrackets_of_none call hbrackets]
  rfl

theorem spends_evaluateCalling_flat (call : Formula → EvalRun Decimal) {n : Nat} {f : Formula}
    (hn : f.length ≤ n) (hf : ∀ t ∈ f, isFlat t = true) :
    (evaluateCalling call f).Spends n f.length (fun _ => 0) (evaluateFlat f) := by
  by_cases hne : f = []
  · rw [hne]
    exact .refused _
  · rw [evaluateCalling_flat call hne hf]
    exact spends_runFlat hn

theorem exhaust_brackets_of_error {f : Formula} {e : EvalError} (h : innermost f = .error e) :
    brackets.exhaust f = .error e := by
  refine brackets.exhaust_of_error ?_
  show findBrackets f = _
  unfold findBrackets
  rw [h]

theorem exhaust_brackets_of_none {f : Formula} (h : innermost f = .ok none) :
    brackets.exhaust f = .ok f := by
  refine brackets.exhaust_of_none ?_
  show findBrackets f = _
  unfold findBrackets
  rw [h]

/-- An innermost pair gives way to the value of what it encloses. -/
theorem exhaust_brackets_of_some {f : Formula} {c : Enclosure} (h : innermost f = .ok (some c)) :
    brackets.exhaust f = (evaluateFlat c.inner).bind fun v =>
      brackets.exhaust (Reduction.result ⟨c.before, v, c.after⟩) := by
  have hfind : brackets.find f = (evaluateFlat c.inner).map fun v =>
      some ⟨c.before, v, c.after⟩ := by
    show findBrackets f = _
    unfold findBrackets
    rw [h]
    dsimp only
    cases evaluateFlat c.inner <;> rfl
  cases hv : evaluateFlat c.inner with
  | error e =>
    rw [hv] at hfind
    exact brackets.exhaust_of_error hfind
  | ok v =>
    rw [hv] at hfind
    exact brackets.exhaust_of_some hfind

theorem staysWithin_call {n : Nat} {f : Formula} {c : Enclosure} (hn : f.length ≤ n)
    (h : innermost f = .ok (some c)) (hf : ∀ t ∈ f, notFactorial t = true) :
    (EvalStep.call f c.inner).StaysWithin n := by
  have hlen := innermost_length h
  obtain ⟨hcut, -, hinner⟩ := cut_of_innermost h
  refine ⟨hn, by omega, ?_, c.before.length, (c.before ++ .leftBracket :: c.inner).length,
    ?_, ?_, ?_⟩
  · intro t ht
    have hmem : t ∈ f := by
      rw [hcut]
      simp [ht]
    exact Bool.and_eq_true_iff.2 ⟨hinner t ht, hf t hmem⟩
  · simp only [List.length_append, List.length_cons]
    omega
  · simp only [List.length_append, List.length_cons]
    omega
  · have hfront : f = (c.before ++ .leftBracket :: c.inner) ++ .rightBracket :: c.after := by
      rw [List.append_assoc, List.cons_append]
      exact hcut
    have htake : f.take (c.before ++ .leftBracket :: c.inner).length
        = c.before ++ [.leftBracket] ++ c.inner := by
      rw [hfront, List.take_left, List.append_assoc, List.singleton_append]
    have hplace : c.before.length + 1 = (c.before ++ [Token.leftBracket]).length := by
      rw [List.length_append, List.length_singleton]
    rw [htake, hplace, List.drop_left]

/-- What the bracket stage works on holds no factorial sign at any time. -/
theorem notFactorial_of_enclosure {f : Formula} {c : Enclosure} (h : innermost f = .ok (some c))
    (v : Decimal) (hf : ∀ t ∈ f, notFactorial t = true) :
    ∀ t ∈ Reduction.result ⟨c.before, v, c.after⟩, notFactorial t = true := by
  rw [(cut_of_innermost h).1] at hf
  obtain ⟨hbefore, hrest⟩ := List.forall_mem_append.1 hf
  have hafter := (List.forall_mem_append.1 (List.forall_mem_cons.1 hrest).2).2
  exact List.forall_mem_append.2
    ⟨hbefore, List.forall_mem_cons.2 ⟨rfl, (List.forall_mem_cons.1 hafter).2⟩⟩

/-- A call is in order if it stays within bounds on flat formulas and gives their value. -/
def IsInOrder (call : Formula → EvalRun Decimal) (n : Nat) : Prop :=
  ∀ inner, inner.length ≤ n → (∀ t ∈ inner, isFlat t = true) →
    (call inner).Spends n inner.length (fun _ => 0) (evaluateFlat inner)

/-- **The bracket stage calls for flat formulas alone**, and what is left of a pair of
brackets pays for the call. -/
theorem spends_runBrackets {call : Formula → EvalRun Decimal} {n : Nat} {f : Formula}
    (hcall : IsInOrder call n) (hn : f.length ≤ n) (hf : ∀ t ∈ f, notFactorial t = true) :
    (runBrackets call f).Spends n f.length List.length (brackets.exhaust f) := by
  -- The induction is on the length: every pair that gives way shortens the formula.
  induction hlen : f.length using Nat.strongRecOn generalizing f with
  | _ m ih =>
    subst hlen
    rw [runBrackets]
    split
    · next e he =>
      rw [exhaust_brackets_of_error he]
      exact .refused e
    · next hnone =>
      rw [exhaust_brackets_of_none hnone]
      exact .done (Nat.le_refl _)
    · next c hc =>
      have hlength := innermost_length hc
      have hstep := staysWithin_call hn hc hf
      have hinner := hcall c.inner (by omega) hstep.2.2.1
      rw [exhaust_brackets_of_some hc]
      -- The tokens around the enclosed ones are put aside for what follows the call.
      have hrun := hinner.bind (c.before.length + c.after.length + 2) fun v _ => by
        have hresult : (Reduction.result ⟨c.before, v, c.after⟩).length
            = c.before.length + c.after.length + 1 := by
          simp only [Reduction.result, List.length_append, List.length_cons]
          omega
        have hrest := ih _ (by omega) (by omega) (notFactorial_of_enclosure hc v hf) rfl
        have hreplace : (EvalStep.replace .brackets f ⟨c.before, v, c.after⟩).StaysWithin n :=
          ⟨hn, window_of_enclosure hc v⟩
        exact (hrest.after hreplace).mono (by omega)
      exact (hrun.mono (by omega)).afterCall hstep

/-! ## §6. Nested evaluations. -/

/-- A rule that is exhausted finds nothing any more. -/
theorem Rule.find_of_exhaust (rule : Rule) {f g : Formula} (h : rule.exhaust f = .ok g) :
    rule.find g = .ok none :=
  rule.exhaust_induction (motive := fun _ => rule.find g = .ok none)
    (fun _ _ _ hfind => hfind) (fun hfind => hfind) h

/-- **A call gets a flat formula**, so calls that are in order for such formulas are enough
for all formulas. -/
theorem spends_evaluateCalling {call : Formula → EvalRun Decimal} {n : Nat} {f : Formula}
    (hcall : IsInOrder call n) (hn : f.length ≤ n) :
    (evaluateCalling call f).Spends n f.length (fun _ => 0) (evaluate f) := by
  by_cases hne : f = []
  · rw [hne]
    exact .refused _
  · have hfactorials := factorials.spends_run .factorials hn window_of_findFactorial
    unfold evaluateCalling
    rw [evaluate_of_ne_nil hne, if_neg (by simpa using hne)]
    refine hfactorials.bind 0 fun g hg => ?_
    rw [hg] at hfactorials
    have hgn := Nat.le_trans hfactorials.left_le hn
    have hbrackets := spends_runBrackets hcall hgn
      (idle_of_findFactorial (factorials.find_of_exhaust hg))
    refine hbrackets.bind 0 fun h hh => ?_
    rw [hh] at hbrackets
    exact spends_runFlat (Nat.le_trans hbrackets.left_le hgn)

theorem isInOrder_evaluateNested (levels n : Nat) : IsInOrder (evaluateNested levels) n := by
  intro inner hn hinner
  cases levels <;> exact spends_evaluateCalling_flat _ hn hinner

/-- **Whatever the formula, one level of calls is enough to evaluate it.**  Every window lies
inside the formula at hand and gives way to one token, which makes it shorter; every call
gets a shorter formula without brackets and factorial signs; and there are at most as many
reductions, those of the calls included, as the formula has tokens. -/
theorem evaluation_bounded (levels : Nat) (f : Formula) :
    (evaluateNested (levels + 1) f).outcome = some (evaluate f)
      ∧ (∀ s ∈ (evaluateNested (levels + 1) f).steps, s.StaysWithin f.length)
      ∧ (evaluateNested (levels + 1) f).reductions ≤ f.length := by
  have h : (evaluateNested (levels + 1) f).Spends f.length f.length (fun _ => 0) (evaluate f) :=
    spends_evaluateCalling (isInOrder_evaluateNested levels f.length) (Nat.le_refl _)
  exact ⟨h.outcome, h.steps, Nat.le_trans (Nat.le_add_right _ _) h.reductions⟩

/-- Without any level brackets are not evaluated. -/
example : (evaluateNested 0 [.leftBracket, .number ⟨1, 0⟩, .rightBracket]).outcome = none := by
  cbv

end PocketCalc
