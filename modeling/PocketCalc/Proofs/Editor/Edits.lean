/-
  PocketCalc.Proofs.Editor.Edits
  ──────────────────────────────
  **WHAT A KEY DOES IN WHATEVER STATE THE EDITOR IS.**

  Nothing is assumed of the editor here, not even its invariant: a formula that was
  recalled from a file may be anything.  Still, every key that edits is either
  ignored, or the formula does not count as evaluated any more; and whatever number
  a key brings is in normal form.

      Keeps      a small step: the evaluated state stays
      Reopens    a key: the evaluated state ends
-/
import PocketCalc.Editor.Erasing
import PocketCalc.Editor.Evaluating
import PocketCalc.Proofs.Decimal.Normal
import PocketCalc.Proofs.Editor.Layout

namespace PocketCalc

/-! ## §1. Numbers in normal form. -/

/-- Every number of the formula is in normal form. -/
def Formula.IsNormal (f : Formula) : Prop := ∀ t ∈ f, t.IsNormal

theorem Token.isNormal_of_isNumber {t : Token} (h : t.isNumber = false) : t.IsNormal := by
  cases t with
  | number x => cases h
  | _ => trivial

namespace Formula.IsNormal

variable {f g : Formula}

theorem nil : IsNormal [] := fun _ h => nomatch h

theorem append (hf : f.IsNormal) (hg : g.IsNormal) : IsNormal (f ++ g) := by
  intro t ht
  exact (List.mem_append.1 ht).elim (hf t) (hg t)

/-- Tokens of a formula in normal form are in normal form themselves. -/
theorem of_subset (hf : f.IsNormal) (hg : ∀ t ∈ g, t ∈ f) : g.IsNormal :=
  fun t ht => hf t (hg t ht)

/-- A formula without numbers. -/
theorem of_isNumber (h : ∀ t ∈ f, t.isNumber = false) : f.IsNormal :=
  fun t ht => Token.isNormal_of_isNumber (h t ht)

/-- A decimal is normalised when it becomes a token. -/
theorem ofDecimal (x : Decimal) : IsNormal [Token.ofDecimal x] := by
  intro t ht
  rw [List.mem_singleton.1 ht]
  exact Decimal.isNormal_normalized x

end Formula.IsNormal

namespace Editor

/-! ## §2. Small steps. -/

/-- A small step keeps the evaluated state as it is, and it brings no number that is
not in normal form. -/
structure Keeps (e e' : Editor) : Prop where
  evaluated : e'.evaluated = e.evaluated
  normal : e.formula.IsNormal → e'.formula.IsNormal

namespace Keeps

variable {e e' e'' : Editor}

theorem refl (e : Editor) : Keeps e e := ⟨rfl, id⟩

theorem trans (h : Keeps e e') (h' : Keeps e' e'') : Keeps e e'' :=
  ⟨h'.evaluated.trans h.evaluated, h'.normal ∘ h.normal⟩

/-- A step that leaves tokens of the formula and puts others behind them. -/
theorem replace {base g : Formula} (hbase : ∀ t ∈ base, t ∈ e.formula) (hg : g.IsNormal)
    (hevaluated : e'.evaluated = e.evaluated) (hformula : e'.formula = base ++ g) : Keeps e e' :=
  ⟨hevaluated, fun h => hformula ▸ (h.of_subset hbase).append hg⟩

/-- A step that appends tokens. -/
theorem append {g : Formula} (hg : g.IsNormal) (hevaluated : e'.evaluated = e.evaluated)
    (hformula : e'.formula = e.formula ++ g) : Keeps e e' :=
  .replace (fun _ => id) hg hevaluated hformula

/-- A step that changes neither the formula nor its evaluated state. -/
theorem same (hevaluated : e'.evaluated = e.evaluated) (hformula : e'.formula = e.formula) :
    Keeps e e' :=
  ⟨hevaluated, fun h => hformula ▸ h⟩

/-- A step that takes tokens away. -/
theorem remove (hevaluated : e'.evaluated = e.evaluated)
    (hformula : ∀ t ∈ e'.formula, t ∈ e.formula) : Keeps e e' :=
  ⟨hevaluated, fun h => h.of_subset hformula⟩

end Keeps

variable {e : Editor}

theorem keeps_push {t : Token} (ht : t.isNumber = false) : Keeps e (e.push t) :=
  .append (.of_isNumber fun _ h => List.mem_singleton.1 h ▸ ht) rfl rfl

theorem keeps_pop (e : Editor) : Keeps e e.pop :=
  .remove rfl fun _ => (List.dropLast_subset _ ·)

/-- The number that is typed is normalised when it is put into the formula. -/
theorem keeps_pushTyped (e : Editor) : Keeps e e.pushTyped := by
  unfold pushTyped
  split
  · exact .append (.ofDecimal _) rfl rfl
  · exact .refl e

/-- An implied product sign is no number. -/
theorem keeps_pushImpliedTimes (e : Editor) : Keeps e e.pushImpliedTimes :=
  (keeps_push (t := .operator .times) rfl).trans (.same rfl rfl)

/-- Behind a value a product sign is implied, elsewhere nothing. -/
theorem keeps_multiplyBehindValue (e : Editor) : Keeps e e.multiplyBehindValue := by
  unfold multiplyBehindValue
  split
  · exact keeps_pushImpliedTimes e
  · exact .refl e

/-- The same behind a constant, a factorial sign or a right bracket. -/
theorem keeps_multiplyBehindAppended (e : Editor) : Keeps e e.multiplyBehindAppended := by
  unfold multiplyBehindAppended
  split
  · exact .refl e
  · exact (keeps_pushImpliedTimes e).trans (.same rfl rfl)

theorem mem_of_mem_withoutFinalPoint {f : Formula} {t : Token} (h : t ∈ withoutFinalPoint f) :
    t ∈ f := by
  unfold withoutFinalPoint at h
  split at h
  · exact List.dropLast_subset f h
  · exact h

/-- Only the pending point at the end goes. -/
theorem keeps_dropPendingPoint (e : Editor) : Keeps e e.dropPendingPoint := by
  unfold dropPendingPoint
  split
  · exact .remove rfl fun _ => mem_of_mem_withoutFinalPoint
  · exact .refl e

/-- A number is typed on from its text, with the point behind it if that is pending. -/
theorem keeps_resume (e : Editor) (text : List Char) : Keeps e (e.resume text) := by
  -- The number is typed on first, and its point follows if it is pending.
  have htyped : Keeps e
      { e with
        typed := text, typing := true, hasPoint := text.contains '.'
        pointPending := text.getLast? == some '.' }.pushTyped := by
    refine Keeps.trans ?_ (keeps_pushTyped _)
    exact .same rfl rfl
  unfold resume
  dsimp only
  split
  · exact htyped.trans (keeps_push rfl)
  · exact htyped

/-- The last token goes. -/
theorem keeps_removeToken (e : Editor) : Keeps e e.removeToken := by
  unfold removeToken
  split <;> exact .remove rfl fun _ => (List.dropLast_subset _ ·)

/-- Only the implied product sign at the end goes. -/
theorem keeps_dropImpliedTimes (e : Editor) : Keeps e e.dropImpliedTimes := by
  unfold dropImpliedTimes
  dsimp only
  split
  · exact .remove rfl fun _ => (List.dropLast_subset _ ·)
  · exact .same rfl rfl

/-- The last token becomes the number that is typed, or the editor only notes it. -/
theorem keeps_resync (e : Editor) : Keeps e e.resync := by
  unfold resync
  split
  · exact (keeps_pop e).trans (keeps_resume e.pop _)
  · exact .same rfl rfl
  · exact .same rfl rfl
  · exact .same rfl rfl
  · exact .refl e

theorem mem_of_mem_withoutFinalSigns {f : Formula} {t : Token} (h : t ∈ withoutFinalSigns f) :
    t ∈ f :=
  List.mem_reverse.1 ((List.dropWhile_sublist _).subset (List.mem_reverse.1 h))

/-- The signs at the end go, and the operator may take their place. -/
theorem keeps_placeOperator (e : Editor) (op : Operator) : Keeps e (e.placeOperator op) := by
  -- Wherever the operator is put, it comes behind a first part of the old formula.
  have hbase : ∀ t ∈ withoutFinalSigns e.formula, t ∈ e.formula :=
    fun _ => mem_of_mem_withoutFinalSigns
  have hbase' : ∀ t ∈ (withoutFinalSigns e.formula).dropLast, t ∈ e.formula :=
    fun t ht => hbase t (List.dropLast_subset _ ht)
  have hop : Formula.IsNormal [.operator op] := .of_isNumber (by simp [Token.isNumber])
  have hopen : Formula.IsNormal [.leftBracket, .operator op] :=
    .of_isNumber (by simp [Token.isNumber])
  unfold placeOperator
  dsimp only
  split
  · split
    · exact .replace hbase hopen rfl rfl
    · exact .replace hbase' hop rfl rfl
  · split
    · exact .replace hbase hopen rfl rfl
    · exact .replace hbase' hop rfl rfl
  · split
    · exact .replace hbase hop rfl rfl
    · exact .remove rfl hbase
  · split
    · exact .replace hbase hop rfl rfl
    · exact .remove rfl hbase
  · exact .replace hbase hop rfl rfl

/-! ## §3. Keys. -/

/-- A key that is not ignored ends the evaluated state, and it brings no number that is
not in normal form. -/
structure Reopens (e e' : Editor) : Prop where
  evaluated : e'.evaluated = false
  normal : e.formula.IsNormal → e'.formula.IsNormal

theorem Reopens.not_evaluated {e' : Editor} (h : Reopens e e') : ¬ e'.evaluated = true :=
  fun hevaluated => Bool.false_ne_true (h.evaluated.symm.trans hevaluated)

theorem Reopens.keeps {e' e'' : Editor} (h : Reopens e e') (h' : Keeps e' e'') : Reopens e e'' :=
  ⟨h'.evaluated.trans h.evaluated, h'.normal ∘ h.normal⟩

/-- A key that may be ignored brings no number out of its normal form either way. -/
theorem isNormal_of_cases {e' : Editor} (h : e' = e ∨ Reopens e e') :
    e.formula.IsNormal → e'.formula.IsNormal := by
  rcases h with rfl | h
  · exact id
  · exact h.normal

/-- A new formula is empty. -/
theorem reopens_restart (e : Editor) : Reopens e e.restart := ⟨rfl, fun _ => .nil⟩

/-- Nothing of an evaluated formula is left. -/
theorem reopens_restartIfEvaluated (e : Editor) : Reopens e e.restartIfEvaluated := by
  unfold restartIfEvaluated
  split
  · exact reopens_restart e
  · next h => exact ⟨by simpa using h, id⟩

/-- A formula that was evaluated goes on from its result. -/
theorem reopens_closeNumber (e : Editor) : Reopens e e.closeNumber := by
  have hclose : ∀ opened : Editor, Reopens e opened →
      Reopens e { opened.dropPendingPoint with hasPoint := false, typing := false, typed := [] } :=
    fun opened h => (h.keeps (keeps_dropPendingPoint opened)).keeps (.same rfl rfl)
  unfold closeNumber
  refine hclose _ ?_
  -- The formula goes on from the result, or it stays and counts as not evaluated.
  split
  · exact ⟨rfl, fun _ => .ofDecimal _⟩
  · exact ⟨rfl, id⟩

/-- A digit edits the formula. -/
theorem reopens_typeDigit (e : Editor) {d : Nat} (hd : d ≤ 9) : Reopens e (e.typeDigit d) := by
  have hready : Reopens e e.restartIfEvaluated.multiplyBehindAppended.dropPendingPoint :=
    ((reopens_restartIfEvaluated e).keeps (keeps_multiplyBehindAppended _)).keeps
      (keeps_dropPendingPoint _)
  unfold typeDigit
  rw [if_neg (by omega)]
  dsimp only
  -- What the steps in front made of the editor does not matter any more.
  generalize e.restartIfEvaluated.multiplyBehindAppended.dropPendingPoint = ready at hready ⊢
  refine Reopens.keeps ?_ (keeps_pushTyped _)
  split
  · exact (hready.keeps (keeps_pop ready)).keeps (.same rfl rfl)
  · exact hready.keeps (.same rfl rfl)

/-- What is no digit is ignored. -/
theorem typeDigit_of_lt (e : Editor) {d : Nat} (hd : 9 < d) : e.typeDigit d = e := if_pos hd

/-- A digit key is ignored, or the formula is edited. -/
theorem typeDigit_cases (e : Editor) (d : Nat) : e.typeDigit d = e ∨ Reopens e (e.typeDigit d) := by
  by_cases hd : 9 < d
  · exact .inl (typeDigit_of_lt e hd)
  · exact .inr (reopens_typeDigit e (Nat.le_of_not_lt hd))

/-- The point key counts as an edit, even where it adds no second point. -/
theorem reopens_typePoint (e : Editor) : Reopens e e.typePoint := by
  have hstart := reopens_restartIfEvaluated e
  unfold typePoint
  dsimp only
  generalize e.restartIfEvaluated = start at hstart ⊢
  split
  · exact hstart
  · refine Reopens.keeps (Reopens.keeps ?_ (keeps_pushTyped _)) (keeps_push rfl)
    split
    · exact (hstart.keeps (keeps_pop start)).keeps (.same rfl rfl)
    · exact (hstart.keeps (keeps_multiplyBehindAppended start)).keeps (.same rfl rfl)

/-- The factorial key is ignored, or the formula is edited. -/
theorem typeFactorial_cases (e : Editor) :
    e.typeFactorial = e ∨ Reopens e e.typeFactorial := by
  unfold typeFactorial
  split
  · exact .inl rfl
  · right
    exact ((reopens_closeNumber e).keeps (keeps_push rfl)).keeps (.same rfl rfl)

/-- Only the factorial sign may be ignored. -/
theorem typeOperator_cases (e : Editor) (op : Operator) :
    e.typeOperator op = e ∨ Reopens e (e.typeOperator op) := by
  unfold typeOperator
  split
  · exact typeFactorial_cases e
  · right
    refine Reopens.keeps ?_ (keeps_placeOperator (e.closeNumber.note .other) op)
    exact (reopens_closeNumber e).keeps (.same rfl rfl)

theorem reopens_typeConstant (e : Editor) (c : Constant) : Reopens e (e.typeConstant c) :=
  (((reopens_closeNumber e).keeps (keeps_multiplyBehindValue _)).keeps (keeps_push rfl)).keeps
    (.same rfl rfl)

theorem reopens_typeLeftBracket (e : Editor) : Reopens e e.typeLeftBracket :=
  (((reopens_closeNumber e).keeps (keeps_multiplyBehindValue _)).keeps (keeps_push rfl)).keeps
    (.same rfl rfl)

/-- A right bracket is ignored if none is open, or the formula is edited. -/
theorem typeRightBracket_cases (e : Editor) :
    e.typeRightBracket = e ∨ Reopens e e.typeRightBracket := by
  unfold typeRightBracket
  split
  · exact .inl rfl
  · right
    exact ((reopens_closeNumber e).keeps (keeps_push rfl)).keeps (.same rfl rfl)

/-- The erasing key edits the formula, whatever it ends with. -/
theorem reopens_erase (e : Editor) : Reopens e e.erase := by
  unfold erase
  dsimp only
  split
  · exact ⟨rfl, fun h => h.of_subset fun _ => mem_of_mem_withoutFinalPoint⟩
  · -- Without a pending point a number is shortened, or the last token goes.
    have hopen : Reopens e
        { e with
          evaluated := false, appended := .other, typed := [], typing := false
          hasPoint := false } := ⟨rfl, id⟩
    split
    · split
      · exact ((hopen.keeps (keeps_pop _)).keeps (keeps_dropImpliedTimes _)).keeps (keeps_resync _)
      · exact (hopen.keeps (keeps_pop _)).keeps (keeps_resume _ _)
    · exact ((hopen.keeps (keeps_removeToken _)).keeps (keeps_dropImpliedTimes _)).keeps
        (keeps_resync _)

/-- Equals brings no number. -/
theorem isNormal_complete (h : e.formula.IsNormal) : e.complete.formula.IsNormal := by
  have hbrackets : ∀ d, Formula.IsNormal (List.replicate d .rightBracket) := fun d =>
    .of_isNumber fun t ht => by rw [(List.mem_replicate.1 ht).2]; rfl
  unfold complete
  dsimp only
  split
  · exact h.append (hbrackets _)
  · exact ((reopens_closeNumber e).normal h).append (hbrackets _)

end Editor

end PocketCalc
