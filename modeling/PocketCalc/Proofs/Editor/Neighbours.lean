/-
  PocketCalc.Proofs.Editor.Neighbours
  ───────────────────────────────────
  **WHERE THE TOKENS OF A TYPED FORMULA STAND.**

  `depth?` reads a formula from its end and tells one number.  Here the same is
  said of every position:

      keepsOrder_of_depth?    each token stands behind one that it may follow
      isBalanced_of_depth?    with no bracket open, every bracket has its partner

  Both rest on one fact: what stands in front of a position can itself be typed.
-/
import PocketCalc.Proofs.Editor.Implied

namespace PocketCalc.Formula

/-! ## §1. Order. -/

/-- **Every token stands where it may.** -/
structure KeepsOrder (f : Formula) : Prop where
  /-- A number, a constant or a left bracket stands at the start, or behind a left
  bracket or an operator that joins two operands. -/
  operand : ∀ before t after, f = before ++ t :: after → t.beginsOperand = true →
    before.getLast?.all Token.awaitsOperand = true
  /-- A plus, product or quotient sign stands behind the end of a value. -/
  joint : ∀ before op after, f = before ++ .operator op :: after →
    op = .plus ∨ op = .times ∨ op = .divide → before.getLast?.any Token.endsValue = true
  /-- A minus sign stands at the start, behind a left bracket or behind the end of a
  value. -/
  minus : ∀ before after, f = before ++ .operator .minus :: after →
    before.getLast?.all (fun u => u.endsValue || u == .leftBracket) = true
  /-- A factorial sign stands behind a number. -/
  factorial : ∀ before after, f = before ++ .operator .factorial :: after →
    before.getLast?.any Token.isNumber = true
  /-- A point is the last token, and stands behind a number. -/
  point : ∀ before after, f = before ++ .point :: after →
    after = [] ∧ before.getLast?.any Token.isNumber = true

/-- What stands in front of a position can be typed. -/
theorem depth?_front {f g : Formula} {d : Nat} (h : depth? (f ++ g) = some d) :
    ∃ d', f.depth? = some d' := by
  induction g using List.reverseRecOn generalizing d with
  | nil => exact ⟨d, by simpa using h⟩
  | append_singleton g t ih =>
    rw [← List.append_assoc] at h
    obtain ⟨-, d', hd', -⟩ := depth?_pop h
    exact ih hd'

/-- The token at a position may follow the one in front of it. -/
theorem mayFollow_of_depth? {before after : Formula} {t : Token} {d : Nat}
    (h : depth? (before ++ t :: after) = some d) : t.mayFollow before.getLast? = true := by
  rw [List.append_cons] at h
  obtain ⟨d', hd'⟩ := depth?_front h
  exact (depth?_pop hd').1

/-- **A formula that can be typed keeps the order.** -/
theorem keepsOrder_of_depth? {f : Formula} {d : Nat} (h : f.depth? = some d) : f.KeepsOrder where
  operand := by
    rintro before t after rfl ht
    have hfollow := mayFollow_of_depth? h
    cases t with
    | operator op => cases ht
    | rightBracket => cases ht
    | point => cases ht
    | _ => exact hfollow
  joint := by
    rintro before op after rfl hop
    have hfollow := mayFollow_of_depth? h
    rcases hop with rfl | rfl | rfl <;> exact hfollow
  minus := by
    rintro before after rfl
    exact mayFollow_of_depth? h
  factorial := by
    rintro before after rfl
    exact mayFollow_of_depth? h
  point := by
    rintro before after rfl
    refine ⟨?_, mayFollow_of_depth? h⟩
    cases after with
    | nil => rfl
    | cons u after =>
      -- Nothing may follow a point.
      rw [List.append_cons] at h
      have hfollow := mayFollow_of_depth? h
      rw [List.getLast?_concat, not_mayFollow_point] at hfollow
      cases hfollow

/-- What ends a value awaits no operand. -/
theorem awaitsOperand_of_endsValue {t : Token} (h : t.endsValue = true) :
    t.awaitsOperand = false := by
  cases t with
  | operator op => cases op <;> first | rfl | cases h
  | leftBracket => cases h
  | _ => rfl

namespace KeepsOrder

variable {f : Formula}

/-- The token in front of an operand ends no value. -/
theorem values_apart (h : f.KeepsOrder) {before after : Formula} {t u : Token}
    (hf : f = before ++ t :: u :: after) (ht : t.endsValue = true) : u.beginsOperand = false := by
  rw [← Bool.not_eq_true]
  intro hu
  have hfront := h.operand (before ++ [t]) u after (by simp [hf]) hu
  rw [List.getLast?_concat, Option.all_some, awaitsOperand_of_endsValue ht] at hfront
  cases hfront

/-- No operator that joins two operands follows another one. -/
theorem operators_apart (h : f.KeepsOrder) {before after : Formula} {t u : Token}
    (hf : f = before ++ t :: u :: after) (ht : t.joins = true) : u.joins = false := by
  have hvalue := Token.endsValue_of_joins ht
  have hbracket : (t == .leftBracket) = false := by
    cases t with
    | leftBracket => cases ht
    | _ => rfl
  have hcut : f = (before ++ [t]) ++ u :: after := by simp [hf]
  cases u with
  | operator op =>
    subst hcut
    cases op with
    | factorial => rfl
    | minus =>
      have hfront := h.minus (before ++ [t]) after rfl
      rw [List.getLast?_concat, Option.all_some, hvalue, hbracket] at hfront
      cases hfront
    | _ =>
      have hfront := h.joint (before ++ [t]) _ after rfl (by decide)
      rw [List.getLast?_concat, Option.any_some, hvalue] at hfront
      cases hfront
  | _ => rfl

end KeepsOrder

/-! ## §2. Balance. -/

/-- **Every bracket has its partner.**  From the start up to any position at least as
many brackets are opened as closed, and on the whole just as many. -/
structure IsBalanced (f : Formula) : Prop where
  opened : ∀ front rest, f = front ++ rest →
    front.count .rightBracket ≤ front.count .leftBracket
  closed : f.count .leftBracket = f.count .rightBracket

/-- In a formula that can be typed, no front part closes more brackets than it opens. -/
theorem count_rightBracket_le {front rest : Formula} {d : Nat}
    (h : depth? (front ++ rest) = some d) :
    front.count .rightBracket ≤ front.count .leftBracket := by
  obtain ⟨d', hd'⟩ := depth?_front h
  rw [count_leftBracket hd']
  exact Nat.le_add_right _ d'

/-- **A formula that can be typed is balanced if no bracket is open.** -/
theorem isBalanced_of_depth? {f : Formula} (h : f.depth? = some 0) : f.IsBalanced where
  opened := by
    rintro front rest rfl
    exact count_rightBracket_le h
  closed := count_leftBracket h

end PocketCalc.Formula
