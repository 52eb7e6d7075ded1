/-
  PocketCalc.Proofs.Editor.Layout
  ───────────────────────────────
  **FORMULAS THAT CAN BE TYPED.**

  Which token may stand right behind which one, and how many brackets are open:
  this is all that the editor watches over.  `depth?` reads a formula from its
  end, so that the law about one more token is an equation:

      depth? (f ++ [t])  =  depth? f, deepened by t, if t may follow

  A formula of this kind is not far from one of the grammar.  It is well formed
  as soon as it is closed, there is an operand at its end, and no bracket ends
  where an operand is expected (`wellFormed_iff_of_depth`).
-/
import Mathlib.Data.List.Induction
import PocketCalc.Proofs.Grammar.Reading

namespace PocketCalc

/-! ## §1. Neighbours. -/

namespace Token

/-- Does the token stand between two operands? -/
def joins : Token → Bool
  | .operator op => op != .factorial
  | _ => false

/-- Does an operand have to follow? -/
def awaitsOperand (t : Token) : Bool := t.joins || t == .leftBracket

/-- Is the token a number? -/
def isNumber : Token → Bool
  | .number _ => true
  | _ => false

/-- An operator that joins two operands ends no value. -/
theorem endsValue_of_joins {t : Token} (h : t.joins = true) : t.endsValue = false := by
  cases t with
  | operator op => cases op <;> first | rfl | cases h
  | _ => cases h

/-- May the token stand right behind `previous`, or at the start of a formula? -/
def mayFollow (t : Token) (previous : Option Token) : Bool :=
  match t with
  | .number _ | .constant _ | .leftBracket => previous.all awaitsOperand
  | .operator .factorial | .point => previous.any isNumber
  | .operator .minus => previous.all fun u => u.endsValue || u == .leftBracket
  | .operator _ => previous.any endsValue
  | .rightBracket => previous.all (· != .point)

/-- The open brackets behind the token, with `d` of them in front of it. -/
def deepen (t : Token) (d : Nat) : Option Nat :=
  match t, d with
  | .leftBracket, d => some (d + 1)
  | .rightBracket, 0 => none
  | .rightBracket, d + 1 => some d
  | _, d => some d

end Token

/-! ## §2. Open brackets. -/

/-- The open brackets of a formula that is given from its end to its start, if
each token may follow the one in front of it. -/
def depthBackwards : List Token → Option Nat
  | [] => some 0
  | t :: f => if t.mayFollow f.head? then (depthBackwards f).bind t.deepen else none

namespace Formula

/-- The open brackets of a formula, if each token may follow the one in front of
it. -/
def depth? (f : Formula) : Option Nat := depthBackwards f.reverse

@[simp] theorem depth?_nil : depth? [] = some 0 := rfl

theorem depth?_concat (f : Formula) (t : Token) :
    depth? (f ++ [t]) = if t.mayFollow f.getLast? then f.depth?.bind t.deepen else none := by
  unfold depth?
  rw [List.reverse_append]
  show depthBackwards (t :: f.reverse) = _
  rw [depthBackwards, List.head?_reverse]

/-- One more token that may follow. -/
theorem depth?_push {f : Formula} {t : Token} {d d' : Nat} (hf : f.depth? = some d)
    (ht : t.mayFollow f.getLast? = true) (hd : t.deepen d = some d') :
    depth? (f ++ [t]) = some d' := by
  rw [depth?_concat, if_pos ht, hf]
  exact hd

/-- The last token taken away. -/
theorem depth?_pop {f : Formula} {t : Token} {d : Nat} (h : depth? (f ++ [t]) = some d) :
    t.mayFollow f.getLast? = true ∧ ∃ d', f.depth? = some d' ∧ t.deepen d' = some d := by
  rw [depth?_concat] at h
  split at h
  · next ht => exact ⟨ht, Option.bind_eq_some_iff.1 h⟩
  · cases h

theorem deepen_rightBracket {d : Nat} (h : d ≠ 0) : Token.rightBracket.deepen d = some (d - 1) := by
  cases d with
  | zero => exact absurd rfl h
  | succ d => rfl

theorem deepen_operator (op : Operator) (d : Nat) : (Token.operator op).deepen d = some d := rfl

/-- Operators open and close no bracket. -/
theorem depth?_dropOperators {f g : Formula} {d : Nat} (h : depth? (f ++ g) = some d)
    (hg : ∀ t ∈ g, ∃ op, t = .operator op) : f.depth? = some d := by
  induction g generalizing f with
  | nil => simpa using h
  | cons t g ih =>
    obtain ⟨op, rfl⟩ := hg t List.mem_cons_self
    rw [List.append_cons] at h
    have hf := ih h fun u hu => hg u (List.mem_cons_of_mem _ hu)
    obtain ⟨-, d', hd', hdeep⟩ := depth?_pop hf
    cases hdeep
    exact hd'

/-- Right brackets close all brackets that are open, if no point stands at the
end. -/
theorem depth?_close {f : Formula} {d : Nat} (h : f.depth? = some d)
    (hlast : f.getLast? ≠ some .point) :
    depth? (f ++ List.replicate d .rightBracket) = some 0 := by
  induction d generalizing f with
  | zero => simpa using h
  | succ d ih =>
    have hfollow : Token.rightBracket.mayFollow f.getLast? = true := by
      cases hl : f.getLast? with
      | none => rfl
      | some t => simpa [Token.mayFollow, hl] using hlast
    rw [List.replicate_succ, List.append_cons]
    exact ih (depth?_push h hfollow rfl) (by simp)

/-- What holds of the empty formula and is kept by every token that may follow
holds of all formulas that can be typed. -/
theorem depth?_induction {motive : Formula → Nat → Prop} (nil : motive [] 0)
    (push : ∀ (f : Formula) (t : Token) (d d' : Nat), f.depth? = some d →
      t.mayFollow f.getLast? = true → t.deepen d = some d' → motive f d → motive (f ++ [t]) d')
    {f : Formula} {d : Nat} (h : f.depth? = some d) : motive f d := by
  induction f using List.reverseRecOn generalizing d with
  | nil =>
    cases h
    exact nil
  | append_singleton f t ih =>
    obtain ⟨ht, d', hd', hdeep⟩ := depth?_pop h
    exact push f t d' d hd' ht hdeep (ih hd')

theorem not_mayFollow_point (t : Token) : t.mayFollow (some .point) = false := by
  cases t with
  | operator op => cases op <;> rfl
  | _ => rfl

/-- Nothing follows a point. -/
theorem not_mem_point {f : Formula} {d : Nat} (h : f.depth? = some d)
    (hlast : f.getLast? ≠ some .point) : Token.point ∉ f := by
  refine depth?_induction (motive := fun f _ => f.getLast? ≠ some .point → Token.point ∉ f)
    ?_ ?_ h hlast
  · exact fun _ => List.not_mem_nil
  · -- Whatever is appended, a point cannot have been the last token.
    intro f t d d' hd ht hdeep ih hlast hmem
    have hf : f.getLast? ≠ some .point := by
      intro hp
      rw [hp, not_mayFollow_point] at ht
      cases ht
    rcases List.mem_append.1 hmem with hmem | hmem
    · exact ih hf hmem
    · rw [List.mem_singleton.1 hmem] at hlast
      exact hlast List.getLast?_concat

/-- The open brackets are the left ones without the right ones. -/
theorem count_leftBracket {f : Formula} {d : Nat} (h : f.depth? = some d) :
    f.count .leftBracket = f.count .rightBracket + d := by
  refine depth?_induction
    (motive := fun f d => f.count .leftBracket = f.count .rightBracket + d) rfl ?_ h
  intro f t d d' hd ht hdeep ih
  rw [List.count_append, List.count_append, ih]
  cases t with
  | leftBracket =>
    cases hdeep
    simp
    omega
  | rightBracket =>
    cases d with
    | zero => cases hdeep
    | succ d =>
      cases hdeep
      simp
      omega
  | _ =>
    cases hdeep
    simp

end Formula

/-! ## §3. What is missing from a formula of the grammar. -/

/-- Does every place for an operand have its operand?  The formula is not empty,
does not end with an operator that joins two operands, and has no right bracket
right behind a left one or behind such an operator. -/
structure Formula.IsFilled (f : Formula) : Prop where
  nonempty : f ≠ []
  ends : ∀ t, f.getLast? = some t → t.joins = false
  closes : ∀ before t after, f = before ++ t :: .rightBracket :: after → t.awaitsOperand = false

namespace Place

/-- Where the pass over the grammar may stand behind a token that was typed. -/
inductive Fits : Option Token → Standing → Prop where
  | start : Fits none (.before false)
  | bracket : Fits (some .leftBracket) (.before false)
  | operator {t : Token} (signed : Bool) (h : t.joins = true) : Fits (some t) (.before signed)
  | number (v : Decimal) : Fits (some (.number v)) (.behind true)
  | factorial : Fits (some (.operator .factorial)) (.behind true)
  | constant (c : Constant) : Fits (some (.constant c)) (.behind false)
  | closed : Fits (some .rightBracket) (.behind false)

/-- Where an operand may be typed, the grammar expects one. -/
theorem Fits.before {last : Option Token} {s : Standing} (hs : Fits last s)
    (h : last.all Token.awaitsOperand = true) : ∃ signed, s = .before signed := by
  cases hs with
  | start => exact ⟨false, rfl⟩
  | bracket => exact ⟨false, rfl⟩
  | operator signed hop => exact ⟨signed, rfl⟩
  | _ => cases h

/-- Behind the end of a value the grammar has an operand. -/
theorem Fits.behind {last : Option Token} {s : Standing} (hs : Fits last s)
    (h : last.any Token.endsValue = true) : ∃ number, s = .behind number := by
  cases hs with
  | start => cases h
  | bracket => cases h
  | operator signed hop =>
    rw [Option.any_some, Token.endsValue_of_joins hop] at h
    cases h
  | number v => exact ⟨true, rfl⟩
  | factorial => exact ⟨true, rfl⟩
  | constant c => exact ⟨false, rfl⟩
  | closed => exact ⟨false, rfl⟩

theorem Fits.number_of_isNumber {last : Option Token} {s : Standing} (hs : Fits last s)
    (h : last.any Token.isNumber = true) : s = .behind true := by
  cases hs with
  | number v => rfl
  | @operator t signed hop => cases t <;> first | (cases h; done) | cases hop
  | _ => cases h

/-- A minus sign that may be typed is one of an operand, or it joins two. -/
theorem Fits.minus {last : Option Token} {s : Standing} (hs : Fits last s)
    (h : Token.mayFollow (.operator .minus) last = true) :
    s = .before false ∨ ∃ number, s = .behind number := by
  cases hs with
  | start => exact .inl rfl
  | bracket => exact .inl rfl
  | @operator t signed hop =>
    have hvalue := Token.endsValue_of_joins hop
    have hbracket : t ≠ .leftBracket := by
      rintro rfl
      cases hop
    simp [Token.mayFollow, hvalue, hbracket] at h
  | number v => exact .inr ⟨true, rfl⟩
  | factorial => exact .inr ⟨true, rfl⟩
  | constant c => exact .inr ⟨false, rfl⟩
  | closed => exact .inr ⟨false, rfl⟩

/-- **What may be typed may be read**, a point apart and a right bracket where an
operand is expected. -/
theorem next?_fits {last : Option Token} {s : Standing} {t : Token} {d d' : Nat}
    (hs : Fits last s) (ht : t.mayFollow last = true) (hd : t.deepen d = some d')
    (hpoint : t ≠ .point) (hclose : t = .rightBracket → last.any Token.endsValue = true) :
    ∃ s', next? ⟨s, d⟩ t = some ⟨s', d'⟩ ∧ Fits (some t) s' := by
  cases t with
  | number v =>
    obtain ⟨signed, rfl⟩ := hs.before ht
    cases hd
    exact ⟨.behind true, rfl, .number v⟩
  | constant c =>
    obtain ⟨signed, rfl⟩ := hs.before ht
    cases hd
    exact ⟨.behind false, rfl, .constant c⟩
  | leftBracket =>
    obtain ⟨signed, rfl⟩ := hs.before ht
    cases hd
    exact ⟨.before false, rfl, .bracket⟩
  | rightBracket =>
    obtain ⟨number, rfl⟩ := hs.behind (hclose rfl)
    cases d with
    | zero => cases hd
    | succ d =>
      cases hd
      exact ⟨.behind false, by cases number <;> rfl, .closed⟩
  | point => exact absurd rfl hpoint
  | operator op =>
    cases hd
    cases op with
    | factorial =>
      obtain rfl := hs.number_of_isNumber ht
      exact ⟨.behind true, rfl, .factorial⟩
    | minus =>
      -- It belongs to the next operand, or it joins two.
      rcases hs.minus ht with rfl | ⟨number, rfl⟩
      · exact ⟨.before true, rfl, .operator true rfl⟩
      · exact ⟨.before false, by cases number <;> rfl, .operator false rfl⟩
    | _ =>
      obtain ⟨number, rfl⟩ := hs.behind ht
      exact ⟨.before false, by cases number <;> rfl, .operator false rfl⟩

end Place

namespace Formula

/-- Of the tokens that a right bracket may follow, only those that await an operand
end no value. -/
theorem endsValue_of_not_awaits {t : Token} (h : t.awaitsOperand = false) (hpoint : t ≠ .point) :
    t.endsValue = true := by
  cases t with
  | operator op => cases op <;> first | rfl | cases h
  | leftBracket => cases h
  | point => exact absurd rfl hpoint
  | _ => rfl

/-- A formula that was typed is read up to its end. -/
theorem read?_of_depth? {f : Formula} {d : Nat} (h : f.depth? = some d) (hpoint : Token.point ∉ f)
    (hcloses : ∀ before t after, f = before ++ t :: .rightBracket :: after →
      t.awaitsOperand = false) :
    ∃ s, Place.start.read? f = some ⟨s, d⟩ ∧ Place.Fits f.getLast? s := by
  refine depth?_induction (motive := fun f d => Token.point ∉ f →
    (∀ before t after, f = before ++ t :: .rightBracket :: after → t.awaitsOperand = false) →
    ∃ s, Place.start.read? f = some ⟨s, d⟩ ∧ Place.Fits f.getLast? s) ?_ ?_ h hpoint hcloses
  · intro _ _
    exact ⟨.before false, rfl, .start⟩
  · intro f t d d' hd ht hdeep ih hpoint hcloses
    have hpf : Token.point ∉ f := fun hp => hpoint (List.mem_append_left _ hp)
    have hpt : t ≠ .point := by
      rintro rfl
      exact hpoint (List.mem_append_right _ List.mem_cons_self)
    obtain ⟨s, hread, hs⟩ := ih hpf (by
      rintro before u after rfl
      exact hcloses before u (after ++ [t]) (by simp))
    -- A right bracket has an open one in front of it, so the formula is not empty.
    have hclose : t = .rightBracket → f.getLast?.any Token.endsValue = true := by
      rintro rfl
      rcases List.eq_nil_or_concat f with rfl | ⟨g, u, rfl⟩
      · cases hd
        cases hdeep
      · rw [List.concat_eq_append] at hcloses hpf ⊢
        have hu := hcloses g u [] (by simp)
        rw [List.getLast?_concat]
        exact endsValue_of_not_awaits hu fun h => hpf (by simp [h])
    obtain ⟨s', hnext, hs'⟩ := Place.next?_fits hs ht hdeep hpt hclose
    refine ⟨s', ?_, by rwa [List.getLast?_concat]⟩
    rw [Place.read?_append, hread]
    show (Place.next? ⟨s, d⟩ t).bind _ = _
    rw [hnext]
    rfl

/-- The grammar expects an operand behind a token that awaits one. -/
theorem before_of_awaits {p q : Place} {t : Token} (ht : t.awaitsOperand = true)
    (h : p.next? t = some q) : ∃ signed, q.standing = .before signed := by
  obtain ⟨s, d⟩ := p
  cases t with
  | leftBracket =>
    cases s with
    | before signed =>
      cases h
      exact ⟨false, rfl⟩
    | behind number => cases number <;> cases h
  | operator op =>
    cases s with
    | before signed =>
      cases op <;> cases signed <;> first | (cases h; done) | (cases h; exact ⟨_, rfl⟩)
    | behind number =>
      cases op <;> cases number <;> first | (cases ht; done) | (cases h; exact ⟨_, rfl⟩)
  | _ => cases ht

/-- A formula of the grammar has all its operands. -/
theorem isFilled_of_wellFormed {f : Formula} (h : f.wellFormed = true) : f.IsFilled where
  nonempty := by
    rintro rfl
    cases h
  ends := by
    intro t hlast
    obtain ⟨g, rfl⟩ := List.getLast?_eq_some_iff.1 hlast
    rw [← Bool.not_eq_true]
    intro hjoins
    have ht : t.awaitsOperand = true := by simp [Token.awaitsOperand, hjoins]
    -- The pass would end in front of an operand.
    obtain ⟨q, hq, hend⟩ := (Option.any_eq_true _ _).1 h
    rw [Place.read?_append] at hq
    obtain ⟨p, -, hp⟩ := Option.bind_eq_some_iff.1 hq
    obtain ⟨r, hr, hrq⟩ := Option.bind_eq_some_iff.1 hp
    cases hrq
    obtain ⟨signed, hs⟩ := before_of_awaits ht hr
    obtain ⟨s, d⟩ := q
    cases hs
    cases hend
  closes := by
    rintro before t after rfl
    rw [← Bool.not_eq_true]
    intro ht
    -- In front of an operand no bracket is closed.
    obtain ⟨q, hq, -⟩ := (Option.any_eq_true _ _).1 h
    rw [Place.read?_append] at hq
    obtain ⟨p, -, hp⟩ := Option.bind_eq_some_iff.1 hq
    obtain ⟨r, hr, hrq⟩ := Option.bind_eq_some_iff.1 hp
    obtain ⟨signed, hs⟩ := before_of_awaits ht hr
    obtain ⟨s, d⟩ := r
    cases hs
    cases hrq

/-- **A closed formula that was typed is well formed exactly if it is filled.** -/
theorem wellFormed_iff_of_depth {f : Formula} (h : f.depth? = some 0) (hpoint : Token.point ∉ f) :
    f.wellFormed = true ↔ f.IsFilled := by
  refine ⟨isFilled_of_wellFormed, ?_⟩
  intro hf
  obtain ⟨s, hread, hs⟩ := read?_of_depth? h hpoint hf.closes
  have hlast : f.getLast?.any Token.endsValue = true := by
    rcases List.eq_nil_or_concat f with rfl | ⟨g, t, rfl⟩
    · exact absurd rfl hf.nonempty
    · rw [List.concat_eq_append] at h hpoint hf ⊢
      have hjoins := hf.ends t List.getLast?_concat
      have hpt : t ≠ .point := fun h => hpoint (by simp [h])
      -- A left bracket at the end would be open.
      have hbracket : t ≠ .leftBracket := by
        rintro rfl
        obtain ⟨-, d, -, hd⟩ := depth?_pop h
        cases hd
      rw [List.getLast?_concat]
      exact endsValue_of_not_awaits (by simp [Token.awaitsOperand, hjoins, hbracket]) hpt
  obtain ⟨number, rfl⟩ := hs.behind hlast
  show (Place.start.read? f).any Place.isEnd = true
  rw [hread]
  rfl

end Formula

end PocketCalc
