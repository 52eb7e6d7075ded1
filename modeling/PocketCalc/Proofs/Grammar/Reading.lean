/-
  PocketCalc.Proofs.Grammar.Reading
  ─────────────────────────────────
  **READING A FORMULA TOKEN BY TOKEN.**

  Whether a formula is well formed can be told in one pass from left to right
  that remembers no more than a `Place`: whether an operand is expected or has
  just ended, and how many brackets are open.  A `Reading` does the same pass and
  builds the syntax tree on the way; it stands at the same place.

      take?_place      the tree-building pass follows the plain one
      take?_tokens     nothing that was read is lost
      read?_tokens     an expression written out is read back as it was

  So the well-formed formulas are the expressions written out, and an expression
  is determined by its tokens:

      wellFormed_iff      f.wellFormed  ↔  ∃ e, e.tokens = f
      tokens_injective    e.tokens = e'.tokens  →  e = e'
-/
import PocketCalc.Proofs.Grammar.Expression

namespace PocketCalc

/-! ## §1. The plain pass. -/

/-- What the last token read leaves: an operand is expected, perhaps with its
minus sign read already, or an operand has ended, perhaps with a number. -/
inductive Standing where
  | before (signed : Bool)
  | behind (number : Bool)
  deriving DecidableEq, Repr

/-- Where a pass over a formula stands. -/
structure Place where
  standing : Standing
  /-- The brackets that are open. -/
  depth : Nat
  deriving DecidableEq, Repr

namespace Place

/-- The place in front of a formula. -/
def start : Place := ⟨.before false, 0⟩

/-- The place behind the next token, if it may stand there. -/
def next? : Place → Token → Option Place
  | ⟨.before signed, d⟩, .operator .minus => if signed then none else some ⟨.before true, d⟩
  | ⟨.before _, d⟩, .number _ => some ⟨.behind true, d⟩
  | ⟨.before _, d⟩, .constant _ => some ⟨.behind false, d⟩
  | ⟨.before _, d⟩, .leftBracket => some ⟨.before false, d + 1⟩
  | ⟨.behind true, d⟩, .operator .factorial => some ⟨.behind true, d⟩
  | ⟨.behind false, _⟩, .operator .factorial => none
  | ⟨.behind _, d⟩, .operator _ => some ⟨.before false, d⟩
  | ⟨.behind _, d + 1⟩, .rightBracket => some ⟨.behind false, d⟩
  | _, _ => none

/-- The place behind several tokens. -/
def read? (p : Place) (f : Formula) : Option Place := f.foldlM next? p

/-- May a formula end here? -/
def isEnd : Place → Bool
  | ⟨.behind _, 0⟩ => true
  | _ => false

/-- Do the tokens complete what was read so far? -/
def accepts (p : Place) (f : Formula) : Bool := (p.read? f).any isEnd

@[simp] theorem read?_nil (p : Place) : p.read? [] = some p := rfl

@[simp] theorem read?_cons (p : Place) (t : Token) (f : Formula) :
    p.read? (t :: f) = (p.next? t).bind fun q => q.read? f := rfl

/-- A formula is passed over in parts. -/
theorem read?_append (p : Place) (f g : Formula) :
    p.read? (f ++ g) = (p.read? f).bind fun q => q.read? g := by
  unfold read?
  rw [List.foldlM_append]
  rfl

/-- The second part has to complete what the first one left. -/
theorem accepts_append (p : Place) (f g : Formula) :
    p.accepts (f ++ g) = (p.read? f).any fun q => q.accepts g := by
  unfold accepts
  rw [read?_append]
  cases p.read? f <;> rfl

end Place

/-- Is the formula one of the grammar? -/
def Formula.wellFormed (f : Formula) : Bool := Place.start.accepts f

/-! ## §2. The pass that builds the tree. -/

/-- A place for an atom in an expression: the sum in front of its product, the
minus sign of the product, and the factors in front of the atom. -/
structure Slot where
  sum : Option (Expression × Additive) := none
  negated : Bool := false
  factors : Option (Product × Tight × Bool) := none

namespace Slot

/-- Has the minus sign of the atom been read? -/
def signed (s : Slot) : Bool :=
  match s.factors with
  | none => s.negated
  | some (_, _, negated) => negated

/-- The same place behind a minus sign. -/
def behindMinus (s : Slot) : Slot :=
  match s.factors with
  | none => { s with negated := true }
  | some (p, op, _) => { s with factors := some (p, op, true) }

/-- The product that ends with the atom. -/
def product (s : Slot) (a : Atom) : Product :=
  match s.factors with
  | none => .single a
  | some (p, op, negated) => .join p op negated a

/-- The expression that ends with the atom. -/
def expression (s : Slot) (a : Atom) : Expression :=
  match s.sum with
  | none => .single s.negated (s.product a)
  | some (e, op) => .join e op s.negated (s.product a)

/-- The place behind the atom and a product or quotient sign. -/
def behindTight (s : Slot) (a : Atom) (op : Tight) : Slot :=
  { s with factors := some (s.product a, op, false) }

/-- The place behind the atom and a plus or minus sign. -/
def behindAdditive (s : Slot) (a : Atom) (op : Additive) : Slot :=
  { sum := some (s.expression a, op) }

/-- What stands in front of the place, as far as the product goes. -/
def factorTokens (s : Slot) : Formula :=
  match s.factors with
  | none => []
  | some (p, op, negated) => p.tokens ++ .operator op.val :: minusSign negated

/-- What stands in front of the product. -/
def sumTokens (s : Slot) : Formula :=
  match s.sum with
  | none => []
  | some (e, op) => e.tokens ++ [.operator op.val]

/-- What stands in front of the place. -/
def tokens (s : Slot) : Formula := s.sumTokens ++ minusSign s.negated ++ s.factorTokens

theorem signed_behindMinus (s : Slot) : s.behindMinus.signed = true := by
  obtain ⟨sum, negated, factors⟩ := s
  cases factors <;> rfl

/-- A minus sign that is read stands behind what was in front of the place. -/
theorem tokens_behindMinus (s : Slot) (h : s.signed = false) :
    s.behindMinus.tokens = s.tokens ++ [.operator .minus] := by
  obtain ⟨sum, negated, factors⟩ := s
  cases factors with
  | none =>
    have hn : negated = false := h
    subst hn
    simp [behindMinus, tokens, sumTokens, factorTokens, minusSign]
  | some factor =>
    obtain ⟨p, op, sign⟩ := factor
    have hn : sign = false := h
    subst hn
    cases negated <;>
      simp [behindMinus, tokens, sumTokens, factorTokens, minusSign]

/-- The product that ends with an atom is what stands in front of it, and the
atom. -/
theorem tokens_product (s : Slot) (a : Atom) :
    (s.product a).tokens = s.factorTokens ++ a.tokens := by
  obtain ⟨sum, negated, factors⟩ := s
  cases factors with
  | none => rfl
  | some factor => simp [product, factorTokens, Product.tokens]

/-- The same for the expression. -/
theorem tokens_expression (s : Slot) (a : Atom) :
    (s.expression a).tokens = s.tokens ++ a.tokens := by
  unfold expression tokens sumTokens
  cases s.sum with
  | none => simp [Expression.tokens, tokens_product]
  | some term => simp [Expression.tokens, tokens_product]

/-- Behind a product or quotient sign stand the atom and the sign. -/
theorem tokens_behindTight (s : Slot) (a : Atom) (op : Tight) :
    (s.behindTight a op).tokens = s.tokens ++ a.tokens ++ [.operator op.val] := by
  unfold behindTight tokens sumTokens
  simp only [factorTokens, tokens_product]
  cases s.sum <;> simp [minusSign]

/-- The same behind a plus or minus sign. -/
theorem tokens_behindAdditive (s : Slot) (a : Atom) (op : Additive) :
    (s.behindAdditive a op).tokens = s.tokens ++ a.tokens ++ [.operator op.val] := by
  rw [← tokens_expression]
  simp [behindAdditive, tokens, sumTokens, factorTokens, minusSign]

end Slot

/-- An expression that was read in part: the place of the atom that comes next or
was just read, and the places of the brackets around it, innermost first. -/
structure Reading where
  slot : Slot := {}
  atom : Option Atom := none
  outer : List Slot := []

namespace Reading

/-- Reads one token. -/
def take? : Reading → Token → Option Reading
  | ⟨s, none, outer⟩, .operator .minus =>
      if s.signed then none else some ⟨s.behindMinus, none, outer⟩
  | ⟨s, none, outer⟩, .number v => some ⟨s, some (.number v 0), outer⟩
  | ⟨s, none, outer⟩, .constant c => some ⟨s, some (.constant c), outer⟩
  | ⟨s, none, outer⟩, .leftBracket => some ⟨{}, none, s :: outer⟩
  | ⟨s, some (.number v n), outer⟩, .operator .factorial =>
      some ⟨s, some (.number v (n + 1)), outer⟩
  | ⟨s, some a, outer⟩, .operator op =>
      if h : op.bindsTightly = true then some ⟨s.behindTight a ⟨op, h⟩, none, outer⟩
      else if h : op.isAdditive = true then some ⟨s.behindAdditive a ⟨op, h⟩, none, outer⟩
      else none
  | ⟨s, some a, o :: outer⟩, .rightBracket => some ⟨o, some (.bracket (s.expression a)), outer⟩
  | _, _ => none

/-- Reads several tokens. -/
def read? (r : Reading) (f : Formula) : Option Reading := f.foldlM take? r

@[simp] theorem read?_nil (r : Reading) : r.read? [] = some r := rfl

@[simp] theorem read?_cons (r : Reading) (t : Token) (f : Formula) :
    r.read? (t :: f) = (r.take? t).bind fun q => q.read? f := rfl

/-- Where the plain pass stands. -/
def place (r : Reading) : Place :=
  ⟨match r.atom with
    | none => .before r.slot.signed
    | some (.number _ _) => .behind true
    | some _ => .behind false,
   r.outer.length⟩

/-- What was read. -/
def tokens (r : Reading) : Formula :=
  r.outer.reverse.flatMap (fun s => s.tokens ++ [.leftBracket]) ++ r.slot.tokens
    ++ (r.atom.map Atom.tokens).getD []

/-- The expression that was read, if it is complete. -/
def expression? : Reading → Option Expression
  | ⟨s, some a, []⟩ => some (s.expression a)
  | _ => none

/-! ## §3. The two passes stand at the same place. -/

/-- One token takes both passes to the same place, or stops them both. -/
theorem take?_place (r : Reading) (t : Token) :
    (r.take? t).map place = r.place.next? t := by
  obtain ⟨s, atom, outer⟩ := r
  cases atom with
  | none =>
    cases t with
    | operator op =>
      cases op <;> try rfl
      show Option.map place (if s.signed then none else some ⟨s.behindMinus, none, outer⟩)
        = if s.signed then none else some ⟨.before true, outer.length⟩
      split
      · rfl
      · show some (place ⟨s.behindMinus, none, outer⟩) = _
        simp only [place, Slot.signed_behindMinus]
    | _ => rfl
  | some a =>
    cases t with
    | operator op => cases a <;> cases op <;> rfl
    | rightBracket => cases a <;> cases outer <;> rfl
    | _ => cases a <;> rfl

/-- So does a whole formula. -/
theorem read?_place (r : Reading) (f : Formula) :
    (r.read? f).map place = r.place.read? f := by
  induction f generalizing r with
  | nil => rfl
  | cons t f ih =>
    rw [read?_cons, Place.read?_cons, ← take?_place]
    cases r.take? t with
    | none => rfl
    | some q => exact ih q

/-! ## §4. Nothing that was read is lost. -/

theorem tokens_factorial (v : Decimal) (n : Nat) :
    (Atom.number v (n + 1)).tokens = (Atom.number v n).tokens ++ [.operator .factorial] := by
  simp [Atom.tokens, List.replicate_succ']

/-- A token that is read stands behind what was read before. -/
theorem take?_tokens {r q : Reading} {t : Token} (h : r.take? t = some q) :
    q.tokens = r.tokens ++ [t] := by
  unfold take? at h
  split at h
  · split at h
    · cases h
    · next s outer hs =>
      cases h
      simp [tokens, Slot.tokens_behindMinus s (by simpa using hs)]
  · cases h
    simp [tokens, Atom.tokens]
  · cases h
    simp [tokens, Atom.tokens]
  · cases h
    simp [tokens, Slot.tokens, Slot.sumTokens, Slot.factorTokens, minusSign]
  · cases h
    simp [tokens, tokens_factorial]
  · split at h
    · cases h
      simp [tokens, Slot.tokens_behindTight]
    · split at h
      · cases h
        simp [tokens, Slot.tokens_behindAdditive]
      · cases h
  · cases h
    simp [tokens, Atom.tokens, Slot.tokens_expression]
  · cases h

/-- So does a whole formula. -/
theorem read?_tokens {r q : Reading} {f : Formula} (h : r.read? f = some q) :
    q.tokens = r.tokens ++ f := by
  induction f generalizing r with
  | nil =>
    cases h
    simp
  | cons t f ih =>
    -- The first token stands behind what was read, the others behind the first.
    obtain ⟨m, hm, hq⟩ := Option.bind_eq_some_iff.1 h
    rw [ih hq, take?_tokens hm]
    simp

end Reading

/-! ## §5. What is written out is read back. -/

namespace Product

/-- The last atom. -/
def last : Product → Atom
  | .single a => a
  | .join _ _ _ a => a

/-- What stands in front of the last atom. -/
def before : Product → Option (Product × Tight × Bool)
  | .single _ => none
  | .join p op negated _ => some (p, op, negated)

end Product

namespace Expression

/-- The last atom. -/
def last : Expression → Atom
  | .single _ p => p.last
  | .join _ _ _ p => p.last

/-- The place of the last atom. -/
def slot : Expression → Slot
  | .single negated p => ⟨none, negated, p.before⟩
  | .join e op negated p => ⟨some (e, op), negated, p.before⟩

end Expression

theorem product_last (sum : Option (Expression × Additive)) (negated : Bool) (p : Product) :
    (Slot.mk sum negated p.before).product p.last = p := by
  cases p <;> rfl

/-- An expression is its last atom, put in its place. -/
theorem expression_last (e : Expression) : e.slot.expression e.last = e := by
  cases e with
  | single negated p =>
    show Expression.single negated ((Slot.mk none negated p.before).product p.last) = _
    rw [product_last]
  | join e op negated p =>
    show Expression.join e op negated ((Slot.mk (some (e, op)) negated p.before).product p.last) = _
    rw [product_last]

namespace Reading

/-- Factorial signs are counted. -/
theorem read?_factorials (s : Slot) (v : Decimal) (n m : Nat) (outer : List Slot) (rest : Formula) :
    read? ⟨s, some (.number v n), outer⟩ (List.replicate m (.operator .factorial) ++ rest)
      = read? ⟨s, some (.number v (n + m)), outer⟩ rest := by
  induction m generalizing n with
  | zero => rfl
  | succ m ih =>
    show read? ⟨s, some (.number v (n + 1)), outer⟩
      (List.replicate m (.operator .factorial) ++ rest)
      = _
    rw [ih, Nat.add_right_comm, Nat.add_assoc]

theorem read?_minusSign (s : Slot) (h : s.signed = false) (negated : Bool) (outer : List Slot)
    (rest : Formula) :
    read? ⟨s, none, outer⟩ (minusSign negated ++ rest)
      = read? ⟨if negated then s.behindMinus else s, none, outer⟩ rest := by
  cases negated with
  | false => rfl
  | true =>
    show (take? ⟨s, none, outer⟩ (.operator .minus)).bind _ = _
    rw [show take? ⟨s, none, outer⟩ (.operator .minus) = some ⟨s.behindMinus, none, outer⟩ by
      simp [take?, h]]
    rfl

/-- The sign of an operator is read behind a complete atom. -/
theorem take?_tight (s : Slot) (a : Atom) (op : Tight) (outer : List Slot) :
    take? ⟨s, some a, outer⟩ (.operator op.val) = some ⟨s.behindTight a op, none, outer⟩ := by
  obtain ⟨op, hop⟩ := op
  cases op <;> first | (cases a <;> rfl) | cases hop

theorem take?_additive (s : Slot) (a : Atom) (op : Additive) (outer : List Slot) :
    take? ⟨s, some a, outer⟩ (.operator op.val) = some ⟨s.behindAdditive a op, none, outer⟩ := by
  obtain ⟨op, hop⟩ := op
  cases op <;> first | (cases a <;> rfl) | cases hop

-- One case for every constructor; the tokens behind the tree are arbitrary, so
-- that the parts of a tree can be read one after another.
mutual

/-- An atom written out is read as the atom that stands in the place. -/
theorem read?_atom : ∀ (a : Atom) (s : Slot) (outer : List Slot) (rest : Formula),
    read? ⟨s, none, outer⟩ (a.tokens ++ rest) = read? ⟨s, some a, outer⟩ rest
  | .number v n, s, outer, rest => by
    show read? ⟨s, some (.number v 0), outer⟩ (List.replicate n (.operator .factorial) ++ rest) = _
    rw [read?_factorials, Nat.zero_add]
  | .constant c, s, outer, rest => rfl
  | .bracket e, s, outer, rest => by
    show read? ⟨{}, none, s :: outer⟩ (e.tokens ++ [.rightBracket] ++ rest) = _
    rw [List.append_assoc, read?_expression e (s :: outer)]
    show (take? ⟨e.slot, some e.last, s :: outer⟩ .rightBracket).bind _ = _
    have h : take? ⟨e.slot, some e.last, s :: outer⟩ .rightBracket
        = some ⟨s, some (.bracket (e.slot.expression e.last)), outer⟩ := by
      cases e.last <;> rfl
    rw [h, expression_last]
    rfl

/-- A product written out is read up to its last atom. -/
theorem read?_product : ∀ (p : Product) (sum : Option (Expression × Additive)) (negated : Bool)
    (outer : List Slot) (rest : Formula),
    read? ⟨⟨sum, negated, none⟩, none, outer⟩ (p.tokens ++ rest)
      = read? ⟨⟨sum, negated, p.before⟩, some p.last, outer⟩ rest
  | .single a, sum, negated, outer, rest => read?_atom a _ outer rest
  | .join p op sign a, sum, negated, outer, rest => by
    show read? _ (p.tokens ++ .operator op.val :: (minusSign sign ++ a.tokens) ++ rest) = _
    rw [List.append_assoc, read?_product p, List.cons_append, read?_cons, take?_tight]
    show read? ⟨Slot.behindTight _ _ _, none, outer⟩ _ = _
    rw [Slot.behindTight, product_last, List.append_assoc, read?_minusSign _ rfl, read?_atom a]
    cases sign <;> rfl

/-- The same for an expression. -/
theorem read?_expression : ∀ (e : Expression) (outer : List Slot) (rest : Formula),
    read? ⟨{}, none, outer⟩ (e.tokens ++ rest) = read? ⟨e.slot, some e.last, outer⟩ rest
  | .single negated p, outer, rest => by
    show read? _ (minusSign negated ++ p.tokens ++ rest) = _
    rw [List.append_assoc, read?_minusSign _ rfl]
    cases negated <;> exact read?_product p _ _ outer rest
  | .join e op negated p, outer, rest => by
    show read? _ (e.tokens ++ .operator op.val :: (minusSign negated ++ p.tokens) ++ rest) = _
    rw [List.append_assoc, read?_expression e, List.cons_append, read?_cons, take?_additive]
    show read? ⟨Slot.behindAdditive _ _ _, none, outer⟩ _ = _
    rw [Slot.behindAdditive, expression_last, List.append_assoc, read?_minusSign _ rfl]
    cases negated <;> exact read?_product p _ _ outer rest

end

end Reading

/-! ## §6. The grammar and its trees. -/

/-- The expression that a formula writes out. -/
def Expression.ofTokens? (f : Formula) : Option Expression :=
  (Reading.read? {} f).bind Reading.expression?

/-- An expression written out is read back as it was. -/
theorem ofTokens?_tokens (e : Expression) : Expression.ofTokens? e.tokens = some e := by
  have h := Reading.read?_expression e [] []
  rw [List.append_nil, Reading.read?_nil] at h
  unfold Expression.ofTokens?
  rw [h]
  show some (e.slot.expression e.last) = some e
  rw [expression_last]

/-- What was read, written out, is the formula. -/
theorem tokens_of_ofTokens? {f : Formula} {e : Expression} (h : Expression.ofTokens? f = some e) :
    e.tokens = f := by
  obtain ⟨r, hr, he⟩ := Option.bind_eq_some_iff.1 h
  have ht := Reading.read?_tokens hr
  unfold Reading.expression? at he
  split at he
  · next s a =>
    cases he
    rw [Slot.tokens_expression]
    simpa [Reading.tokens, Slot.tokens, Slot.sumTokens, Slot.factorTokens, minusSign] using ht
  · cases he

/-- An expression is determined by its tokens. -/
theorem tokens_injective {e e' : Expression} (h : e.tokens = e'.tokens) : e = e' := by
  have hs := ofTokens?_tokens e
  rw [h, ofTokens?_tokens] at hs
  exact (Option.some.inj hs).symm

/-- A formula may end exactly where a complete expression was read. -/
theorem isEnd_place (r : Reading) : r.place.isEnd = r.expression?.isSome := by
  obtain ⟨s, atom, outer⟩ := r
  cases atom with
  | none => rfl
  | some a => cases a <;> cases outer <;> rfl

/-- **The well-formed formulas are the expressions written out.** -/
theorem wellFormed_iff (f : Formula) : f.wellFormed = true ↔ ∃ e : Expression, e.tokens = f := by
  -- Both passes stop, or both stand at the same place.
  have hp : f.wellFormed = (Expression.ofTokens? f).isSome := by
    show ((Reading.place {}).read? f).any Place.isEnd = _
    unfold Expression.ofTokens?
    rw [← Reading.read?_place]
    cases Reading.read? {} f with
    | none => rfl
    | some r => exact isEnd_place r
  rw [hp]
  constructor
  · intro h
    obtain ⟨e, he⟩ := Option.isSome_iff_exists.1 h
    exact ⟨e, tokens_of_ofTokens? he⟩
  · rintro ⟨e, rfl⟩
    rw [ofTokens?_tokens]
    rfl

end PocketCalc
