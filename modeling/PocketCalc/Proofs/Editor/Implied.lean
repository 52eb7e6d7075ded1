/-
  PocketCalc.Proofs.Editor.Implied
  ────────────────────────────────
  **THE PRODUCT SIGNS THAT NO KEY ASKED FOR.**

  An implied product sign stands between the end of a value and the operand that
  made the editor insert it, and the editor keeps its position.  The positions
  stay right whatever happens at the end of the formula: behind them something
  may be appended, the operand may be exchanged for another one, operators that
  follow may be dropped, and when the operand itself is taken away, its sign is
  the last one of the list.
-/
import PocketCalc.Proofs.Editor.Layout
import PocketCalc.Editor.Erasing

namespace PocketCalc

/-- Can an operand begin with the token, its minus sign apart? -/
def Token.beginsOperand : Token → Bool
  | .number _ | .constant _ | .leftBracket => true
  | _ => false

/-! ## §1. One sign. -/

/-- The position `i` of the formula has a product sign between a value and an
operand. -/
def IsImplied (f : Formula) (i : Nat) : Prop :=
  ∃ before t u after, f = before ++ t :: .operator .times :: u :: after
    ∧ i = before.length + 1 ∧ t.endsValue = true ∧ u.beginsOperand = true

namespace IsImplied

variable {f g : Formula} {i : Nat}

theorem succ_lt (h : IsImplied f i) : i + 1 < f.length := by
  obtain ⟨before, t, u, after, rfl, rfl, -, -⟩ := h
  simp only [List.length_append, List.length_cons]
  omega

theorem append (h : IsImplied f i) (g : Formula) : IsImplied (f ++ g) i := by
  obtain ⟨before, t, u, after, rfl, rfl, ht, hu⟩ := h
  exact ⟨before, t, u, after ++ g, by simp, rfl, ht, hu⟩

/-- Without the last token, the sign still stands between a value and an operand,
or it has become the last token. -/
theorem pop {t : Token} (h : IsImplied (f ++ [t]) i) :
    IsImplied f i ∨
      (t.beginsOperand = true ∧ ∃ before u, f = before ++ [u, .operator .times]
        ∧ i = before.length + 1 ∧ u.endsValue = true) := by
  obtain ⟨before, u, v, after, hcut, hi, hu, hv⟩ := h
  rcases List.eq_nil_or_concat after with rfl | ⟨after, w, rfl⟩
  · right
    have hf : f ++ [t] = (before ++ [u, .operator .times]) ++ [v] := by simpa using hcut
    obtain ⟨rfl, hlast⟩ := List.append_inj' hf rfl
    cases hlast
    exact ⟨hv, before, u, rfl, hi, hu⟩
  · left
    have hf : f ++ [t] = (before ++ u :: .operator .times :: v :: after) ++ [w] := by
      simpa using hcut
    obtain ⟨rfl, -⟩ := List.append_inj' hf rfl
    exact ⟨before, u, v, after, rfl, hi, hu, hv⟩

/-- The last token exchanged for one that begins an operand. -/
theorem exchange {t u : Token} (h : IsImplied (f ++ [t]) i) (hu : u.beginsOperand = true) :
    IsImplied (f ++ [u]) i := by
  rcases h.pop with h | ⟨-, before, v, rfl, rfl, hv⟩
  · exact h.append [u]
  · exact ⟨before, v, u, [], by simp, rfl, hv, hu⟩

/-- A last token that begins no operand taken away. -/
theorem drop {t : Token} (h : IsImplied (f ++ [t]) i) (ht : t.beginsOperand = false) :
    IsImplied f i := by
  rcases h.pop with h | ⟨ht', -⟩
  · exact h
  · rw [ht] at ht'
    cases ht'

/-- Several of them taken away. -/
theorem dropAll (h : IsImplied (f ++ g) i) (hg : ∀ t ∈ g, t.beginsOperand = false) :
    IsImplied f i := by
  induction g generalizing f with
  | nil => simpa using h
  | cons t g ih =>
    rw [List.append_cons] at h
    exact (ih h fun u hu => hg u (List.mem_cons_of_mem _ hu)).drop (hg t List.mem_cons_self)

end IsImplied

/-! ## §2. All of them. -/

/-- The positions are those of product signs between a value and an operand, in
ascending order. -/
structure AreImplied (is : List Nat) (f : Formula) : Prop where
  ascending : is.Pairwise (· < ·)
  implied : ∀ i ∈ is, IsImplied f i

namespace AreImplied

variable {is : List Nat} {f g : Formula}

theorem nil (f : Formula) : AreImplied [] f := ⟨.nil, fun _ h => nomatch h⟩

theorem append (h : AreImplied is f) (g : Formula) : AreImplied is (f ++ g) :=
  ⟨h.ascending, fun i hi => (h.implied i hi).append g⟩

theorem exchange {t u : Token} (h : AreImplied is (f ++ [t])) (hu : u.beginsOperand = true) :
    AreImplied is (f ++ [u]) :=
  ⟨h.ascending, fun i hi => (h.implied i hi).exchange hu⟩

theorem dropAll (h : AreImplied is (f ++ g)) (hg : ∀ t ∈ g, t.beginsOperand = false) :
    AreImplied is f :=
  ⟨h.ascending, fun i hi => (h.implied i hi).dropAll hg⟩

/-- A sign inserted behind a value, in front of an operand. -/
theorem insert {u : Token} (h : AreImplied is f) (hf : f.getLast?.any Token.endsValue = true)
    (hu : u.beginsOperand = true) :
    AreImplied (is ++ [f.length]) (f ++ [.operator .times] ++ [u]) := by
  obtain ⟨t, hlast, ht⟩ := (Option.any_eq_true _ _).1 hf
  obtain ⟨before, rfl⟩ := List.getLast?_eq_some_iff.1 hlast
  constructor
  · refine List.pairwise_append.2 ⟨h.ascending, List.pairwise_singleton _ _, ?_⟩
    intro i hi j hj
    have := (h.implied i hi).succ_lt
    rw [List.mem_singleton.1 hj]
    omega
  · intro i hi
    rcases List.mem_append.1 hi with hi | hi
    · exact ((h.implied i hi).append _).append _
    · rw [List.mem_singleton.1 hi]
      exact ⟨before, t, u, [], by simp, by simp, ht, hu⟩

/-- The largest position is the last one of the list. -/
theorem getLast?_eq (h : is.Pairwise (· < ·)) {m : Nat} (hm : m ∈ is) (hmax : ∀ i ∈ is, i ≤ m) :
    is.getLast? = some m := by
  obtain ⟨before, after, rfl⟩ := List.append_of_mem hm
  cases after with
  | nil => exact List.getLast?_concat
  | cons i after =>
    have hlt : m < i := by
      have h := (List.pairwise_append.1 h).2.1
      exact List.rel_of_pairwise_cons h List.mem_cons_self
    have hle := hmax i (by simp)
    omega

/-- In front of one more token, every position is that of a token. -/
theorem lt_length {t : Token} (h : AreImplied is (f ++ [t])) : ∀ i ∈ is, i < f.length := by
  intro i hi
  have := (h.implied i hi).succ_lt
  simp only [List.length_append, List.length_singleton] at this
  omega

/-- If the last position is that of the last token but one, this token is a product
sign, and the other positions lie in front of it. -/
theorem dropSign {t : Token} {i : Nat} (h : AreImplied (is ++ [i]) (f ++ [t]))
    (hi : i = f.length - 1) : ∃ g, f = g ++ [.operator .times] ∧ AreImplied is g := by
  have hascending := List.pairwise_append.1 h.ascending
  have hsign := h.implied i (List.mem_append_right is List.mem_cons_self)
  obtain ⟨g, hg⟩ : ∃ g, f = g ++ [.operator .times] := by
    rcases hsign.pop with hin | ⟨-, before, u, hf, -⟩
    · have := hin.succ_lt
      omega
    · exact ⟨before ++ [u], by simpa using hf⟩
  refine ⟨g, hg, hascending.1, ?_⟩
  intro k hk
  have hki := hascending.2.2 k hk i List.mem_cons_self
  rcases (h.implied k (List.mem_append_left _ hk)).pop with hin | ⟨-, before, u, hf, hpos, -⟩
  · rw [hg] at hin
    exact hin.drop rfl
  · -- Both signs would be the last token of `f`.
    rw [hf] at hi
    simp only [List.length_append, List.length_cons, List.length_nil] at hi
    omega

/-- If it is not, no sign is lost with the last token. -/
theorem keep {t : Token} (h : AreImplied is (f ++ [t]))
    (hlast : ¬ (0 < f.length ∧ is.getLast? = some (f.length - 1))) : AreImplied is f := by
  refine ⟨h.ascending, ?_⟩
  intro i hi
  have hlt := h.lt_length
  rcases (h.implied i hi).pop with hin | ⟨-, before, u, hf, hpos, -⟩
  · exact hin
  · have hpos' : i = f.length - 1 := by
      rw [hf]
      simp only [List.length_append, List.length_cons, List.length_nil]
      omega
    have hmax : ∀ j ∈ is, j ≤ i := fun j hj => by
      have := hlt j hj
      omega
    refine absurd ⟨Nat.zero_lt_of_lt (hlt i hi), ?_⟩ hlast
    rw [← hpos']
    exact getLast?_eq h.ascending hi hmax

end AreImplied

/-! ## §3. A sign leaves with its operand. -/

namespace Editor

/-- Once the operand `t` has been taken away from the end of the formula, its
implied sign, if there is one, is taken away too. -/
theorem dropImpliedTimes_spec {e : Editor} {t : Token}
    (h : AreImplied e.impliedTimes (e.formula ++ [t])) :
    ∃ is g, e.dropImpliedTimes = { e with formula := g, impliedTimes := is } ∧ AreImplied is g
      ∧ (e.formula = g ∨ e.formula = g ++ [.operator .times]) := by
  have hfilter : e.impliedTimes.filter (· < e.formula.length) = e.impliedTimes :=
    List.filter_eq_self.2 fun i hi => decide_eq_true (h.lt_length i hi)
  unfold dropImpliedTimes
  dsimp only
  rw [hfilter]
  by_cases hlast : 0 < e.formula.length ∧ e.impliedTimes.getLast? = some (e.formula.length - 1)
  · rw [if_pos hlast]
    obtain ⟨is, his⟩ := List.getLast?_eq_some_iff.1 hlast.2
    rw [his] at h
    obtain ⟨g, hg, hsigns⟩ := h.dropSign rfl
    refine ⟨is, g, ?_, hsigns, .inr hg⟩
    rw [his, List.dropLast_concat, pop, hg, List.dropLast_concat]
  · rw [if_neg hlast]
    exact ⟨e.impliedTimes, e.formula, rfl, h.keep hlast, .inl rfl⟩

end Editor

end PocketCalc
