/-
  PocketCalc.Proofs.Rendering.Numbers
  ───────────────────────────────────
  **A NUMBER ON THE SCREEN IS ITS ROUNDING, SET IN GROUPS OF THREE.**

  A stored number is rounded, cut into its parts, and set with the two separators of the
  settings.  Only the rounding changes the number.  As long as the separators can be told
  from each other and from the digits, all of it can be read off the screen again: the
  plain text of the rounding, where its groups begin, and whether it is whole.

      group_cut             a separator stands in front of a multiple of three,
      group_adjacent        and none is missing
      fraction_eq_nil_iff   a number has no fraction part exactly if it is whole
      typedChars_text       a typed number is set with the same separators
      number_shown          the law for every number and all such settings
-/
import Mathlib.Data.List.Basic
import PocketCalc.Rendering
import PocketCalc.Proofs.Decimal.Canonical
import PocketCalc.Proofs.Decimal.Shortening

namespace PocketCalc

/-! ## §1. Groups of three. -/

section Grouping

variable {separator c d : Char} {cs before after : List Char}

/-- Grouping adds nothing but the separator. -/
theorem mem_group (h : c ∈ group separator cs) : c = separator ∨ c ∈ cs := by
  induction cs with
  | nil => cases h
  | cons d cs ih =>
    rw [group_cons] at h
    split at h
    · rcases List.mem_cons.1 h with rfl | h
      · exact .inr List.mem_cons_self
      · rcases List.mem_cons.1 h with rfl | h
        · exact .inl rfl
        · exact (ih h).imp_right (List.mem_cons_of_mem d)
    · rcases List.mem_cons.1 h with rfl | h
      · exact .inr List.mem_cons_self
      · exact (ih h).imp_right (List.mem_cons_of_mem d)

/-- Without the separators, what was grouped is left. -/
theorem filter_group {p : Char → Bool} (hseparator : p separator = false)
    (hcs : ∀ c ∈ cs, p c = true) : (group separator cs).filter p = cs := by
  induction cs with
  | nil => rfl
  | cons c cs ih =>
    have hc : p c = true := hcs c List.mem_cons_self
    have hrest := ih fun d hd => hcs d (List.mem_cons_of_mem c hd)
    rw [group_cons]
    split
    · rw [List.filter_cons_of_pos hc, List.filter_cons_of_neg (by simp [hseparator]), hrest]
    · rw [List.filter_cons_of_pos hc, hrest]

/-- **A separator that is found has a multiple of three behind it**, and what stands in front
of it is grouped alike. -/
theorem group_cut (hcs : separator ∉ cs) (h : group separator cs = before ++ separator :: after) :
    ∃ as bs, cs = as ++ bs ∧ as ≠ [] ∧ bs ≠ [] ∧ bs.length % 3 = 0
      ∧ before = group separator as ∧ after = group separator bs := by
  induction cs generalizing before with
  | nil => exact absurd (congrArg List.length h) (by simp)
  | cons c cs ih =>
    have hc : c ≠ separator := fun hsame => hcs (hsame ▸ List.mem_cons_self)
    have hrest : separator ∉ cs := fun hmem => hcs (List.mem_cons_of_mem c hmem)
    -- The first character is no separator, so it stands in front of the cut.
    have hfirst : ∀ {g : List Char}, c :: g = before ++ separator :: after →
        ∃ front, before = c :: front ∧ g = front ++ separator :: after := by
      intro g hg
      rcases List.cons_eq_append_iff.1 hg with ⟨-, hcut⟩ | hfront
      · exact absurd (List.cons.inj hcut).1.symm hc
      · exact hfront
    rw [group_cons] at h
    split at h
    · next hsplit =>
      obtain ⟨front, rfl, hg⟩ := hfirst h
      rcases List.cons_eq_append_iff.1 hg with ⟨rfl, hcut⟩ | ⟨front, rfl, hcut⟩
      · -- It is the separator right behind the first character.
        have hne : cs ≠ [] := fun hnil => hsplit.1 (by rw [hnil]; rfl)
        exact ⟨[c], cs, rfl, List.cons_ne_nil _ _, hne, hsplit.2, rfl, (List.cons.inj hcut).2⟩
      · obtain ⟨as, bs, rfl, has, hbs, hthree, rfl, rfl⟩ := ih hrest hcut
        refine ⟨c :: as, bs, rfl, List.cons_ne_nil _ _, hbs, hthree, ?_, rfl⟩
        have hmod := hsplit.2
        have hpos : 0 < as.length := List.length_pos_iff.2 has
        rw [List.length_append] at hmod
        rw [group_cons, if_pos ⟨by omega, by omega⟩]
    · next hsplit =>
      obtain ⟨front, rfl, hg⟩ := hfirst h
      obtain ⟨as, bs, rfl, has, hbs, hthree, rfl, rfl⟩ := ih hrest hg
      refine ⟨c :: as, bs, rfl, List.cons_ne_nil _ _, hbs, hthree, ?_, rfl⟩
      have hpos : 0 < as.length := List.length_pos_iff.2 has
      rw [List.length_append] at hsplit
      rw [group_cons, if_neg (fun hmod => hsplit ⟨by omega, by omega⟩)]

/-- Between two digits that stand side by side no separator is due. -/
theorem group_adjacent (hseparator : separator.isDigit = false) (hcs : AreDigits cs)
    (hc : c.isDigit = true) (hd : d.isDigit = true)
    (h : group separator cs = before ++ c :: d :: after) :
    ((d :: after).filter Char.isDigit).length % 3 ≠ 0 := by
  induction cs generalizing before with
  | nil => exact absurd (congrArg List.length h) (by simp)
  | cons x cs ih =>
    have hrest : AreDigits cs := fun y hy => hcs y (List.mem_cons_of_mem x hy)
    have hnone : ∀ {y : Char}, y.isDigit = true → separator ≠ y := fun hy hsame =>
      ne_of_isDigit hy hseparator hsame.symm
    rw [group_cons] at h
    split at h
    · rcases List.cons_eq_append_iff.1 h with ⟨-, hcut⟩ | ⟨front, -, hg⟩
      · exact absurd (List.cons.inj (List.cons.inj hcut).2).1.symm (hnone hd)
      · rcases List.cons_eq_append_iff.1 hg with ⟨-, hcut⟩ | ⟨front, -, hg⟩
        · exact absurd (List.cons.inj hcut).1.symm (hnone hc)
        · exact ih hrest hg
    · next hsplit =>
      rcases List.cons_eq_append_iff.1 h with ⟨-, hcut⟩ | ⟨front, -, hg⟩
      · -- The second digit is the first one of the rest.
        have hgroup : group separator cs = d :: after := (List.cons.inj hcut).2.symm
        have hne : cs ≠ [] := by
          rintro rfl
          cases hgroup
        have hpos : 0 < cs.length := List.length_pos_iff.2 hne
        rw [← hgroup, filter_group hseparator hrest]
        exact fun hthree => hsplit ⟨by omega, hthree⟩
      · exact ih hrest hg

end Grouping

/-- What stands in neither end of a text is found in between. -/
theorem cut_between {front middle back before after : List Char} {c : Char} (hfront : c ∉ front)
    (hback : c ∉ back) (h : front ++ middle ++ back = before ++ c :: after) :
    ∃ left right, middle = left ++ c :: right ∧ before = front ++ left
      ∧ after = right ++ back := by
  rw [List.append_assoc] at h
  rcases List.append_eq_append_iff.1 h with ⟨left, hbefore, hcut⟩ | ⟨cs, hcut, hcs⟩
  · rcases List.append_eq_append_iff.1 hcut with ⟨cs, -, hcs⟩ | ⟨cs, hmiddle, hcs⟩
    · exact absurd (by rw [hcs]; simp) hback
    · rcases List.cons_eq_append_iff.1 hcs with ⟨rfl, hback'⟩ | ⟨right, rfl, hafter⟩
      · exact absurd (by rw [hback']; exact List.mem_cons_self) hback
      · exact ⟨left, right, hmiddle, hbefore, hafter⟩
  · rcases List.cons_eq_append_iff.1 hcs with ⟨rfl, hrest⟩ | ⟨right, rfl, -⟩
    · rcases List.append_eq_cons_iff.1 hrest with ⟨-, hback'⟩ | ⟨right, hmiddle, hafter⟩
      · exact absurd (by rw [hback']; exact List.mem_cons_self) hback
      · exact ⟨[], right, hmiddle, by rw [List.append_nil, hcut, List.append_nil], hafter⟩
    · exact absurd (by rw [hcut]; simp) hfront

/-! ## §2. Whole numbers and fractions. -/

namespace Decimal

/-- A number has as many fraction digits as its normal scale says. -/
theorem length_fraction (x : Decimal) : x.parts.fraction.length = x.normalized.scale.toNat := by
  have hscale : ((Numeral.ofDecimal x).places.length : ℤ)
      = if x.normalized.scale ≤ 0 then 0 else x.normalized.scale := by
    have hvalue := congrArg Decimal.scale (Numeral.value_ofDecimal x)
    split
    · next h => rwa [if_pos h] at hvalue
    · next h => rwa [if_neg h] at hvalue
  rw [Numeral.places_ofDecimal] at hscale
  split at hscale <;> omega

/-- Normalizing brings no new places. -/
theorem scale_normalized_le {x : Decimal} {n : ℕ} (h : x.scale ≤ n) : x.normalized.scale ≤ n := by
  rcases x.normalized_cases with ⟨-, hx⟩ | ⟨c, j, -, -, hx⟩
  · rw [hx]
    exact Int.natCast_nonneg n
  · rw [hx]
    dsimp only
    omega

/-- **A number has no fraction part exactly if it is whole.** -/
theorem fraction_eq_nil_iff (x : Decimal) : x.parts.fraction = [] ↔ ∃ k : ℤ, x.toRat = k := by
  rw [← List.length_eq_zero_iff, length_fraction, Int.toNat_eq_zero]
  constructor
  · intro hscale
    obtain ⟨k, hk⟩ := exists_multiple hscale
    refine ⟨k, ?_⟩
    rw [← toRat_normalized, hk, neg_zero, zpow_zero, mul_one]
  · rintro ⟨k, hk⟩
    have hwhole : toRat ⟨k, 0⟩ = x.normalized.toRat := by
      rw [toRat_normalized, hk]
      simp [toRat]
    by_cases hzero : x.normalized.mantissa = 0
    · rw [normalized_eq_zero hzero]
    · exact (isNormal_normalized x).scale_le hzero hwhole

/-- Zero is written as a lone zero. -/
theorem parts_of_zero {x : Decimal} (h : x.toRat = 0) : x.parts = ⟨false, ['0'], []⟩ := by
  have hmantissa : x.normalized.mantissa = 0 := by
    rw [← toRat_eq_zero_iff, toRat_normalized, h]
  exact if_pos hmantissa

end Decimal

/-! ## §3. Separators that can be told apart. -/

namespace Settings

/-- The separators can be told from each other and from the characters of a number. -/
structure HasClearSeparators (s : Settings) : Prop where
  distinct : s.decimalSeparator ≠ s.groupSeparator
  decimalApart : s.decimalSeparator.isDigit = false ∧ s.decimalSeparator ≠ '-'
  groupApart : s.groupSeparator.isDigit = false ∧ s.groupSeparator ≠ '-'

/-- Choosing a decimal separator that is none of the characters of a number keeps them
clear. -/
theorem hasClearSeparators_withDecimalSeparator (s : Settings) {c : Char}
    (hdigit : c.isDigit = false) (hminus : c ≠ '-') :
    (s.withDecimalSeparator c).HasClearSeparators := by
  unfold withDecimalSeparator
  refine ⟨?_, ⟨hdigit, hminus⟩, ?_⟩
  · show c ≠ if c = ',' then '.' else ','
    split
    · next hc =>
      rw [hc]
      decide
    · next hc => exact hc
  · dsimp only
    split <;> decide

/-- As many places as may be shown are rounded to. -/
theorem roundingPlaces_eq {s : Settings} (h : s.shownPlaces ≤ maxShownPlaces) :
    s.roundingPlaces = s.shownPlaces := by
  have hplaces : s.shownPlaces ≤ 100 := h
  exact Int.bmod_eq_of_le (by omega) (by omega)

/-- The digits in front of the decimal separator. -/
def integerDigits (s : Settings) (shown : List Char) : List Char :=
  (shown.takeWhile (· != s.decimalSeparator)).filter Char.isDigit

/-- What is shown, without its group separators and with a point in the place of the
decimal separator. -/
def unset (s : Settings) (shown : List Char) : List Char :=
  (shown.filter (· != s.groupSeparator)).map fun c => if c = s.decimalSeparator then '.' else c

/-- **Each digit of a numeral is shown**, and the decimal separator in the place of its
point. -/
theorem typedChars_text (s : Settings) (n : Numeral) :
    s.typedChars n.text = Decimal.sign n.negative ++ group s.groupSeparator n.whole
      ++ if n.hasPoint then s.decimalSeparator :: n.places else [] := by
  -- Without its sign the text is that of another numeral.
  let m : Numeral := { n with negative := false }
  have hbody : (if n.negative then n.text.drop 1 else n.text) = m.text := by
    unfold Numeral.text
    cases n.negative <;> rfl
  have hpointed : s.typedFraction m.pointed
      = if n.hasPoint then s.decimalSeparator :: n.places else [] := by
    unfold Numeral.pointed Numeral.hasPoint Numeral.places
    cases n.fraction <;> rfl
  obtain ⟨hfront, hback⟩ := m.cut_text
  unfold typedChars
  dsimp only
  rw [n.head?_text_eq, hbody, hfront, hback, hpointed]
  rfl

namespace HasClearSeparators

variable {s : Settings} {c d : Char} {cs fraction before after : List Char}

/-- Neither separator is a sign. -/
theorem not_mem_sign (h : s.HasClearSeparators) (negative : Bool) :
    s.decimalSeparator ∉ Decimal.sign negative ∧ s.groupSeparator ∉ Decimal.sign negative :=
  ⟨fun hmem => h.decimalApart.2 (Numeral.mem_sign hmem),
    fun hmem => h.groupApart.2 (Numeral.mem_sign hmem)⟩

theorem not_mem_digits (h : s.HasClearSeparators) (hcs : AreDigits cs) :
    s.decimalSeparator ∉ cs ∧ s.groupSeparator ∉ cs :=
  ⟨fun hmem => ne_of_isDigit (hcs _ hmem) h.decimalApart.1 rfl,
    fun hmem => ne_of_isDigit (hcs _ hmem) h.groupApart.1 rfl⟩

/-- The decimal separator does not stand among the groups, nor in front of them. -/
theorem not_mem_front (h : s.HasClearSeparators) (negative : Bool) (hcs : AreDigits cs) :
    s.decimalSeparator ∉ Decimal.sign negative ++ group s.groupSeparator cs := by
  intro hmem
  rcases List.mem_append.1 hmem with hmem | hmem
  · exact (h.not_mem_sign negative).1 hmem
  · rcases mem_group hmem with hsame | hmem
    · exact h.distinct hsame
    · exact (h.not_mem_digits hcs).1 hmem

/-- The group separator does not stand in the fraction part. -/
theorem not_mem_pointed (h : s.HasClearSeparators) (hfraction : AreDigits fraction) :
    s.groupSeparator ∉ Decimal.pointed s.decimalSeparator fraction := by
  unfold Decimal.pointed
  split
  · exact List.not_mem_nil
  · intro hmem
    rcases List.mem_cons.1 hmem with hsame | hmem
    · exact h.distinct hsame.symm
    · exact (h.not_mem_digits hfraction).2 hmem

/-- The integer part ends in front of the decimal separator. -/
theorem takeWhile_eq (h : s.HasClearSeparators) (negative : Bool) (hcs : AreDigits cs)
    (fraction : List Char) :
    (Decimal.sign negative ++ group s.groupSeparator cs
        ++ Decimal.pointed s.decimalSeparator fraction).takeWhile (· != s.decimalSeparator)
      = Decimal.sign negative ++ group s.groupSeparator cs := by
  have hfront : ∀ c ∈ Decimal.sign negative ++ group s.groupSeparator cs,
      (c != s.decimalSeparator) = true := by
    intro c hc
    have hne : c ≠ s.decimalSeparator := fun hsame => h.not_mem_front negative hcs (hsame ▸ hc)
    simpa using hne
  refine (run_cut hfront fun c hc => ?_).1
  unfold Decimal.pointed at hc
  split at hc
  · cases hc
  · cases hc
    simp

/-- **The integer digits are those that were grouped.** -/
theorem integerDigits_eq (h : s.HasClearSeparators) (negative : Bool) (hcs : AreDigits cs)
    (fraction : List Char) :
    s.integerDigits (Decimal.sign negative ++ group s.groupSeparator cs
        ++ Decimal.pointed s.decimalSeparator fraction) = cs := by
  have hsign : (Decimal.sign negative).filter Char.isDigit = [] := by cases negative <;> rfl
  unfold integerDigits
  rw [h.takeWhile_eq negative hcs fraction, List.filter_append, hsign, List.nil_append,
    filter_group h.groupApart.1 hcs]

/-- **The plain text can be read off.** -/
theorem unset_eq (h : s.HasClearSeparators) (negative : Bool) (hcs : AreDigits cs)
    (hfraction : AreDigits fraction) :
    s.unset (Decimal.sign negative ++ group s.groupSeparator cs
        ++ Decimal.pointed s.decimalSeparator fraction)
      = Decimal.sign negative ++ cs ++ Decimal.pointed '.' fraction := by
  have hkeep : ∀ {g : List Char}, s.groupSeparator ∉ g → g.filter (· != s.groupSeparator) = g := by
    intro g hg
    refine List.filter_eq_self.2 fun c hc => ?_
    have hne : c ≠ s.groupSeparator := fun hsame => hg (hsame ▸ hc)
    simpa using hne
  have hsame : ∀ {g : List Char}, s.decimalSeparator ∉ g →
      g.map (fun c => if c = s.decimalSeparator then '.' else c) = g := by
    intro g hg
    refine (List.map_congr_left fun c hc => if_neg fun hsame => ?_).trans (List.map_id g)
    exact hg (hsame ▸ hc)
  have hgroup : (group s.groupSeparator cs).filter (· != s.groupSeparator) = cs :=
    filter_group (by simp) fun c hc => by
      simpa using ne_of_isDigit (hcs c hc) h.groupApart.1
  have hpoint : (Decimal.pointed s.decimalSeparator fraction).map
      (fun c => if c = s.decimalSeparator then '.' else c) = Decimal.pointed '.' fraction := by
    unfold Decimal.pointed
    split
    · rfl
    · rw [List.map_cons, if_pos rfl, hsame (h.not_mem_digits hfraction).1]
  unfold unset
  rw [List.filter_append, List.filter_append, hkeep (h.not_mem_sign negative).2, hgroup,
    hkeep (h.not_mem_pointed hfraction), List.map_append, List.map_append,
    hsame (h.not_mem_sign negative).1, hsame (h.not_mem_digits hcs).1, hpoint]

/-- **A group separator stands in front of a multiple of three integer digits**, and some
stand in front of it. -/
theorem cut_separator (h : s.HasClearSeparators) {negative : Bool} (hcs : AreDigits cs)
    (hfraction : AreDigits fraction)
    (hcut : Decimal.sign negative ++ group s.groupSeparator cs
      ++ Decimal.pointed s.decimalSeparator fraction = before ++ s.groupSeparator :: after) :
    s.decimalSeparator ∉ before ∧ s.integerDigits before ≠ []
      ∧ s.integerDigits after ≠ [] ∧ (s.integerDigits after).length % 3 = 0 := by
  -- The separator stands in the groups, and cuts them in two.
  obtain ⟨left, right, hgroup, rfl, rfl⟩ :=
    cut_between (h.not_mem_sign negative).2 (h.not_mem_pointed hfraction) hcut
  obtain ⟨as, bs, rfl, has, hbs, hthree, rfl, rfl⟩ := group_cut (h.not_mem_digits hcs).2 hgroup
  obtain ⟨hdigits, hdigits'⟩ : AreDigits as ∧ AreDigits bs := List.forall_mem_append.1 hcs
  have hbefore := h.integerDigits_eq negative hdigits []
  have hafter := h.integerDigits_eq false hdigits' fraction
  rw [show Decimal.pointed s.decimalSeparator [] = [] from rfl, List.append_nil] at hbefore
  rw [show Decimal.sign false = [] from rfl, List.nil_append] at hafter
  rw [hbefore, hafter]
  exact ⟨h.not_mem_front _ hdigits, has, hbs, hthree⟩

/-- **Between two integer digits that stand side by side none is due.** -/
theorem cut_digits (h : s.HasClearSeparators) {negative : Bool} (hcs : AreDigits cs)
    (hcut : Decimal.sign negative ++ group s.groupSeparator cs
      ++ Decimal.pointed s.decimalSeparator fraction = before ++ c :: d :: after)
    (hbefore : s.decimalSeparator ∉ before) (hc : c.isDigit = true) (hd : d.isDigit = true) :
    (s.integerDigits (d :: after)).length % 3 ≠ 0 := by
  have hpast : ∀ {y : Char}, y ≠ s.decimalSeparator → (y != s.decimalSeparator) = true :=
    fun hy => by simpa using hy
  have hdigit := fun {y : Char} (hy : y.isDigit = true) =>
    hpast (ne_of_isDigit hy h.decimalApart.1)
  -- Up to the decimal separator there is nothing but the sign and the groups.
  have htake := h.takeWhile_eq negative hcs fraction
  rw [hcut, List.takeWhile_append_of_pos fun y hy => hpast fun hsame => hbefore (hsame ▸ hy),
    List.takeWhile_cons, if_pos (hdigit hc), List.takeWhile_cons, if_pos (hdigit hd)] at htake
  have hsign : c ∉ Decimal.sign negative := fun hmem =>
    ne_of_isDigit hc (show '-'.isDigit = false from rfl) (Numeral.mem_sign hmem)
  have hnil : c ∉ ([] : List Char) := List.not_mem_nil
  obtain ⟨left, right, hgroup, -, hright⟩ :=
    cut_between hsign hnil ((List.append_nil _).trans htake.symm)
  rw [List.append_nil] at hright
  rw [← hright] at hgroup
  unfold integerDigits
  rw [List.takeWhile_cons, if_pos (hdigit hd)]
  exact group_adjacent h.groupApart.1 hcs hc hd hgroup

/-- **The decimal separator is there exactly if there are fraction digits.** -/
theorem mem_decimalSeparator_iff (h : s.HasClearSeparators) (negative : Bool)
    (hcs : AreDigits cs) :
    s.decimalSeparator ∈ Decimal.sign negative ++ group s.groupSeparator cs
      ++ Decimal.pointed s.decimalSeparator fraction ↔ fraction ≠ [] := by
  rw [List.mem_append, or_iff_right (h.not_mem_front negative hcs)]
  unfold Decimal.pointed
  cases fraction with
  | nil => simp
  | cons c cs => simp

/-- What stands behind the decimal separator are the fraction digits. -/
theorem cut_fraction (h : s.HasClearSeparators) {negative : Bool} (hcs : AreDigits cs)
    (hfraction : AreDigits fraction)
    (hcut : Decimal.sign negative ++ group s.groupSeparator cs
      ++ Decimal.pointed s.decimalSeparator fraction = before ++ s.decimalSeparator :: after) :
    after = fraction ∧ fraction ≠ [] := by
  have hne : fraction ≠ [] := by
    rw [← h.mem_decimalSeparator_iff negative hcs, hcut]
    simp
  rw [Decimal.pointed, if_neg (by simpa using hne)] at hcut
  -- There is no other decimal separator.
  obtain ⟨-, -, hsame⟩ := (List.append_cons_inj_of_notMem (h.not_mem_front negative hcs)
    (h.not_mem_digits hfraction).1).1 hcut
  exact ⟨hsame.symm, hne⟩

end HasClearSeparators

/-! ## §4. Numbers on the screen. -/

/-- A number is shown by the parts of its rounding. -/
theorem numberChars_eq {s : Settings} (h : s.shownPlaces ≤ maxShownPlaces) (x : Decimal) :
    let r := x.roundAt s.shownPlaces
    s.numberChars x = Decimal.sign r.parts.negative ++ group s.groupSeparator r.parts.integer
      ++ Decimal.pointed s.decimalSeparator r.parts.fraction := by
  intro r
  unfold numberChars
  rw [roundingPlaces_eq h]

end Settings

/-- **A NUMBER ON THE SCREEN IS ITS ROUNDING, SET IN GROUPS OF THREE.**  As long as the
separators can be told from each other and from the characters of a number, the plain text
of the rounding can be read off the screen.  A group separator stands between two integer
digits exactly if a multiple of three of them follows, and nowhere else.  The decimal
separator is there exactly if the rounding is not whole, and behind it stand its fraction
digits, no more than the settings ask for and without needless zeros.  What rounds to zero
is shown without a sign. -/
theorem number_shown (s : Settings) (hclear : s.HasClearSeparators)
    (hplaces : s.shownPlaces ≤ Settings.maxShownPlaces) (x : Decimal) :
    let shown := (s.showNumber x).toList
    let r := x.roundAt s.shownPlaces
    String.ofList (s.unset shown) = r.plainText
      ∧ (∀ before after, shown = before ++ s.groupSeparator :: after →
          s.decimalSeparator ∉ before ∧ s.integerDigits before ≠ []
            ∧ s.integerDigits after ≠ [] ∧ (s.integerDigits after).length % 3 = 0)
      ∧ (∀ before c d after, shown = before ++ c :: d :: after → s.decimalSeparator ∉ before →
          c.isDigit = true → d.isDigit = true → (s.integerDigits (d :: after)).length % 3 ≠ 0)
      ∧ (s.decimalSeparator ∈ shown ↔ ¬ ∃ k : ℤ, r.toRat = k)
      ∧ (∀ before after, shown = before ++ s.decimalSeparator :: after →
          AreDigits after ∧ 1 ≤ after.length ∧ after.length ≤ s.shownPlaces
            ∧ after.getLast? ≠ some '0')
      ∧ (r.toRat = 0 → s.showNumber x = "0") := by
  intro shown r
  obtain ⟨-, hinteger, hfraction⟩ := r.parts_spec
  have hshown : shown = Decimal.sign r.parts.negative ++ group s.groupSeparator r.parts.integer
      ++ Decimal.pointed s.decimalSeparator r.parts.fraction :=
    String.toList_ofList.trans (Settings.numberChars_eq hplaces x)
  refine ⟨?_, fun before after hcut => ?_, fun before c d after hcut => ?_, ?_,
    fun before after hcut => ?_, fun hzero => ?_⟩
  · rw [hshown, hclear.unset_eq _ hinteger hfraction]
    rfl
  · exact hclear.cut_separator hinteger hfraction (hshown.symm.trans hcut)
  · exact hclear.cut_digits hinteger (hshown.symm.trans hcut)
  · rw [← r.fraction_eq_nil_iff, hshown]
    exact hclear.mem_decimalSeparator_iff _ hinteger
  · obtain ⟨rfl, hne⟩ := hclear.cut_fraction hinteger hfraction (hshown.symm.trans hcut)
    -- No more places than are wanted are left by rounding, and normalizing brings none.
    have hscale : r.normalized.scale ≤ s.shownPlaces :=
      Decimal.scale_normalized_le (x.scale_roundAt_le s.shownPlaces)
    have hlength := r.length_fraction
    exact ⟨hfraction, List.length_pos_iff.2 hne, by omega, r.parts_canonical.2.1 hne⟩
  · refine String.toList_inj.1 (hshown.trans ?_)
    rw [Decimal.parts_of_zero hzero]
    rfl

/-- With a decimal comma and two places, the last place of the rounding is a zero: it is left
out, and the integer digits stand in three groups. -/
theorem number_shown_comma :
    let s := (Settings.withShownPlaces {} 2).withDecimalComma true
    let x : Decimal := ⟨-1234567896, 3⟩
    let r : Decimal := ⟨-123456790, 2⟩
    s.HasClearSeparators ∧ s.shownPlaces ≤ Settings.maxShownPlaces ∧ x.roundAt s.shownPlaces = r
      ∧ s.showNumber x = "-1.234.567,9" ∧ r.plainText = "-1234567.9"
      ∧ String.ofList (s.unset (s.showNumber x).toList) = r.plainText
      ∧ s.integerDigits ['5', '6', '7', ',', '9'] = ['5', '6', '7']
      ∧ (s.integerDigits ['5', '6', '7', ',', '9']).length % 3 = 0
      ∧ ¬ ∃ k : ℤ, r.toRat = k := by
  intro s x r
  have hclear : s.HasClearSeparators :=
    Settings.hasClearSeparators_withDecimalSeparator _ (by decide) (by decide)
  have hplaces : s.shownPlaces ≤ Settings.maxShownPlaces := by decide
  have hshown : s.showNumber x = "-1.234.567,9" := by decide +kernel
  have hround : x.roundAt s.shownPlaces = r := by decide +kernel
  have hlaw := number_shown s hclear hplaces x
  rw [hround, hshown] at hlaw
  obtain ⟨htext, hgroups, -, hwhole, -, -⟩ := hlaw
  obtain ⟨-, -, -, hthree⟩ :=
    hgroups ['-', '1', '.', '2', '3', '4'] ['5', '6', '7', ',', '9'] (by decide +kernel)
  rw [hshown]
  exact ⟨hclear, hplaces, hround, rfl, by decide +kernel, htext, by decide, hthree,
    hwhole.1 (by decide +kernel)⟩

end PocketCalc
