/-
  PocketCalc.Proofs.Decimal.Canonical
  ───────────────────────────────────
  **THE PLAIN TEXT OF A NUMBER IS CANONICAL.**

  A numeral is canonical if nothing of it could be left out: no zero in front of another
  integer digit, no zero at the end of the decimal places, no point without places, and no
  sign in front of zero.

      -?(0|[1-9][0-9]*)(.[0-9]*[1-9])?      and not  -0

  Of the numerals of one number exactly one is canonical.  Its digits are those of the
  number, so the digits, the sign and the point can be read off the number again.

      isCanonical_ofDecimal    the plain text is canonical
      IsCanonical.eq           canonical numerals of one number are the same
      isCanonical_iff          and the plain text is the one
      plain_canonical          so the plain text loses nothing
-/
import Mathlib.Data.List.Basic
import Mathlib.Data.List.Induction
import PocketCalc.Proofs.Decimal.Numeral
import PocketCalc.Proofs.Decimal.Rational

namespace PocketCalc

/-! ## §1. Digits that belong to a number. -/

theorem ofDigitChars_concat {cs : List Char} {d : Nat} (hd : d ≤ 9) :
    Nat.ofDigitChars 10 (cs ++ [Nat.digitChar d]) 0 = 10 * Nat.ofDigitChars 10 cs 0 + d := by
  rw [Nat.ofDigitChars_append, Nat.ofDigitChars_cons_digitChar_of_lt_ten (by omega),
    Nat.ofDigitChars_nil]

/-- The last of some digits. -/
theorem AreDigits.exists_concat {cs : List Char} {c : Char} (h : AreDigits (cs ++ [c])) :
    AreDigits cs ∧ ∃ d, d ≤ 9 ∧ Nat.digitChar d = c :=
  ⟨fun x hx => h x (List.mem_append_left _ hx),
    Numeral.exists_digitChar (h c (List.mem_append_right _ (List.mem_singleton_self c)))⟩

/-- As many digits of a number as are written are the written ones. -/
theorem lastDigits_ofDigitChars {cs : List Char} (h : AreDigits cs) :
    lastDigits cs.length (Nat.ofDigitChars 10 cs 0) = cs := by
  induction cs using List.reverseRecOn with
  | nil => rfl
  | append_singleton cs c ih =>
    obtain ⟨hcs, d, hd, rfl⟩ := h.exists_concat
    have hrest : (10 * Nat.ofDigitChars 10 cs 0 + d) / 10 = Nat.ofDigitChars 10 cs 0 := by omega
    have hlast : (10 * Nat.ofDigitChars 10 cs 0 + d) % 10 = d := by omega
    rw [ofDigitChars_concat hd, List.length_append, List.length_singleton, lastDigits, hrest, hlast,
      ih hcs]

/-- Digits without a needless zero in front are those of the number that they make. -/
theorem digits_ofDigitChars {cs : List Char} (h : AreDigits cs) (hne : cs ≠ [])
    (htrim : cs = ['0'] ∨ cs.head? ≠ some '0') : digits (Nat.ofDigitChars 10 cs 0) = cs := by
  induction cs using List.reverseRecOn with
  | nil => exact absurd rfl hne
  | append_singleton cs c ih =>
    obtain ⟨hcs, d, hd, rfl⟩ := h.exists_concat
    rw [ofDigitChars_concat hd]
    by_cases hnil : cs = []
    · subst hnil
      rw [Nat.ofDigitChars_nil, Nat.mul_zero, Nat.zero_add, digits_eq,
        Nat.toDigits_of_lt_base (by omega)]
      rfl
    · -- The digits in front begin with the same digit, so their number is not zero.
      have hhead : cs.head? ≠ some '0' := by
        rcases htrim with hzero | hhead
        · have hlength := congrArg List.length hzero
          rw [List.length_append] at hlength
          exact absurd (List.eq_nil_of_length_eq_zero (Nat.succ.inj hlength)) hnil
        · rwa [List.head?_append_of_ne_nil _ hnil] at hhead
      have hfront := ih hcs hnil (.inr hhead)
      have hpos : 0 < Nat.ofDigitChars 10 cs 0 := by
        refine Nat.pos_of_ne_zero fun hzero => hhead ?_
        rw [← hfront, hzero]
        rfl
      rw [digits_eq, ← Nat.toDigits_append_toDigits (by decide) hpos (by omega), ← digits_eq,
        hfront, Nat.toDigits_of_lt_base (by omega)]

/-- The last digit of a number that is no multiple of ten is no zero. -/
theorem getLast?_digits {n : Nat} (h : n % 10 ≠ 0) : (digits n).getLast? ≠ some '0' := by
  have hlast : (digits n).getLast? = some (Nat.digitChar (n % 10)) := by
    by_cases hlt : n < 10
    · rw [digits_eq, Nat.toDigits_of_lt_base hlt, Nat.mod_eq_of_lt hlt]
      rfl
    · rw [digits_eq, Nat.toDigits_of_base_le (by decide) (by omega), List.getLast?_concat]
  rw [hlast]
  exact fun hzero => h (Nat.digitChar_eq_zero.1 (Option.some.inj hzero))

/-! ## §2. The parts of a number. -/

namespace Decimal

/-- The parts of a number other than zero: its digits with zeros behind them, or cut in two
parts, or behind a lone zero and its point with zeros in front of them. -/
theorem parts_cases (x : Decimal) {ds : List Char} (hds : ds = digits x.normalized.mantissa.natAbs)
    (hm : x.normalized.mantissa ≠ 0) :
    (∃ k, x.parts.integer = ds ++ List.replicate k '0' ∧ x.parts.fraction = [])
      ∨ (x.parts.integer ++ x.parts.fraction = ds ∧ x.parts.fraction ≠ [])
      ∨ (x.parts.integer = ['0'] ∧ ∃ k, x.parts.fraction = List.replicate k '0' ++ ds) := by
  have hpos : 0 < ds.length := List.length_pos_iff.2 (hds ▸ digits_ne_nil _)
  unfold parts
  dsimp only
  rw [← hds, if_neg hm]
  generalize x.normalized.scale = s
  by_cases hs : s ≤ 0
  · rw [if_pos hs]
    exact .inl ⟨_, rfl, rfl⟩
  · rw [if_neg hs]
    right
    dsimp only
    by_cases hlong : s.toNat < ds.length
    · -- No zeros are needed in front.
      left
      have hzeros : s.toNat + 1 - ds.length = 0 := by omega
      rw [hzeros, List.replicate_zero, List.nil_append, Ne, List.drop_eq_nil_iff]
      exact ⟨List.take_append_drop _ _, by omega⟩
    · -- One more zero than the places need stands in front.
      right
      have hzeros : s.toNat + 1 - ds.length = s.toNat - ds.length + 1 := by omega
      have hcut : (List.replicate (s.toNat - ds.length + 1) '0' ++ ds).length - s.toNat = 1 := by
        rw [List.length_append, List.length_replicate]
        omega
      rw [hzeros, hcut]
      exact ⟨rfl, _, rfl⟩

/-- Neither a zero in front of the integer part nor one behind the fraction part could be
left out, and zero has no sign. -/
theorem parts_canonical (x : Decimal) :
    (x.parts.integer = ['0'] ∨ x.parts.integer.head? ≠ some '0')
      ∧ (x.parts.fraction ≠ [] → x.parts.fraction.getLast? ≠ some '0')
      ∧ (x.parts.negative = true → x.parts.integer = ['0'] → x.parts.fraction ≠ []) := by
  by_cases hm : x.normalized.mantissa = 0
  · have hzero : x.parts = ⟨false, ['0'], []⟩ := if_pos hm
    rw [hzero]
    exact ⟨.inl rfl, fun h => absurd rfl h, fun h => nomatch h⟩
  · have hmod : x.normalized.mantissa % 10 ≠ 0 := by
      rcases x.isNormal_normalized.cases with h | h
      · exact absurd (congrArg Decimal.mantissa h) hm
      · exact h
    have hhead := head?_digits (Int.natAbs_ne_zero.2 hm)
    have hlast := getLast?_digits (n := x.normalized.mantissa.natAbs) (by omega)
    have hne := digits_ne_nil x.normalized.mantissa.natAbs
    have hcases := x.parts_cases rfl hm
    generalize digits x.normalized.mantissa.natAbs = ds at hhead hlast hne hcases
    rcases hcases with ⟨k, hinteger, hfraction⟩ | ⟨hcut, hfraction⟩ | ⟨hinteger, k, hfraction⟩
    · have hfront : x.parts.integer.head? ≠ some '0' := by
        rw [hinteger, List.head?_append_of_ne_nil _ hne]
        exact hhead
      exact ⟨.inr hfront, fun h => absurd hfraction h,
        fun _ hzero => absurd (congrArg List.head? hzero) hfront⟩
    · refine ⟨.inr ?_, fun _ => ?_, fun _ _ => hfraction⟩
      · rw [← hcut, List.head?_append_of_ne_nil _ x.parts_spec.1] at hhead
        exact hhead
      · rw [← hcut, List.getLast?_append_of_ne_nil _ hfraction] at hlast
        exact hlast
    · refine ⟨.inl hinteger, fun _ => ?_, fun _ _ => ?_⟩
      · rw [hfraction, List.getLast?_append_of_ne_nil _ hne]
        exact hlast
      · rw [hfraction]
        exact fun h => hne (List.append_eq_nil_iff.1 h).2

end Decimal

namespace Numeral

/-! ## §3. Canonical numerals. -/

/-- The integer part is a lone zero, or it does not begin with a zero. -/
def IsTrim (n : Numeral) : Prop := n.whole = ['0'] ∨ n.whole.head? ≠ some '0'

instance (n : Numeral) : Decidable n.IsTrim :=
  inferInstanceAs (Decidable (n.whole = ['0'] ∨ n.whole.head? ≠ some '0'))

/-- **Nothing of the numeral could be left out.** -/
structure IsCanonical (n : Numeral) : Prop where
  trim : n.IsTrim
  places : ∀ cs, n.fraction = some cs → cs ≠ [] ∧ cs.getLast? ≠ some '0'
  signed : n.negative = true → n.whole = ['0'] → n.fraction ≠ none

/-- **The plain text of a number is canonical.** -/
theorem isCanonical_ofDecimal (x : Decimal) : (ofDecimal x).IsCanonical := by
  obtain ⟨htrim, hlast, hsigned⟩ := x.parts_canonical
  have hfraction : (ofDecimal x).fraction
      = if x.parts.fraction.isEmpty then none else some x.parts.fraction := rfl
  refine ⟨htrim, ?_, ?_⟩
  · intro cs hcs
    rw [hfraction] at hcs
    split at hcs
    · cases hcs
    · next hne =>
      cases hcs
      have hne : x.parts.fraction ≠ [] := by simpa using hne
      exact ⟨hne, hlast hne⟩
  · intro hnegative hwhole
    rw [hfraction, if_neg (by simpa using hsigned hnegative hwhole)]
    exact Option.some_ne_none _

/-- The integer digits in front of the decimal places. -/
theorem natAbs_mantissa_split (n : Numeral) :
    n.mantissa.natAbs = tenPow n.places.length * Nat.ofDigitChars 10 n.whole 0
        + Nat.ofDigitChars 10 n.places 0
      ∧ Nat.ofDigitChars 10 n.places 0 < tenPow n.places.length := by
  refine ⟨?_, ?_⟩
  · rw [natAbs_mantissa, Nat.ofDigitChars_append, Nat.ofDigitChars_eq_ofDigitChars_zero]
    rfl
  · have hlt := ofDigitChars_lt (show AreDigits n.places from n.areDigits_places) 0
    rwa [Nat.zero_add, Nat.mul_one] at hlt

namespace IsCanonical

variable {n m : Numeral}

/-! ## §4. One number, one canonical numeral. -/

/-- A canonical numeral has no decimal places, or the last one is no zero. -/
theorem cases (h : n.IsCanonical) :
    n.fraction = none ∧ n.places = []
      ∨ n.fraction = some n.places ∧ n.places ≠ [] ∧ n.mantissa % 10 ≠ 0 := by
  rcases n.pointed_cases with ⟨-, hplaces, hfraction⟩ | ⟨-, hfraction⟩
  · exact .inl ⟨hfraction, hplaces⟩
  · obtain ⟨hne, hlast⟩ := h.places _ hfraction
    refine .inr ⟨hfraction, hne, ?_⟩
    obtain ⟨front, c, hc⟩ := (List.eq_nil_or_concat n.places).resolve_left hne
    rw [List.concat_eq_append] at hc
    have hdigits : AreDigits n.places := n.areDigits_places
    rw [hc] at hdigits
    obtain ⟨-, d, hd, rfl⟩ := hdigits.exists_concat
    rw [hc, List.getLast?_concat] at hlast
    have hd0 : d ≠ 0 := by
      rintro rfl
      exact hlast rfl
    have habs := n.natAbs_mantissa
    rw [hc, ← List.append_assoc, ofDigitChars_concat hd] at habs
    omega

theorem pointed_eq (h : n.IsCanonical) : n.pointed = Decimal.pointed '.' n.places := by
  unfold pointed Decimal.pointed
  rcases h.cases with ⟨hfraction, hplaces⟩ | ⟨hfraction, hne, -⟩
  · rw [hfraction, hplaces]
    rfl
  · rw [hfraction, if_neg (by simpa using hne)]

/-- A number that is zero has no sign: nothing but a zero is left of its numeral. -/
theorem mantissa_ne_zero (h : n.IsCanonical) (hnegative : n.negative = true) :
    n.mantissa ≠ 0 := by
  intro hzero
  rcases h.cases with ⟨hfraction, hplaces⟩ | ⟨-, -, hmod⟩
  · have habs := n.natAbs_mantissa
    rw [hzero, hplaces, List.append_nil] at habs
    have hwhole := digits_ofDigitChars n.areDigits_whole n.whole_ne_nil h.trim
    rw [← habs] at hwhole
    exact h.signed hnegative hwhole.symm hfraction
  · rw [hzero] at hmod
    exact hmod rfl

/-- The sign of a canonical numeral is that of its number. -/
theorem negative_iff (h : n.IsCanonical) : n.negative = true ↔ n.mantissa < 0 := by
  have hsigned : n.mantissa = if n.negative then -(n.mantissa.natAbs : ℤ) else n.mantissa.natAbs := by
    rw [natAbs_mantissa]
    rfl
  cases hnegative : n.negative with
  | true =>
    have hne := h.mantissa_ne_zero hnegative
    rw [hnegative, if_pos rfl] at hsigned
    exact iff_of_true rfl (by omega)
  | false =>
    rw [hnegative, if_neg Bool.false_ne_true] at hsigned
    exact iff_of_false Bool.false_ne_true (by omega)

/-- A canonical numeral has the fewest places: with places, it is the normal pair of its
number, which has the least scale. -/
theorem scale_le (hn : n.IsCanonical) (h : n.value.toRat = m.value.toRat) :
    n.value.scale ≤ m.value.scale := by
  rcases hn.cases with ⟨-, hplaces⟩ | ⟨-, -, hmod⟩
  · show (n.places.length : ℤ) ≤ m.places.length
    rw [hplaces]
    exact Int.natCast_nonneg _
  · have hne : n.value.mantissa ≠ 0 := by
      show n.mantissa ≠ 0
      omega
    exact (Decimal.isNormal_of_mod n.value.scale hmod).scale_le hne h.symm

/-- Canonical numerals of one number have the same mantissa and as many places. -/
theorem value_eq (hn : n.IsCanonical) (hm : m.IsCanonical) (h : n.value.toRat = m.value.toRat) :
    n.value = m.value := by
  have hsame := le_antisymm (hn.scale_le h) (hm.scale_le h.symm)
  have hmantissa := Decimal.mantissa_eq_of_toRat hsame.le h
  rw [hsame, Int.sub_self, Int.toNat_zero, tenPow_zero, Int.natCast_one, Int.mul_one] at hmantissa
  show (⟨n.value.mantissa, n.value.scale⟩ : Decimal) = ⟨m.value.mantissa, m.value.scale⟩
  rw [hsame, hmantissa]

/-- **Canonical numerals of one number are the same.** -/
theorem eq (hn : n.IsCanonical) (hm : m.IsCanonical) (h : n.value.toRat = m.value.toRat) :
    n = m := by
  have hvalue := value_eq hn hm h
  have hmantissa : n.mantissa = m.mantissa := congrArg Decimal.mantissa hvalue
  have hlength : n.places.length = m.places.length :=
    Int.natCast_inj.1 (congrArg Decimal.scale hvalue)
  -- The digits on either side of the point make the same numbers.
  obtain ⟨hsplit, hlt⟩ := n.natAbs_mantissa_split
  obtain ⟨hsplit', hlt'⟩ := m.natAbs_mantissa_split
  rw [hmantissa, hsplit', ← hlength] at hsplit
  rw [← hlength] at hlt'
  have hboth : Nat.ofDigitChars 10 n.whole 0 = Nat.ofDigitChars 10 m.whole 0
      ∧ Nat.ofDigitChars 10 n.places 0 = Nat.ofDigitChars 10 m.places 0 := by
    have hdiv := congrArg (· / tenPow n.places.length) hsplit
    have hmod := congrArg (· % tenPow n.places.length) hsplit
    simp only [Nat.mul_add_div (tenPow_pos _), Nat.mul_add_mod, Nat.div_eq_of_lt hlt,
      Nat.div_eq_of_lt hlt', Nat.mod_eq_of_lt hlt, Nat.mod_eq_of_lt hlt'] at hdiv hmod
    exact ⟨hdiv.symm, hmod.symm⟩
  have hwhole : n.whole = m.whole := by
    rw [← digits_ofDigitChars n.areDigits_whole n.whole_ne_nil hn.trim, hboth.1,
      digits_ofDigitChars m.areDigits_whole m.whole_ne_nil hm.trim]
  have hplaces : n.places = m.places := by
    have hdigits : AreDigits n.places := n.areDigits_places
    have hdigits' : AreDigits m.places := m.areDigits_places
    rw [← lastDigits_ofDigitChars hdigits, hboth.2, hlength, lastDigits_ofDigitChars hdigits']
  have hnegative : n.negative = m.negative := by
    rw [Bool.eq_iff_iff, hn.negative_iff, hm.negative_iff, hmantissa]
  refine text_injective ?_
  unfold text
  rw [hnegative, hwhole, hn.pointed_eq, hm.pointed_eq, hplaces]

end IsCanonical

/-- **A numeral is canonical exactly if it is the plain text of its number.** -/
theorem isCanonical_iff (n : Numeral) : n.IsCanonical ↔ n.value.plain = n.text := by
  have hplain := isCanonical_ofDecimal n.value
  rw [← text_ofDecimal]
  constructor
  · intro h
    rw [hplain.eq h ((Decimal.normalized_eq_iff _ _).1 (normalized_value_ofDecimal n.value))]
  · intro h
    rw [← text_injective h]
    exact hplain

end Numeral

/-! ## §5. The plain text loses nothing. -/

namespace Decimal

/-- The plain text depends on the number alone. -/
theorem plain_eq_iff (x y : Decimal) : x.plain = y.plain ↔ x.toRat = y.toRat := by
  rw [← normalized_eq_iff]
  constructor
  · intro h
    have hread := x.readTyped_plain
    rw [h, y.readTyped_plain] at hread
    exact (Option.some.inj hread).symm
  · intro h
    unfold plain parts
    rw [h]

theorem toList_plainText (x : Decimal) : x.plainText.toList = x.plain := String.toList_ofList

/-- **THE PLAIN TEXT OF A NUMBER IS CANONICAL AND LOSES NOTHING.**  It is a canonical numeral,
so it is never `-0`, and no other numeral is the plain text of its number.  Read back it is
the same number, in normal form if it is read as a typed one; and two decimals have the
same plain text exactly if they are the same number. -/
theorem plain_canonical (x : Decimal) :
    (∃ n : Numeral, n.IsCanonical ∧ x.plainText = String.ofList n.text)
      ∧ x.plainText ≠ "-0"
      ∧ (∀ n : Numeral, n.IsCanonical ↔ n.value.plain = n.text)
      ∧ (∃ y, readTyped x.plainText.toList = some y ∧ y.IsNormal ∧ y.toRat = x.toRat)
      ∧ (∃ y, ofText? x.plainText = some y ∧ y.toRat = x.toRat)
      ∧ ∀ y : Decimal, x.plainText = y.plainText ↔ x.toRat = y.toRat := by
  have hcanonical := Numeral.isCanonical_ofDecimal x
  have htext := Numeral.text_ofDecimal x
  refine ⟨⟨.ofDecimal x, hcanonical, congrArg String.ofList htext.symm⟩, ?_, ?_, ?_, ?_, ?_⟩
  · intro hzero
    -- A sign in front of a lone zero would not be canonical.
    let zero : Numeral := ⟨true, ['0'], none, by decide, by decide, by decide⟩
    have hplain : x.plain = zero.text := by
      rw [← toList_plainText, hzero]
      rfl
    rw [← htext] at hplain
    rw [Numeral.text_injective hplain] at hcanonical
    exact hcanonical.signed rfl rfl rfl
  · exact Numeral.isCanonical_iff
  · refine ⟨x.normalized, ?_, isNormal_normalized x, toRat_normalized x⟩
    rw [toList_plainText, readTyped_plain]
  · obtain ⟨y, hread, hsame⟩ := x.read_plain
    refine ⟨y, ?_, (normalized_eq_iff y x).1 hsame⟩
    unfold ofText?
    rw [toList_plainText, hread]
  · intro y
    rw [← plain_eq_iff]
    exact ⟨fun h => by rw [← toList_plainText, h, toList_plainText], congrArg String.ofList⟩

end Decimal

end PocketCalc
