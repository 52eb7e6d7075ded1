/-
  PocketCalc.Proofs.Decimal.Numeral
  ─────────────────────────────────
  **NUMERALS.**

  A numeral is a decimal written without exponent: an optional minus sign, at
  least one integer digit, and optionally a point with its decimal places.  The
  places may still be missing, as in a number that is being typed.

      read_text           a numeral is read as the number it stands for
      readTyped_text      and the same with a final point, when it is typed
      text_ofDecimal      the plain text of a number is a numeral
      normalized_value_ofDecimal
                          that stands for this number
-/
import PocketCalc.Proofs.Decimal.Normal
import PocketCalc.Proofs.Sequence.Cutting
import PocketCalc.Decimal.Reader

namespace PocketCalc

/-! ## §1. Texts of digits. -/

/-- Are all characters decimal digits? -/
def AreDigits (cs : List Char) : Prop := ∀ c ∈ cs, c.isDigit = true

instance (cs : List Char) : Decidable (AreDigits cs) :=
  decidable_of_iff (cs.all Char.isDigit = true) List.all_eq_true

theorem AreDigits.append {as bs : List Char} (ha : AreDigits as) (hb : AreDigits bs) :
    AreDigits (as ++ bs) :=
  List.forall_mem_append.2 ⟨ha, hb⟩

theorem areDigits_digits (n : Nat) : AreDigits (digits n) := by
  intro c hc
  rw [digits_eq] at hc
  exact Nat.isDigit_of_mem_toDigits (by decide) (by decide) hc

theorem digits_ne_nil (n : Nat) : digits n ≠ [] := by
  rw [digits_eq]
  exact Nat.toDigits_ne_nil

/-- The digits of a number other than zero do not begin with a zero. -/
theorem head?_digits {n : Nat} (h : n ≠ 0) : (digits n).head? ≠ some '0' := by
  induction n using Nat.strongRecOn with
  | ind n ih =>
    by_cases hlt : n < 10
    · rw [digits_eq, Nat.toDigits_of_lt_base hlt]
      simpa using h
    · have hrest : (digits (n / 10)).head? ≠ some '0' := ih (n / 10) (by omega) (by omega)
      have hsplit : digits n = digits (n / 10) ++ [Nat.digitChar (n % 10)] := by
        rw [digits_eq, digits_eq, Nat.toDigits_of_base_le (by decide) (by omega)]
      cases hds : digits (n / 10) with
      | nil => exact absurd hds (digits_ne_nil _)
      | cons c cs =>
        rw [hds] at hrest hsplit
        rw [hsplit]
        exact hrest

theorem areDigits_zeros (n : Nat) : AreDigits (List.replicate n '0') := by
  intro c hc
  rw [(List.mem_replicate.1 hc).2]
  rfl

/-- A digit differs from every character that is none. -/
theorem ne_of_isDigit {c d : Char} (hc : c.isDigit = true) (hd : d.isDigit = false) : c ≠ d := by
  intro h
  rw [h, hd] at hc
  cases hc

theorem not_isExponentMark {c : Char} (hc : c.isDigit = true) :
    Decimal.isExponentMark c = false := by
  unfold Decimal.isExponentMark
  simp [ne_of_isDigit hc (show 'e'.isDigit = false from rfl),
    ne_of_isDigit hc (show 'E'.isDigit = false from rfl)]

/-- Digits have no underscore among them. -/
theorem AreDigits.filter_underscore {cs : List Char} (h : AreDigits cs) :
    cs.filter (· != '_') = cs := by
  rw [List.filter_eq_self]
  intro c hc
  simpa using ne_of_isDigit (h c hc) (show '_'.isDigit = false from rfl)

namespace Decimal

theorem readDigits_eq {cs : List Char} (h : AreDigits cs) (hne : cs ≠ []) :
    readDigits cs = some (Nat.ofDigitChars 10 cs 0) := by
  unfold readDigits
  have hall : cs.all Char.isDigit = true := List.all_eq_true.2 h
  simp [hall, hne]

/-- The digits of a number are read as this number. -/
theorem readDigits_digits (n : Nat) : readDigits (digits n) = some n := by
  rw [readDigits_eq (areDigits_digits n) (digits_ne_nil n), digits_eq,
    Nat.ofDigitChars_ten_toDigits]

theorem readSpacedDigits_eq {cs : List Char} (h : AreDigits cs) (hne : cs ≠ []) :
    readSpacedDigits cs = some (Nat.ofDigitChars 10 cs 0) := by
  unfold readSpacedDigits
  have hhead : cs.head? ≠ some '_' := by
    intro hc
    exact ne_of_isDigit (h '_' (List.mem_of_head? hc)) (show '_'.isDigit = false from rfl) rfl
  have hall : cs.all (fun c => c.isDigit || c == '_') = true :=
    List.all_eq_true.2 fun c hc => by rw [h c hc]; rfl
  simp [hhead, hall, h.filter_underscore, readDigits_eq h hne]

/-- A text that begins with a digit has no sign. -/
theorem readSigned_digits {read : List Char → Option Nat} {cs : List Char} (h : AreDigits cs) :
    readSigned read cs = (read cs).map fun n => (n : Int) := by
  cases cs with
  | nil => rfl
  | cons c cs =>
    have hc := h c List.mem_cons_self
    have hminus : c ≠ '-' := ne_of_isDigit hc rfl
    have hplus : c ≠ '+' := ne_of_isDigit hc rfl
    unfold readSigned
    split <;> simp_all

end Decimal

/-! ## §2. Numerals. -/

/-- A decimal as it is written without exponent. -/
structure Numeral where
  negative : Bool
  whole : List Char
  /-- What stands behind the point, if there is a point. -/
  fraction : Option (List Char)
  whole_ne_nil : whole ≠ []
  areDigits_whole : AreDigits whole
  areDigits_places : AreDigits (fraction.getD [])

namespace Numeral

/-- The decimal places. -/
def places (n : Numeral) : List Char := n.fraction.getD []

/-- The point and what stands behind it. -/
def pointed (n : Numeral) : List Char :=
  match n.fraction with
  | none => []
  | some cs => '.' :: cs

/-- The numeral character by character. -/
def text (n : Numeral) : List Char := Decimal.sign n.negative ++ n.whole ++ n.pointed

/-- All digits as a whole number, with the sign of the numeral. -/
def mantissa (n : Numeral) : Int :=
  let m : Int := Nat.ofDigitChars 10 (n.whole ++ n.places) 0
  if n.negative then -m else m

/-- The number that a numeral stands for. -/
def value (n : Numeral) : Decimal := ⟨n.mantissa, n.places.length⟩

/-- Does the numeral have its point? -/
def hasPoint (n : Numeral) : Bool := n.fraction.isSome

/-- Does the numeral end with its point? -/
def pending (n : Numeral) : Bool := n.fraction == some []

theorem areDigits_all (n : Numeral) : AreDigits (n.whole ++ n.places) :=
  n.areDigits_whole.append n.areDigits_places

/-! ## §3. Numerals are read. -/

theorem pointed_cases (n : Numeral) :
    (n.pointed = [] ∧ n.places = [] ∧ n.fraction = none)
      ∨ (n.pointed = '.' :: n.places ∧ n.fraction = some n.places) := by
  unfold pointed places
  cases n.fraction with
  | none => exact .inl ⟨rfl, rfl, rfl⟩
  | some cs => exact .inr ⟨rfl, rfl⟩

theorem drop_pointed (n : Numeral) : n.pointed.drop 1 = n.places := by
  rcases n.pointed_cases with ⟨hp, hq, -⟩ | ⟨hp, -⟩
  · rw [hp, hq]
    rfl
  · rw [hp]
    rfl

theorem mem_sign {negative : Bool} {c : Char} (h : c ∈ Decimal.sign negative) : c = '-' := by
  unfold Decimal.sign at h
  split at h
  · exact List.mem_singleton.1 h
  · cases h

/-- A numeral has no other characters than digits, its sign and its point. -/
theorem mem_text {n : Numeral} {c : Char} (h : c ∈ n.text) :
    c.isDigit = true ∨ c = '-' ∨ c = '.' := by
  unfold text at h
  rcases List.mem_append.1 h with h | h
  · rcases List.mem_append.1 h with h | h
    · exact .inr (.inl (mem_sign h))
    · exact .inl (n.areDigits_whole c h)
  · rcases n.pointed_cases with ⟨hp, -⟩ | ⟨hp, -⟩
    · rw [hp] at h
      cases h
    · rw [hp] at h
      rcases List.mem_cons.1 h with h | h
      · exact .inr (.inr h)
      · exact .inl (n.areDigits_places c h)

theorem not_isExponentMark_of_mem_text {n : Numeral} {c : Char} (h : c ∈ n.text) :
    Decimal.isExponentMark c = false := by
  rcases mem_text h with h | rfl | rfl
  · exact not_isExponentMark h
  · rfl
  · rfl

/-- The point is found where it stands. -/
theorem cut_text (n : Numeral) :
    n.text.takeWhile (· != '.') = Decimal.sign n.negative ++ n.whole
      ∧ n.text.dropWhile (· != '.') = n.pointed := by
  have hfront : ∀ c ∈ Decimal.sign n.negative ++ n.whole, (c != '.') = true := by
    intro c hc
    rcases List.mem_append.1 hc with hc | hc
    · rw [mem_sign hc]
      rfl
    · simpa using ne_of_isDigit (n.areDigits_whole c hc) (show '.'.isDigit = false from rfl)
  unfold text
  refine run_cut hfront fun c hc => ?_
  rcases n.pointed_cases with ⟨hp, -⟩ | ⟨hp, -⟩
  · rw [hp] at hc
    cases hc
  · rw [hp] at hc
    cases hc
    rfl

theorem readSigned_mantissa (n : Numeral) :
    Decimal.readSigned Decimal.readSpacedDigits (Decimal.sign n.negative ++ n.whole ++ n.places)
      = some n.mantissa := by
  have hne : n.whole ++ n.places ≠ [] := fun h => n.whole_ne_nil (List.append_eq_nil_iff.1 h).1
  have hread := Decimal.readSpacedDigits_eq n.areDigits_all hne
  rw [List.append_assoc]
  unfold mantissa
  cases n.negative with
  | true =>
    show (Decimal.readSpacedDigits (n.whole ++ n.places)).map (fun n => -(n : Int)) = _
    rw [hread]
    rfl
  | false =>
    show Decimal.readSigned _ (n.whole ++ n.places) = _
    rw [Decimal.readSigned_digits n.areDigits_all, hread]
    rfl

/-- **A numeral is read as the number it stands for.** -/
theorem read_text (n : Numeral) : Decimal.read n.text = some n.value := by
  -- Without an exponent mark the whole text is the mantissa part.
  have hmark : ∀ c ∈ n.text, (!Decimal.isExponentMark c) = true := by
    intro c hc
    rw [not_isExponentMark_of_mem_text hc]
    rfl
  obtain ⟨hbase, hexponent⟩ := run_whole hmark
  obtain ⟨hfront, hback⟩ := n.cut_text
  unfold Decimal.read
  simp only [hbase, hexponent, hfront, hback, drop_pointed, readSigned_mantissa, Decimal.readExponent,
    true_or, if_true, Int.sub_zero]
  have hfilter : n.places.filter (· != '_') = n.places := n.areDigits_places.filter_underscore
  rw [hfilter]
  rfl

/-- A numeral is determined by its characters. -/
theorem text_injective {n m : Numeral} (h : n.text = m.text) : n = m := by
  have hfront : Decimal.sign n.negative ++ n.whole = Decimal.sign m.negative ++ m.whole := by
    rw [← n.cut_text.1, ← m.cut_text.1, h]
  have hback : n.pointed = m.pointed := by
    rw [← n.cut_text.2, ← m.cut_text.2, h]
  obtain ⟨negative, whole, fraction, hne, hwhole, hplaces⟩ := n
  obtain ⟨negative', whole', fraction', hne', hwhole', hplaces'⟩ := m
  -- A sign is no digit, so the texts agree on it.
  have hsign : negative = negative' ∧ whole = whole' := by
    cases negative <;> cases negative'
    · exact ⟨rfl, hfront⟩
    · have hw : whole = '-' :: whole' := hfront
      rw [hw] at hwhole
      exact absurd (hwhole '-' List.mem_cons_self) (by decide)
    · have hw : '-' :: whole = whole' := hfront
      rw [← hw] at hwhole'
      exact absurd (hwhole' _ List.mem_cons_self) (by decide)
    · exact ⟨rfl, List.cons.inj hfront |>.2⟩
  have hfraction : fraction = fraction' := by
    unfold pointed at hback
    cases fraction <;> cases fraction' <;> simp_all
  obtain ⟨rfl, rfl⟩ := hsign
  subst hfraction
  rfl

/-- Without its sign the mantissa is what the digits make. -/
theorem natAbs_mantissa (n : Numeral) :
    n.mantissa.natAbs = Nat.ofDigitChars 10 (n.whole ++ n.places) 0 := by
  unfold mantissa
  dsimp only
  split <;> omega

/-- Digits make a number that has at most as many of them. -/
theorem ofDigitChars_lt {cs : List Char} (h : AreDigits cs) (m : Nat) :
    Nat.ofDigitChars 10 cs m < tenPow cs.length * (m + 1) := by
  induction cs generalizing m with
  | nil =>
    rw [Nat.ofDigitChars_nil, List.length_nil, tenPow_zero]
    omega
  | cons c cs ih =>
    have hc : c.toNat - '0'.toNat ≤ 9 := by
      have hrange := Char.isDigit_iff_toNat.1 (h c List.mem_cons_self)
      have : '9'.toNat = 57 := rfl
      have : '0'.toNat = 48 := rfl
      omega
    have hrest := ih (fun x hx => h x (List.mem_cons_of_mem _ hx)) (10 * m + (c.toNat - '0'.toNat))
    rw [Nat.ofDigitChars_cons, List.length_cons, tenPow_succ, Nat.mul_assoc]
    exact Nat.lt_of_lt_of_le hrest (Nat.mul_le_mul_left _ (by omega))

/-- The normal mantissa of a numeral lacks fewer zeros than it has integer digits. -/
theorem neg_scale_lt (n : Numeral) : -n.value.normalized.scale < n.whole.length := by
  have hpos : 0 < n.whole.length := List.length_pos_iff.2 n.whole_ne_nil
  rcases n.value.normalized_cases with ⟨-, h⟩ | ⟨c, j, hc, hm, h⟩
  · rw [h]
    dsimp only
    omega
  · have hlt := ofDigitChars_lt n.areDigits_all 0
    have habs : n.value.mantissa.natAbs = Nat.ofDigitChars 10 (n.whole ++ n.places) 0 :=
      n.natAbs_mantissa
    -- The zeros taken off are among the digits, and not all of them.
    have hc0 : c.natAbs ≠ 0 := by omega
    have hle : tenPow j ≤ Nat.ofDigitChars 10 (n.whole ++ n.places) 0 := by
      rw [← habs, hm, Int.natAbs_mul, Int.natAbs_natCast]
      exact Nat.le_mul_of_pos_left _ (Nat.pos_of_ne_zero hc0)
    have hj : j < (n.whole ++ n.places).length := by
      rcases Nat.lt_or_ge j (n.whole ++ n.places).length with h | h
      · exact h
      · have := tenPow_mono h
        omega
    rw [List.length_append] at hj
    rw [h]
    show -((n.places.length : Int) - j) < n.whole.length
    omega

/-! ## §4. Numerals are typed. -/

/-- The numeral without a final point. -/
def settled (n : Numeral) : Numeral :=
  if n.pending then { n with fraction := none, areDigits_places := fun _ h => nomatch h } else n

theorem value_settled (n : Numeral) : n.settled.value = n.value := by
  unfold settled
  split
  · next h =>
    have hf : n.fraction = some [] := by simpa [pending] using h
    simp [value, mantissa, places, hf]
  · rfl

theorem pending_settled (n : Numeral) : n.settled.pending = false := by
  unfold settled
  split
  · rfl
  · next h => simpa using h

theorem hasPoint_settled {n : Numeral} (h : n.pending = true) : n.settled.hasPoint = false := by
  unfold settled
  rw [if_pos h]
  rfl

/-- The last character of a numeral without a final point is a digit. -/
theorem getLast?_text (n : Numeral) (h : n.pending = false) :
    ∃ c, n.text.getLast? = some c ∧ c.isDigit = true := by
  have hlast : ∀ (front cs : List Char), cs ≠ [] → AreDigits cs →
      ∃ c, (front ++ cs).getLast? = some c ∧ c.isDigit = true := by
    intro front cs hne hcs
    refine ⟨cs.getLast hne, ?_, hcs _ (List.getLast_mem hne)⟩
    rw [List.getLast?_append, List.getLast?_eq_some_getLast hne]
    rfl
  unfold text
  rcases n.pointed_cases with ⟨hp, -⟩ | ⟨hp, hf⟩
  · rw [hp, List.append_nil]
    exact hlast _ _ n.whole_ne_nil n.areDigits_whole
  · have hne : n.places ≠ [] := by
      intro h0
      rw [pending, hf, h0] at h
      cases h
    rw [hp, List.append_cons]
    exact hlast _ _ hne n.areDigits_places

theorem text_ne_nil (n : Numeral) : n.text ≠ [] := by
  unfold text
  simp [n.whole_ne_nil]

theorem text_ne_minus (n : Numeral) : n.text ≠ ['-'] := by
  intro h
  by_cases hp : n.pending = true
  · have hf : n.fraction = some [] := by simpa [pending] using hp
    have hmem : '.' ∈ n.text := by simp [text, pointed, hf]
    rw [h] at hmem
    exact absurd hmem (by decide)
  · obtain ⟨c, hc, hd⟩ := n.getLast?_text (by simpa using hp)
    rw [h] at hc
    cases hc
    cases hd

/-- A final point is left out. -/
theorem text_settled (n : Numeral) :
    (if n.text.getLast? == some '.' then n.text.dropLast else n.text) = n.settled.text := by
  by_cases hp : n.pending = true
  · have hf : n.fraction = some [] := by simpa [pending] using hp
    have htext : n.text = Decimal.sign n.negative ++ n.whole ++ ['.'] := by
      simp [text, pointed, hf]
    have hsettled : n.settled.text = Decimal.sign n.negative ++ n.whole := by
      simp [settled, hp, text, pointed]
    rw [htext, hsettled, List.getLast?_concat, List.dropLast_concat]
    rfl
  · have hp : n.pending = false := by simpa using hp
    obtain ⟨c, hc, hd⟩ := n.getLast?_text hp
    have hdot : c ≠ '.' := ne_of_isDigit hd rfl
    rw [hc]
    simp [hdot, settled, hp]

/-- **A numeral that is typed is read as the number it stands for**, also while
its point is the last thing typed. -/
theorem readTyped_text (n : Numeral) : Decimal.readTyped n.text = some n.value.normalized := by
  have hempty : n.settled.text.isEmpty = false := by simp [n.settled.text_ne_nil]
  have hminus : (n.settled.text == ['-']) = false := by simp [n.settled.text_ne_minus]
  unfold Decimal.readTyped
  dsimp only
  rw [text_settled, hempty, hminus, read_text, value_settled]
  rfl

end Numeral

/-! ## §5. The plain text of a number. -/

namespace Decimal

/-- The integer part of a number has a digit, and its parts are digits. -/
theorem parts_spec (x : Decimal) :
    x.parts.integer ≠ [] ∧ AreDigits x.parts.integer ∧ AreDigits x.parts.fraction := by
  have hds := digits_ne_nil x.normalized.mantissa.natAbs
  have hdigits := areDigits_digits x.normalized.mantissa.natAbs
  unfold parts
  dsimp only
  split
  · exact ⟨List.cons_ne_nil _ _, areDigits_zeros 1, fun _ h => nomatch h⟩
  · split
    · refine ⟨?_, hdigits.append (areDigits_zeros _), fun _ h => nomatch h⟩
      intro h
      exact hds (List.append_eq_nil_iff.1 h).1
    · have hpadded := (areDigits_zeros (x.normalized.scale.toNat + 1
        - (digits x.normalized.mantissa.natAbs).length)).append hdigits
      refine ⟨?_, fun c hc => hpadded c (List.mem_of_mem_take hc),
        fun c hc => hpadded c (List.mem_of_mem_drop hc)⟩
      intro h
      have hlength := congrArg List.length h
      simp only [List.length_take, List.length_append, List.length_replicate, List.length_nil]
        at hlength
      omega

end Decimal

namespace Numeral

/-- The numeral that is the plain text of a number. -/
def ofDecimal (x : Decimal) : Numeral where
  negative := x.parts.negative
  whole := x.parts.integer
  fraction := if x.parts.fraction.isEmpty then none else some x.parts.fraction
  whole_ne_nil := x.parts_spec.1
  areDigits_whole := x.parts_spec.2.1
  areDigits_places := by
    split
    · exact fun _ h => nomatch h
    · exact x.parts_spec.2.2

theorem text_ofDecimal (x : Decimal) : (ofDecimal x).text = x.plain := by
  unfold text pointed ofDecimal Decimal.plain Decimal.pointed
  dsimp only
  congr 1
  cases x.parts.fraction.isEmpty <;> rfl

theorem places_ofDecimal (x : Decimal) : (ofDecimal x).places = x.parts.fraction := by
  unfold places ofDecimal
  dsimp only
  split
  · next h => rw [List.isEmpty_iff.1 h]; rfl
  · rfl

/-- The plain text of a number never ends with a point. -/
theorem pending_ofDecimal (x : Decimal) : (ofDecimal x).pending = false := by
  unfold pending ofDecimal
  dsimp only
  cases h : x.parts.fraction with
  | nil => rfl
  | cons c cs => rfl

/-- The digits of a mantissa with zeros on either side, and its sign. -/
theorem signed_digits (m : Int) (j k : Nat) {ds : List Char}
    (hds : ds = List.replicate j '0' ++ digits m.natAbs ++ List.replicate k '0') :
    (if decide (m < 0) then -(Nat.ofDigitChars 10 ds 0 : Int) else Nat.ofDigitChars 10 ds 0)
      = m * (tenPow k : Int) := by
  have hvalue : Nat.ofDigitChars 10 ds 0 = m.natAbs * tenPow k := by
    rw [hds, Nat.ofDigitChars_append, Nat.ofDigitChars_replicate_zero, Nat.ofDigitChars_append,
      Nat.ofDigitChars_replicate_zero, Nat.mul_zero, digits_eq, Nat.ofDigitChars_ten_toDigits,
      Nat.mul_comm]
    rfl
  rw [hvalue, Int.natCast_mul]
  by_cases h : m < 0
  · have hm : (m.natAbs : Int) = -m := by omega
    rw [if_pos (decide_eq_true h), hm, Int.neg_mul, Int.neg_neg]
  · have hm : (m.natAbs : Int) = m := by omega
    rw [if_neg (by simpa using h), hm]

/-- The plain text of a number has the normal mantissa at its scale, or with its
zeros behind it if the scale is negative. -/
theorem value_ofDecimal (x : Decimal) :
    (ofDecimal x).value =
      if x.normalized.scale ≤ 0 then
        ⟨x.normalized.mantissa * (tenPow (-x.normalized.scale).toNat : Int), 0⟩
      else x.normalized := by
  have hparts : (ofDecimal x).value =
      ⟨if x.parts.negative then -(Nat.ofDigitChars 10 (x.parts.integer ++ x.parts.fraction) 0 : Int)
        else Nat.ofDigitChars 10 (x.parts.integer ++ x.parts.fraction) 0,
        x.parts.fraction.length⟩ := by
    unfold value mantissa
    rw [places_ofDecimal]
    rfl
  rw [hparts]
  unfold Decimal.parts
  dsimp only
  by_cases hm : x.normalized.mantissa = 0
  · -- Zero has one integer digit and no sign.
    rw [if_pos hm, Decimal.normalized_eq_zero hm]
    rfl
  · generalize x.normalized = v at hm ⊢
    rw [if_neg hm]
    by_cases hs : v.scale ≤ 0
    · -- Zeros are appended to the digits of the mantissa.
      rw [if_pos hs, if_pos hs]
      have h := signed_digits v.mantissa 0 (-v.scale).toNat rfl
      simp only [List.replicate_zero, List.nil_append] at h
      simp only [List.append_nil, h, List.length_nil]
      rfl
    · -- Zeros in front fill the places up to the point and one digit before it.
      rw [if_neg hs, if_neg hs]
      have h := signed_digits v.mantissa
        (v.scale.toNat + 1 - (digits v.mantissa.natAbs).length) 0 rfl
      simp only [List.replicate_zero, List.append_nil, tenPow_zero, Int.natCast_one,
        Int.mul_one] at h
      simp only [List.take_append_drop, h, List.length_drop, List.length_append,
        List.length_replicate]
      have hscale : ∀ w : Nat, ((v.scale.toNat + 1 - w + w
          - (v.scale.toNat + 1 - w + w - v.scale.toNat) : Nat) : Int) = v.scale := by
        intro w
        omega
      rw [hscale]

/-- **The plain text of a number stands for this number.** -/
theorem normalized_value_ofDecimal (x : Decimal) :
    (ofDecimal x).value.normalized = x.normalized := by
  rw [value_ofDecimal]
  split
  · next hs =>
    rcases x.normalized_cases with ⟨-, h⟩ | ⟨c, j, hc, -, h⟩
    · rw [h]
      rfl
    · rw [h] at hs ⊢
      rw [Decimal.normalized_mul_tenPow _ _ hc]
      dsimp only at hs ⊢
      congr 1
      omega
  · exact x.normalized_normalized

end Numeral

/-! ## §6. One character more or less. -/

namespace Numeral

theorem isDigit_digitChar {d : Nat} (hd : d ≤ 9) : (Nat.digitChar d).isDigit = true := by
  rw [Nat.isDigit_digitChar]
  exact decide_eq_true (by omega)

/-- Every digit is the one of its value. -/
theorem exists_digitChar {c : Char} (h : c.isDigit = true) : ∃ d, d ≤ 9 ∧ Nat.digitChar d = c := by
  have hrange : 48 ≤ c.toNat ∧ c.toNat ≤ 57 := by
    simpa [Char.isDigit, UInt32.le_iff_toNat_le] using h
  refine ⟨c.toNat - 48, by omega, Char.toNat_inj.1 ?_⟩
  rw [Nat.toNat_digitChar_of_lt_ten (by omega)]
  omega

/-- The numeral of one digit. -/
def ofDigit (d : Nat) (hd : d ≤ 9) : Numeral where
  negative := false
  whole := [Nat.digitChar d]
  fraction := none
  whole_ne_nil := List.cons_ne_nil _ _
  areDigits_whole := by
    intro c hc
    rw [List.mem_singleton.1 hc]
    exact isDigit_digitChar hd
  areDigits_places := fun _ h => nomatch h

theorem text_ofDigit (d : Nat) (hd : d ≤ 9) : (ofDigit d hd).text = [Nat.digitChar d] := rfl

/-- One digit more. -/
def pushDigit (n : Numeral) (d : Nat) (hd : d ≤ 9) : Numeral where
  negative := n.negative
  whole := if n.hasPoint then n.whole else n.whole ++ [Nat.digitChar d]
  fraction := n.fraction.map (· ++ [Nat.digitChar d])
  whole_ne_nil := by
    split
    · exact n.whole_ne_nil
    · simp
  areDigits_whole := by
    split
    · exact n.areDigits_whole
    · exact n.areDigits_whole.append (ofDigit d hd).areDigits_whole
  areDigits_places := by
    have h := n.areDigits_places
    cases hf : n.fraction with
    | none => exact fun _ h => nomatch h
    | some cs =>
      rw [hf] at h
      exact AreDigits.append h (ofDigit d hd).areDigits_whole

theorem text_pushDigit (n : Numeral) (d : Nat) (hd : d ≤ 9) :
    (n.pushDigit d hd).text = n.text ++ [Nat.digitChar d] := by
  cases hf : n.fraction <;> simp [text, pointed, pushDigit, hasPoint, hf]

theorem hasPoint_pushDigit (n : Numeral) (d : Nat) (hd : d ≤ 9) :
    (n.pushDigit d hd).hasPoint = n.hasPoint := by
  cases hf : n.fraction <;> simp [hasPoint, pushDigit, hf]

theorem pending_pushDigit (n : Numeral) (d : Nat) (hd : d ≤ 9) :
    (n.pushDigit d hd).pending = false := by
  cases hf : n.fraction <;> simp [pending, pushDigit, hf]

/-- The numeral behind a digit key: a lone zero gives way to the digit. -/
def typeDigit (n : Numeral) (d : Nat) (hd : d ≤ 9) : Numeral :=
  if n.text = ['0'] then ofDigit d hd else n.pushDigit d hd

theorem text_typeDigit (n : Numeral) (d : Nat) (hd : d ≤ 9) :
    (n.typeDigit d hd).text = (if n.text = ['0'] then [] else n.text) ++ [Nat.digitChar d] := by
  unfold typeDigit
  split
  · rw [text_ofDigit]
    rfl
  · rw [text_pushDigit]

theorem pending_typeDigit (n : Numeral) (d : Nat) (hd : d ≤ 9) :
    (n.typeDigit d hd).pending = false := by
  unfold typeDigit
  split
  · rfl
  · exact n.pending_pushDigit d hd

/-- The numeral with its point, the places still missing. -/
def pushPoint (n : Numeral) : Numeral :=
  { n with fraction := some [], areDigits_places := fun _ h => nomatch h }

theorem text_pushPoint {n : Numeral} (h : n.hasPoint = false) :
    n.pushPoint.text = n.text ++ ['.'] := by
  have hf : n.fraction = none := by simpa [hasPoint] using h
  simp [text, pointed, pushPoint, hf]

/-- The point is found among the characters. -/
theorem contains_text (n : Numeral) : n.text.contains '.' = n.hasPoint := by
  have hfront : '.' ∉ Decimal.sign n.negative ++ n.whole := by
    intro h
    rcases List.mem_append.1 h with h | h
    · exact absurd (mem_sign h) (by decide)
    · exact absurd (n.areDigits_whole _ h) (by decide)
  unfold text hasPoint
  rcases n.pointed_cases with ⟨hp, -, hf⟩ | ⟨hp, hf⟩
  · rw [hp, hf, List.append_nil]
    simpa using hfront
  · rw [hp, hf]
    simp

theorem hasPoint_typeDigit (n : Numeral) (d : Nat) (hd : d ≤ 9) :
    (n.typeDigit d hd).hasPoint = n.hasPoint := by
  unfold typeDigit
  split
  · next h =>
    rw [← n.contains_text, h]
    rfl
  · exact n.hasPoint_pushDigit d hd

/-- The sign is seen at the first character. -/
theorem head?_text_eq (n : Numeral) : (n.text.head? == some '-') = n.negative := by
  obtain ⟨c, cs, hwhole⟩ := List.exists_cons_of_ne_nil n.whole_ne_nil
  unfold text
  cases n.negative with
  | true => rfl
  | false =>
    have hc : c ≠ '-' := ne_of_isDigit (n.areDigits_whole c (by simp [hwhole])) rfl
    simp [Decimal.sign, hwhole, hc]

/-- A final point is seen at the last character. -/
theorem getLast?_text_eq (n : Numeral) : (n.text.getLast? == some '.') = n.pending := by
  cases hp : n.pending with
  | true =>
    have hf : n.fraction = some [] := by simpa [pending] using hp
    simp [text, pointed, hf]
  | false =>
    obtain ⟨c, hc, hd⟩ := n.getLast?_text hp
    have hdot : c ≠ '.' := ne_of_isDigit hd rfl
    simp [hc, hdot]

/-- Without its final point a numeral has lost its last character. -/
theorem text_settled_of_pending {n : Numeral} (h : n.pending = true) :
    n.settled.text = n.text.dropLast := by
  rw [← n.text_settled, n.getLast?_text_eq, if_pos h]

/-- Without its last digit a numeral is empty, a lone sign, or a numeral. -/
theorem dropLast_text {n : Numeral} (hp : n.pending = false) :
    n.text.dropLast = [] ∨ n.text.dropLast = ['-'] ∨ ∃ m : Numeral, n.text.dropLast = m.text := by
  rcases n.pointed_cases with ⟨hpoint, -⟩ | ⟨hpoint, hf⟩
  · -- The last digit is an integer digit, and it may be the only one.
    have htext : n.text = Decimal.sign n.negative ++ n.whole := by
      rw [text, hpoint, List.append_nil]
    by_cases hw : n.whole.dropLast = []
    · have hsign : n.text.dropLast = Decimal.sign n.negative := by
        rw [htext, List.dropLast_append_of_ne_nil n.whole_ne_nil, hw, List.append_nil]
      rw [hsign]
      cases n.negative with
      | true => exact .inr (.inl rfl)
      | false => exact .inl rfl
    · have hwhole : AreDigits n.whole.dropLast := fun c hc =>
        n.areDigits_whole c ((List.dropLast_sublist _).subset hc)
      refine .inr (.inr ⟨⟨n.negative, n.whole.dropLast, none, hw, hwhole,
        fun _ h => nomatch h⟩, ?_⟩)
      rw [htext, List.dropLast_append_of_ne_nil n.whole_ne_nil]
      simp [text, pointed]
  · -- The last digit is a place; without it the point may be the last character.
    have hne : n.places ≠ [] := by
      intro h0
      rw [pending, hf, h0] at hp
      cases hp
    have hplaces : AreDigits n.places.dropLast := fun c hc =>
      n.areDigits_places c ((List.dropLast_sublist _).subset hc)
    refine .inr (.inr ⟨⟨n.negative, n.whole, some n.places.dropLast, n.whole_ne_nil,
      n.areDigits_whole, hplaces⟩, ?_⟩)
    rw [text, hpoint, List.append_cons, List.dropLast_append_of_ne_nil hne]
    simp [text, pointed]

/-- The integer part of a front part is a front part of the integer part. -/
theorem front_whole {n m : Numeral} (h : m.text <+: n.text) :
    m.negative = n.negative ∧ m.whole <+: n.whole := by
  obtain ⟨rest, hrest⟩ := h
  -- Up to the point, the texts are the signs and the integer digits.
  have hfront : Decimal.sign m.negative ++ m.whole <+: Decimal.sign n.negative ++ n.whole := by
    rw [← m.cut_text.1, ← n.cut_text.1, ← hrest, List.takeWhile_append]
    split
    · exact (List.takeWhile_prefix _).trans (List.prefix_append _ _)
    · exact List.prefix_rfl
  obtain ⟨c, cs, hm⟩ := List.exists_cons_of_ne_nil m.whole_ne_nil
  obtain ⟨d, ds, hn⟩ := List.exists_cons_of_ne_nil n.whole_ne_nil
  cases hsign : m.negative <;> cases hsign' : n.negative <;> rw [hsign, hsign'] at hfront
  · exact ⟨rfl, hfront⟩
  · rw [hm] at hfront
    exact absurd (List.cons_prefix_cons.1 hfront).1
      (ne_of_isDigit (m.areDigits_whole c (by simp [hm])) rfl)
  · rw [hn] at hfront
    exact absurd (List.cons_prefix_cons.1 hfront).1.symm
      (ne_of_isDigit (n.areDigits_whole d (by simp [hn])) rfl)
  · exact ⟨rfl, (List.cons_prefix_cons.1 hfront).2⟩

end Numeral

/-- The plain text of a number is read back as this number in normal form. -/
theorem Decimal.readTyped_plain (x : Decimal) : readTyped x.plain = some x.normalized := by
  rw [← Numeral.text_ofDecimal, Numeral.readTyped_text, Numeral.normalized_value_ofDecimal]

/-- The plain text of a number is read as a number that has the same normal form. -/
theorem Decimal.read_plain (x : Decimal) :
    ∃ y, read x.plain = some y ∧ y.normalized = x.normalized := by
  refine ⟨(Numeral.ofDecimal x).value, ?_, Numeral.normalized_value_ofDecimal x⟩
  rw [← Numeral.text_ofDecimal, Numeral.read_text]

end PocketCalc
