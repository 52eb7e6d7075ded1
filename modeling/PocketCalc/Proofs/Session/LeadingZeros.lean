/-
  PocketCalc.Proofs.Session.LeadingZeros
  ──────────────────────────────────────
  **WHERE A LEADING ZERO COMES FROM.**

  A digit takes the place of a lone zero, so that no number is typed with a zero in front of
  its integer digits.  But behind a sign the zero is not alone: a negative number that comes
  back from a result can be erased down to `-0`, and a digit typed there stays behind the
  zero.  This is the only way to a leading zero: nothing else that a key makes of the number
  in progress puts one in front.

      becomes_apply       what an action makes of the number in progress
      Becomes.origin      so a leading zero is typed behind `-0`, or it was there before
      goesBack_run        and in any run it goes back to a digit behind `-0`
      leading_zero_iff    the law for any actions
      leading_zero_typed  and such a run
-/
import PocketCalc.Proofs.Editor.Buffer
import PocketCalc.Proofs.Session.Undoing

namespace PocketCalc

/-! ## §1. Leading zeros of a numeral. -/

namespace Numeral

variable {n m : Numeral} {d : Nat}

/-- A front part of a numeral has no leading zero unless the numeral has. -/
theorem IsTrim.of_front (hn : n.IsTrim) (h : m.text <+: n.text) : m.IsTrim := by
  have hwhole := (front_whole h).2
  obtain ⟨c, cs, hm⟩ := List.exists_cons_of_ne_nil m.whole_ne_nil
  unfold IsTrim
  rw [hm] at hwhole ⊢
  rcases hn with hzero | hhead
  · rw [hzero] at hwhole
    obtain ⟨hc, hcs⟩ := List.cons_prefix_cons.1 hwhole
    rw [hc, List.prefix_nil.1 hcs]
    exact .inl rfl
  · obtain ⟨rest, hrest⟩ := hwhole
    rw [← hrest] at hhead
    exact .inr hhead

theorem isTrim_ofDigit (hd : d ≤ 9) : (ofDigit d hd).IsTrim := by
  by_cases hzero : d = 0
  · subst hzero
    exact .inl rfl
  · refine .inr fun hhead => hzero ?_
    exact Nat.digitChar_eq_zero.1 (Option.some.inj hhead)

/-- One more digit makes no leading zero, except behind `-0`. -/
theorem IsTrim.typeDigit (hn : n.IsTrim) (hd : d ≤ 9) (hne : n.text ≠ ['-', '0']) :
    (n.typeDigit d hd).IsTrim := by
  unfold Numeral.typeDigit
  split
  · exact isTrim_ofDigit hd
  · next hzero =>
    cases hpoint : n.hasPoint with
    | true =>
      -- The digit is a decimal place.
      have hwhole : (n.pushDigit d hd).whole = n.whole := if_pos hpoint
      unfold IsTrim
      rw [hwhole]
      exact hn
    | false =>
      have hwhole : (n.pushDigit d hd).whole = n.whole ++ [Nat.digitChar d] :=
        if_neg (by rw [hpoint]; exact Bool.false_ne_true)
      have htext : n.text = Decimal.sign n.negative ++ n.whole := by
        rcases n.pointed_cases with ⟨hp, -⟩ | ⟨-, hf⟩
        · rw [text, hp, List.append_nil]
        · rw [hasPoint, hf] at hpoint
          cases hpoint
      right
      rw [hwhole, List.head?_append_of_ne_nil _ n.whole_ne_nil]
      refine hn.resolve_left fun hlone => ?_
      rw [hlone] at htext
      cases hnegative : n.negative <;> rw [hnegative] at htext
      · exact hzero htext
      · exact hne htext

/-- A sign, a zero and a digit are a numeral. -/
theorem exists_behindZero (hd : d ≤ 9) : ∃ front : Numeral,
    front.text = ['-', '0', Nat.digitChar d] ∧ front.negative = true
      ∧ front.whole = ['0', Nat.digitChar d] :=
  ⟨⟨true, ['0', Nat.digitChar d], none, List.cons_ne_nil _ _,
    List.forall_mem_cons.2 ⟨rfl, (ofDigit d hd).areDigits_whole⟩, by decide⟩, rfl, rfl, rfl⟩

/-- What begins with a sign, a zero and a digit has a leading zero. -/
theorem not_isTrim_of_front (hd : d ≤ 9) (h : ['-', '0', Nat.digitChar d] <+: n.text) :
    n.negative = true ∧ ¬ n.IsTrim := by
  obtain ⟨front, htext, hsign, hfront⟩ := exists_behindZero hd
  rw [← htext] at h
  obtain ⟨hnegative, rest, hrest⟩ := front_whole h
  refine ⟨hnegative.symm.trans hsign, ?_⟩
  unfold IsTrim
  rw [← hrest, hfront]
  rintro (hzero | hhead)
  · cases hzero
  · exact hhead rfl

/-- A sign, a zero and a digit stand in front of every front part that has the leading
zero. -/
theorem front_of_not_isTrim (hd : d ≤ 9) (hn : ['-', '0', Nat.digitChar d] <+: n.text)
    (h : m.text <+: n.text) (hm : ¬ m.IsTrim) : ['-', '0', Nat.digitChar d] <+: m.text := by
  rcases List.prefix_or_prefix_of_prefix hn h with hlong | hshort
  · exact hlong
  · -- It is as long, for the zero alone would be no leading one.
    obtain ⟨front, htext, hsign, hfront⟩ := exists_behindZero hd
    rw [← htext] at hshort
    obtain ⟨hnegative, hwhole⟩ := front_whole hshort
    obtain ⟨c, cs, hcons⟩ := List.exists_cons_of_ne_nil m.whole_ne_nil
    rw [hcons, hfront] at hwhole
    obtain ⟨rfl, hcs⟩ := List.cons_prefix_cons.1 hwhole
    rcases List.prefix_cons_iff.1 hcs with rfl | ⟨ds, rfl, hds⟩
    · exact absurd (.inl hcons) hm
    · rw [List.prefix_nil.1 hds] at hcons
      unfold text
      rw [hcons, hnegative, hsign]
      exact List.prefix_append _ _

end Numeral

/-! ## §2. What an action makes of the number in progress. -/

/-- **What an action makes of the number in progress**: it begins anew, without a leading
zero; or it is left alone or loses characters at its end; or a digit or a point is typed
behind it. -/
inductive Becomes (a : Action) : List Char → Numeral → Prop
  | begun {t : List Char} {m : Numeral} (h : m.IsTrim) : Becomes a t m
  | front {n m : Numeral} (h : m.text <+: n.text) : Becomes a n.text m
  | digit {n : Numeral} {d : Nat} (hd : d ≤ 9) (ha : a = .digit d) :
      Becomes a n.text (n.typeDigit d hd)
  | point {n : Numeral} (h : n.hasPoint = false) : Becomes a n.text n.pushPoint

/-- **The origin of a leading zero**: a digit is typed behind `-0`, or the zero was there
before, and what stands in front is kept. -/
theorem Becomes.origin {a : Action} {t : List Char} {m : Numeral} (h : Becomes a t m)
    (hm : ¬ m.IsTrim) :
    (∃ d, d ≤ 9 ∧ a = .digit d ∧ t = ['-', '0'] ∧ m.text = ['-', '0', Nat.digitChar d])
      ∨ ∃ n : Numeral, t = n.text ∧ ¬ n.IsTrim
        ∧ ∀ d, d ≤ 9 → ['-', '0', Nat.digitChar d] <+: n.text →
          ['-', '0', Nat.digitChar d] <+: m.text := by
  cases h with
  | begun htrim => exact absurd htrim hm
  | @front n _ hfront =>
    exact .inr ⟨n, rfl, fun htrim => hm (htrim.of_front hfront),
      fun d hd hn => n.front_of_not_isTrim hd hn hfront hm⟩
  | @digit n d hd ha =>
    by_cases hzero : n.text = ['-', '0']
    · refine .inl ⟨d, hd, ha, hzero, ?_⟩
      rw [n.text_typeDigit, hzero]
      rfl
    · refine .inr ⟨n, rfl, fun htrim => hm (htrim.typeDigit hd hzero), fun d' _ hn => ?_⟩
      -- A sign stands in front, so the zero is not alone.
      have hlong : n.text ≠ ['0'] := by
        intro hlone
        rw [hlone] at hn
        exact absurd (List.cons_prefix_cons.1 hn).1 (by decide)
      rw [n.text_typeDigit, if_neg hlong]
      exact hn.trans (List.prefix_append _ _)
  | @point n hpoint =>
    refine .inr ⟨n, rfl, hm, fun d _ hn => ?_⟩
    rw [n.text_pushPoint hpoint]
    exact hn.trans (List.prefix_append _ _)

namespace Editor

variable {e : Editor} {a : Action} {m : Numeral}

theorem becomes_same (h : e.typed = m.text) : Becomes a e.typed m := by
  rw [h]
  exact .front List.prefix_rfl

/-- A number that is closed is no more in progress. -/
theorem becomes_closed {t : List Char} (hclosed : e.typed = []) (h : e.typed = m.text) :
    Becomes a t m :=
  absurd (h.symm.trans hclosed) m.text_ne_nil

/-- Starting afresh loses no number in progress, for an evaluated formula has none. -/
theorem typed_restartIfEvaluated (h : e.Invariant) : e.restartIfEvaluated.typed = e.typed := by
  cases hevaluated : e.evaluated with
  | false => rw [restartIfEvaluated_of hevaluated]
  | true =>
    rw [(isIdle_of_evaluated h hevaluated).typed]
    unfold restartIfEvaluated
    rw [hevaluated]
    rfl

/-- A digit is typed behind the number in progress, or it begins one. -/
theorem becomes_typeDigit (hinv : e.Invariant) {d : Nat} (h : (e.typeDigit d).typed = m.text) :
    Becomes (.digit d) e.typed m := by
  by_cases hd : 9 < d
  · rw [typeDigit_of_lt e hd] at h
    exact becomes_same h
  · have hd : d ≤ 9 := by omega
    obtain ⟨hrestart, hevaluated⟩ := invariant_restartIfEvaluated hinv
    rw [← typeDigit_restartIfEvaluated hinv hd] at h
    rw [← typed_restartIfEvaluated hinv]
    rcases hrestart.number with ⟨base, n, hn⟩ | ⟨hidle, -⟩
    · rw [hn.typeDigit (hn.appended hrestart) hd] at h
      rw [hn.typed, ← Numeral.text_injective h]
      exact .digit hd rfl
    · rw [hidle.typeDigit hevaluated hd] at h
      rw [← Numeral.text_injective h]
      exact .begun (Numeral.isTrim_ofDigit hd)

/-- A point is typed behind the number in progress, or it begins one behind a zero. -/
theorem becomes_typePoint (hinv : e.Invariant) (h : e.typePoint.typed = m.text) :
    Becomes a e.typed m := by
  obtain ⟨hrestart, hevaluated⟩ := invariant_restartIfEvaluated hinv
  rw [← typePoint_restartIfEvaluated hinv] at h
  rw [← typed_restartIfEvaluated hinv]
  rcases hrestart.number with ⟨base, n, hn⟩ | ⟨hidle, -⟩
  · rw [hn.typePoint] at h
    split at h
    · exact becomes_same h
    · next hpoint =>
      rw [hn.typed, ← Numeral.text_injective h]
      exact .point (by simpa using hpoint)
  · rw [hidle.typePoint hevaluated] at h
    rw [← Numeral.text_injective h]
    exact .begun (.inl rfl)

theorem typed_placeOperator (e : Editor) (op : Operator) :
    (e.placeOperator op).typed = e.typed := by
  unfold placeOperator
  dsimp only
  split
  · split <;> rfl
  · split <;> rfl
  · split <;> rfl
  · split <;> rfl
  · rfl

theorem typed_multiplyBehindValue (e : Editor) : e.multiplyBehindValue.typed = e.typed := by
  unfold multiplyBehindValue
  split <;> rfl

/-- An operator closes the number, or it is ignored. -/
theorem becomes_typeOperator (op : Operator) (h : (e.typeOperator op).typed = m.text) :
    Becomes a e.typed m := by
  unfold typeOperator typeFactorial at h
  split at h
  · split at h
    · exact becomes_same h
    · exact becomes_closed (e := e.closeNumber) rfl h
  · rw [typed_placeOperator] at h
    exact becomes_closed (e := e.closeNumber) rfl h

/-- A right bracket closes the number, or it is ignored. -/
theorem becomes_typeRightBracket (h : e.typeRightBracket.typed = m.text) :
    Becomes a e.typed m := by
  unfold typeRightBracket at h
  split at h
  · exact becomes_same h
  · exact becomes_closed (e := e.closeNumber) rfl h

theorem typed_resume (e : Editor) (text : List Char) : (e.resume text).typed = text := by
  unfold resume pushTyped
  dsimp only
  split <;> split <;> rfl

/-- The number that comes to stand at the end is typed on from its plain text. -/
theorem becomes_resync {t : List Char} (hclosed : e.typed = []) (h : e.resync.typed = m.text) :
    Becomes a t m := by
  unfold resync at h
  split at h
  · next v _ =>
    rw [typed_resume, ← Numeral.text_ofDecimal] at h
    rw [← Numeral.text_injective h]
    exact .begun (Numeral.isCanonical_ofDecimal v).trim
  · exact becomes_closed hclosed h
  · exact becomes_closed hclosed h
  · exact becomes_closed hclosed h
  · exact becomes_closed hclosed h

theorem typed_dropImpliedTimes (e : Editor) : e.dropImpliedTimes.typed = e.typed := by
  unfold dropImpliedTimes
  dsimp only
  split <;> rfl

theorem typed_removeToken (e : Editor) : e.removeToken.typed = e.typed := by
  unfold removeToken
  split <;> rfl

/-- The last number loses a character: the one in progress, or one that has its plain
text. -/
theorem becomes_shortened (hinv : e.Invariant) {v : Decimal} (h : e.shortened v = m.text) :
    Becomes a e.typed m := by
  unfold shortened at h
  rcases hinv.number with ⟨base, n, hn⟩ | ⟨hidle, -⟩
  · rw [if_pos (by simp [hn.typing, hn.typed, n.text_ne_nil]), hn.typed] at h
    rw [hn.typed]
    exact .front (h ▸ List.dropLast_prefix _)
  · rw [if_neg (by simp [hidle.typing]), ← Numeral.text_ofDecimal] at h
    exact .begun ((Numeral.isCanonical_ofDecimal v).trim.of_front (h ▸ List.dropLast_prefix _))

/-- Erasing takes a character off the number, or it goes back to the number before. -/
theorem becomes_erase (hinv : e.Invariant) (h : e.erase.typed = m.text) : Becomes a e.typed m := by
  by_cases hpending : e.pointPending = true
  · obtain ⟨base, n, hn, hpoint⟩ := exists_isTyping_of_pending hinv hpending
    rw [hn.erase_of_pending (hn.appended hinv) hpoint] at h
    rw [hn.typed, ← Numeral.text_injective h]
    exact .front (Numeral.text_settled_of_pending hpoint ▸ List.dropLast_prefix _)
  · rw [erase_eq (by simpa using hpending)] at h
    split at h
    · next v _ =>
      split at h
      · exact becomes_resync (typed_dropImpliedTimes _) h
      · rw [typed_resume] at h
        exact becomes_shortened hinv h
    · exact becomes_resync ((typed_dropImpliedTimes _).trans (typed_removeToken _)) h

/-- Equals closes the number. -/
theorem typed_complete (hinv : e.Invariant) : e.complete.typed = [] := by
  unfold complete
  cases hevaluated : e.evaluated with
  | true => exact (isIdle_of_evaluated hinv hevaluated).typed
  | false => rfl

end Editor

namespace Session

open Editor

variable {s : Session MemoryStore} {m : Numeral}

/-- A calculation leaves the number in progress alone. -/
theorem typed_calculate (s : Session MemoryStore) :
    s.calculate.value.editor.typed = s.editor.typed := by
  rw [value_calculate]
  split <;> rfl

/-- **Every action makes one of these of the number in progress.** -/
theorem becomes_apply (hinv : s.Invariant) (a : Action)
    (h : (s.apply a).value.editor.typed = m.text) : Becomes a s.editor.typed m := by
  cases a with
  | digit d =>
    have hsame := s.editor_clearResultIfEvaluated
    have h : (s.clearResultIfEvaluated.editor.typeDigit d).typed = m.text := h
    rw [hsame] at h
    exact becomes_typeDigit hinv.editor h
  | point =>
    have hsame := s.editor_clearResultIfEvaluated
    have h : s.clearResultIfEvaluated.editor.typePoint.typed = m.text := h
    rw [hsame] at h
    exact becomes_typePoint hinv.editor h
  | operator op => exact becomes_typeOperator op h
  | constant c => exact becomes_closed (typed_multiplyBehindValue s.editor.closeNumber) h
  | leftBracket => exact becomes_closed (typed_multiplyBehindValue s.editor.closeNumber) h
  | rightBracket => exact becomes_typeRightBracket h
  | erase => exact becomes_erase hinv.editor h
  | clear => exact becomes_closed (e := {}) rfl h
  | equals =>
    rw [show (s.apply .equals).value = (s.edit complete).calculate.value from rfl,
      typed_calculate] at h
    exact becomes_closed (typed_complete hinv.editor) h
  | recallLast =>
    rw [show (s.apply .recallLast).value = s.recallLast.value from rfl, value_recallLast] at h
    split at h
    · exact becomes_same h
    · rw [typed_calculate] at h
      exact becomes_closed (e := {}) rfl h

/-! ## §3. Runs. -/

/-- The number in progress after some steps. -/
def typedAfter (start : Session MemoryStore) (steps : List Step) : List Char :=
  (start.run steps).value.editor.typed

/-- A digit was typed behind `-0`, and all three characters have stood in front of the
number in progress ever since. -/
structure BehindZero (start : Session MemoryStore) (earlier : List Step) (d : Nat)
    (later : List Step) : Prop where
  digit : d ≤ 9
  before : start.typedAfter earlier = ['-', '0']
  since : ∀ front, front <+: later →
    ['-', '0', Nat.digitChar d] <+: start.typedAfter (earlier ++ .act (.digit d) :: front)

/-- The number in progress goes back to a digit that was typed behind `-0`. -/
def GoesBack (start : Session MemoryStore) (steps : List Step) : Prop :=
  ∃ earlier d later, steps = earlier ++ .act (.digit d) :: later
    ∧ start.BehindZero earlier d later

variable {start : Session MemoryStore} {steps : List Step}

/-- Such a number has a sign and a leading zero. -/
theorem GoesBack.not_isTrim (h : start.GoesBack steps) (htyped : start.typedAfter steps = m.text) :
    m.negative = true ∧ ¬ m.IsTrim := by
  obtain ⟨earlier, d, later, rfl, hbehind⟩ := h
  exact m.not_isTrim_of_front hbehind.digit (htyped ▸ hbehind.since later List.prefix_rfl)

/-- The digit is typed. -/
theorem goesBack_digit {d : Nat} (hd : d ≤ 9) (hbefore : start.typedAfter steps = ['-', '0'])
    (hafter : start.typedAfter (steps ++ [.act (.digit d)]) = ['-', '0', Nat.digitChar d]) :
    start.GoesBack (steps ++ [.act (.digit d)]) := by
  refine ⟨steps, d, [], rfl, hd, hbefore, fun front hfront => ?_⟩
  obtain rfl := List.prefix_nil.1 hfront
  exact hafter ▸ List.prefix_rfl

/-- One more step keeps what stands in front. -/
theorem GoesBack.concat (h : start.GoesBack steps) {x : Step}
    (hx : ∀ d, d ≤ 9 → ['-', '0', Nat.digitChar d] <+: start.typedAfter steps →
      ['-', '0', Nat.digitChar d] <+: start.typedAfter (steps ++ [x])) :
    start.GoesBack (steps ++ [x]) := by
  obtain ⟨earlier, d, later, rfl, hbehind⟩ := h
  refine ⟨earlier, d, later ++ [x], by simp, hbehind.digit, hbehind.before, fun front hfront => ?_⟩
  rcases List.prefix_concat_iff.1 hfront with rfl | hfront
  · have hkept := hx d hbehind.digit (hbehind.since later List.prefix_rfl)
    rwa [List.append_assoc] at hkept
  · exact hbehind.since front hfront

/-- A change of the settings leaves the number in progress alone. -/
theorem typed_withSettings (s : Session MemoryStore) (settings : Settings) :
    (s.withSettings settings).editor.typed = s.editor.typed := by
  unfold withSettings
  split <;> rfl

/-- **A leading zero goes back to a digit that was typed behind `-0`.** -/
theorem goesBack_run (hinv : start.Invariant) (hstart : start.editor.typed = [])
    (htyped : start.typedAfter steps = m.text) (hm : ¬ m.IsTrim) : start.GoesBack steps := by
  induction steps using List.reverseRecOn generalizing m with
  | nil => exact absurd (htyped.symm.trans hstart) m.text_ne_nil
  | append_singleton steps x ih =>
    have hstep : ((start.run steps).value.step x).value.editor.typed = m.text := by
      rw [← run_concat]
      exact htyped
    cases x with
    | set settings =>
      have hsame : start.typedAfter steps = m.text :=
        (typed_withSettings _ settings).symm.trans hstep
      exact (ih hsame hm).concat fun d _ h => by rwa [htyped, ← hsame]
    | act a =>
      rcases (becomes_apply (invariant_run hinv steps) a hstep).origin hm with
        ⟨d, hd, rfl, hbefore, hafter⟩ | ⟨n, hbefore, hn, hfront⟩
      · exact goesBack_digit hd hbefore (htyped.trans hafter)
      · refine (ih hbefore hn).concat fun d hd h => ?_
        rw [htyped]
        exact hfront d hd (hbefore ▸ h)

end Session

/-- **WHERE A LEADING ZERO COMES FROM.**  Whatever the actions and changes of the settings
were, a number in progress is a numeral, shown with each of its digits at the end of the
formula.  Its integer part is a lone zero or does not begin with a zero, unless it is
negative and goes back to a digit that was typed behind `-0`. -/
theorem leading_zero_iff (settings : Settings) (steps : List Session.Step) :
    let start := Session.fresh settings
    let s := (start.run steps).value
    s.editor.typing = true →
      ∃ n : Numeral, s.editor.typed = n.text
        ∧ (∃ front, s.shownFormula = String.ofList (front ++ (Decimal.sign n.negative
            ++ group s.settings.groupSeparator n.whole
            ++ if n.hasPoint then s.settings.decimalSeparator :: n.places else [])))
        ∧ (n.negative = false → n.IsTrim)
        ∧ (¬ n.IsTrim ↔ start.GoesBack steps) := by
  intro start s htyping
  have hstart := Session.invariant_fresh settings
  have hinv := Session.invariant_run hstart steps
  rcases hinv.editor.number with ⟨base, n, hn⟩ | ⟨hidle, -⟩
  · have hback : ¬ n.IsTrim → start.GoesBack steps := Session.goesBack_run hstart rfl hn.typed
    refine ⟨n, hn.typed, ⟨s.settings.formulaChars base, ?_⟩, fun hnegative => ?_, hback,
      fun h => (h.not_isTrim hn.typed).2⟩
    · rw [← Settings.typedChars_text]
      exact hn.shown s.settings
    · by_contra hzero
      exact Bool.false_ne_true (hnegative.symm.trans ((hback hzero).not_isTrim hn.typed).1)
  · exact absurd (hidle.typing.symm.trans htyping) Bool.false_ne_true

/-- The result `0.5` is erased down to its zero, and the next digit takes the place of it. -/
theorem leading_zero_replaced :
    let steps : List Session.Step :=
      [.act .point, .act (.digit 5), .act .equals, .act (.operator .plus), .act .erase,
        .act .erase, .act .erase, .act (.digit 5)]
    let start := Session.fresh {}
    let s := (start.run steps).value
    start.typedAfter steps.dropLast = ['0'] ∧ s.editor.typing = true ∧ s.editor.typed = ['5']
      ∧ ∃ n : Numeral, s.editor.typed = n.text ∧ n.IsTrim ∧ ¬ start.GoesBack steps := by
  intro steps start s
  have htyping : s.editor.typing = true := by decide +kernel
  have htyped : s.editor.typed = ['5'] := by decide +kernel
  obtain ⟨n, hn, -, hpositive, horigin⟩ := leading_zero_iff {} steps htyping
  have hnegative : n.negative = false := by
    rw [← n.head?_text_eq, ← hn]
    show (s.editor.typed.head? == some '-') = false
    rw [htyped]
    rfl
  have htrim := hpositive hnegative
  exact ⟨by decide +kernel, htyping, htyped, n, hn, htrim, fun h => horigin.2 h htrim⟩

/-- **A leading zero can be typed.**  The result `-0.5` is erased down to `-0`, and the next
digit stays behind the zero. -/
theorem leading_zero_typed :
    let steps : List Session.Step :=
      [.act (.operator .minus), .act .point, .act (.digit 5), .act .equals,
        .act (.operator .plus), .act .erase, .act .erase, .act .erase, .act (.digit 5)]
    let s := (Session.run (Session.fresh {}) steps).value
    s.editor.typing = true ∧ s.editor.typed = ['-', '0', '5'] ∧ s.shownFormula = "-05"
      ∧ ∀ n : Numeral, s.editor.typed = n.text → ¬ n.IsTrim := by
  intro steps s
  have htyped : s.editor.typed = ['-', '0', '5'] := by decide +kernel
  refine ⟨by decide +kernel, htyped, by decide +kernel, fun n hn => ?_⟩
  have hfront : ['-', '0', Nat.digitChar 5] <+: n.text := by
    rw [← hn, htyped]
    exact List.prefix_rfl
  exact (n.not_isTrim_of_front (by decide) hfront).2

end PocketCalc
