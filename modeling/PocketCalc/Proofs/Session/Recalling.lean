/-
  PocketCalc.Proofs.Session.Recalling
  ───────────────────────────────────
  **RECALLING GOES TO AND FRO BETWEEN THE LAST TWO RECORDS.**

  With a formula on the screen, recalling takes the record before the last one.  It has been
  evaluated once, so it is again, and is recorded behind the others: what was the last record
  is now the one before it.  So one press swaps the two records, and two presses bring back
  what was there.

      value_recallLast_of_two   one press, as an equation of whole sessions
      recallLast_alternates     any number of presses, if the two records are sound
      recall_alternates         and after any actions they are
-/
import PocketCalc.Proofs.Session.Interference
import PocketCalc.Proofs.Session.Records

namespace PocketCalc

/-- So many records, alternately the one and the other. -/
def History.alternating (p q : Record) : Nat → History
  | 0 => []
  | k + 1 => p :: alternating q p k

/-- Of two records or more, two are the last ones. -/
theorem History.exists_lastTwo {h : History} (hn : 2 ≤ h.length) :
    ∃ front p q, h = front ++ [p, q] := by
  obtain ⟨front, q, rfl⟩ := (List.eq_nil_or_concat h).resolve_left
    (List.ne_nil_of_length_pos (by omega))
  rw [List.length_concat] at hn
  obtain ⟨front, p, rfl⟩ := (List.eq_nil_or_concat front).resolve_left
    (List.ne_nil_of_length_pos (by omega))
  exact ⟨front, p, q, by simp⟩

namespace Session

variable {s : Session MemoryStore} {front : History} {p q : Record}

/-! ## §1. One press. -/

/-- With a formula on the screen, the record before the last one is recalled. -/
theorem recallable_of_two {e : Editor} (hformula : e.formula ≠ []) :
    e.recallable (front ++ [p, q]) = some p := by
  unfold Editor.recallable
  rw [if_neg (by simpa using hformula), List.append_cons, List.dropLast_concat,
    List.getLast?_concat]

/-- **One press** loads the record before the last one, shows its result and records it
again; nothing else changes. -/
theorem value_recallLast_of_two (hformula : s.editor.formula ≠ [])
    (hhistory : s.history = front ++ [p, q]) (hp : evaluate p.formula = .ok p.result) :
    s.recallLast.value =
      { s with
        store := ⟨s.history ++ [p]⟩
        editor := (s.editor.load p.formula).keep (some p.result)
        result := s.settings.showResult (some p.result) } := by
  have hloaded : (s.edit fun e => e.load p.formula).editor.formula = p.formula := rfl
  rw [value_recallLast, hhistory, recallable_of_two hformula]
  dsimp only
  rw [value_calculate, hloaded, hp]
  dsimp only
  rw [← hhistory]
  rfl

/-! ## §2. Any number of presses. -/

/-- **Any number of presses** goes to and fro between the two records, and each of them is
recorded. -/
theorem recallLast_alternates (hformula : s.editor.formula ≠ [])
    (hhistory : s.history = front ++ [p, q]) (hp : evaluate p.formula = .ok p.result)
    (hq : evaluate q.formula = .ok q.result) (k : Nat) :
    let t := (s.applyAll (List.replicate (k + 1) .recallLast)).value
    let r := if (k + 1) % 2 = 1 then p else q
    t.editor.formula = r.formula ∧ t.editor.lastResult = some r.result
      ∧ t.result = s.settings.showResult (some r.result) ∧ t.settings = s.settings
      ∧ t.history = s.history ++ History.alternating p q (k + 1) := by
  induction k generalizing s front p q with
  | zero =>
    intro t r
    have ht : t = s.recallLast.value := rfl
    rw [ht, value_recallLast_of_two hformula hhistory hp]
    exact ⟨rfl, rfl, rfl, rfl, rfl⟩
  | succ k ih =>
    intro t r
    -- Behind the first press the two records have changed places.
    have hone := value_recallLast_of_two hformula hhistory hp
    have hnext : s.recallLast.value.history = (front ++ [p]) ++ [q, p] := by
      rw [hone]
      show s.history ++ [p] = _
      rw [hhistory]
      simp
    have hloaded : s.recallLast.value.editor.formula ≠ [] := by
      rw [hone]
      exact ne_nil_of_evaluate hp
    obtain ⟨hf, hlast, hresult, hsettings, hrecords⟩ := ih hloaded hnext hq hp
    have hr : r = if (k + 1) % 2 = 1 then q else p := by
      show (if (k + 1 + 1) % 2 = 1 then p else q) = _
      by_cases hk : (k + 1) % 2 = 1
      · rw [if_neg (by omega), if_pos hk]
      · rw [if_pos (by omega), if_neg hk]
    have ht : t = (s.recallLast.value.applyAll (List.replicate (k + 1) .recallLast)).value := rfl
    have hsame : s.recallLast.value.settings = s.settings := by rw [hone]
    rw [ht, hr]
    refine ⟨hf, hlast, hsame ▸ hresult, hsettings.trans hsame, ?_⟩
    rw [hrecords, hone]
    show s.history ++ [p] ++ _ = s.history ++ p :: _
    rw [← List.append_cons]

/-- The history after a run is that of its actions alone, and all its records are sound. -/
theorem evaluate_of_mem_run (settings : Settings) (steps : List Step) :
    ∀ r ∈ ((fresh settings).run steps).value.history, evaluate r.formula = .ok r.result := by
  intro r hr
  have hagrees : ((fresh settings).run steps).value.Agrees (after settings (actionsOf steps)) :=
    agrees_run ⟨rfl, rfl⟩ steps
  have hsame : ((fresh settings).run steps).value.history
      = (after settings (actionsOf steps)).history := congrArg MemoryStore.history hagrees.store
  exact (isSound_after settings (actionsOf steps)).value r (hsame ▸ hr)

end Session

/-- **RECALLING GOES TO AND FRO BETWEEN THE LAST TWO RECORDS.**  Whatever the actions and
changes of the settings were, with a formula on the screen and two records or more, an odd
number of presses in a row ends with the record before the last one, an even number with
the last one: with its formula, and with its result as the present settings show it.  And
each press is recorded, so that the two records follow the old ones by turns. -/
theorem recall_alternates (settings : Settings) (steps : List Session.Step) :
    let s := (Session.run (Session.fresh settings) steps).value
    let n := s.history.length
    s.editor.formula ≠ [] → 2 ≤ n →
      ∃ p q, s.history[n - 2]? = some p ∧ s.history[n - 1]? = some q
        ∧ ∀ k, 1 ≤ k →
          let t := (s.applyAll (List.replicate k .recallLast)).value
          let r := if k % 2 = 1 then p else q
          t.editor.formula = r.formula ∧ t.editor.lastResult = some r.result
            ∧ t.result = s.settings.showResult (some r.result) ∧ t.settings = s.settings
            ∧ t.history = s.history ++ History.alternating p q k := by
  intro s n hformula hn
  have hsound := Session.evaluate_of_mem_run settings steps
  obtain ⟨front, p, q, hhistory⟩ := History.exists_lastTwo hn
  have hlength : n = front.length + 2 := by
    show s.history.length = _
    rw [hhistory]
    simp
  refine ⟨p, q, ?_, ?_, fun k hk => ?_⟩
  · rw [hlength, hhistory]
    simp
  · rw [hlength, hhistory, List.getElem?_append_right (by omega)]
    simp
  · have hp := hsound p (hhistory ▸ by simp)
    have hq := hsound q (hhistory ▸ by simp)
    obtain ⟨k, rfl⟩ := Nat.exists_eq_add_of_le' hk
    exact Session.recallLast_alternates hformula hhistory hp hq k

/-- An eighth, then six, and a decimal comma: the third press in a row recalls the eighth,
and it has been recorded three times by then. -/
theorem recall_alternates_third :
    let steps : List Session.Step :=
      [.act (.digit 1), .act (.operator .divide), .act (.digit 8), .act .equals,
        .act (.digit 2), .act (.operator .times), .act (.digit 3), .act .equals,
        .set (Settings.withDecimalComma {} true)]
    let s := (Session.run (Session.fresh {}) steps).value
    let t := (s.applyAll (List.replicate 3 .recallLast)).value
    let p : Record := ⟨[.number ⟨1, 0⟩, .operator .divide, .number ⟨8, 0⟩], ⟨125, 3⟩⟩
    let q : Record := ⟨[.number ⟨2, 0⟩, .operator .times, .number ⟨3, 0⟩], ⟨6, 0⟩⟩
    s.editor.formula ≠ [] ∧ 2 ≤ s.history.length ∧ 1 ≤ 3
      ∧ t.editor.formula = p.formula ∧ t.editor.lastResult = some ⟨125, 3⟩
      ∧ t.result = "0,125" ∧ t.history = [p, q, p, q, p] := by
  intro steps
  have halternates := recall_alternates {} steps
  have hformula : (Session.run (Session.fresh {}) steps).value.editor.formula ≠ [] := by
    decide +kernel
  have hhistory : (Session.run (Session.fresh {}) steps).value.history =
      [⟨[.number ⟨1, 0⟩, .operator .divide, .number ⟨8, 0⟩], ⟨125, 3⟩⟩,
        ⟨[.number ⟨2, 0⟩, .operator .times, .number ⟨3, 0⟩], ⟨6, 0⟩⟩] := by decide +kernel
  have hshown : (Session.run (Session.fresh {}) steps).value.settings.showResult
      (some ⟨125, 3⟩) = "0,125" := by decide +kernel
  -- These facts are all that is needed of the session.
  generalize (Session.run (Session.fresh {}) steps).value = s
    at halternates hformula hhistory hshown ⊢
  intro s' t p q
  have hn : 2 ≤ s.history.length := by
    rw [hhistory]
    decide
  obtain ⟨first, second, hfirst, hsecond, hpresses⟩ := halternates hformula hn
  rw [hhistory] at hfirst hsecond
  have hp : first = p := (Option.some.inj hfirst).symm
  have hq : second = q := (Option.some.inj hsecond).symm
  obtain ⟨hf, hlast, hresult, -, hrecords⟩ := hpresses 3 (by decide)
  rw [hp, hq, hhistory] at hrecords
  rw [hp] at hf hlast hresult
  exact ⟨hformula, hn, by decide, hf, hlast, hresult.trans hshown, hrecords⟩

end PocketCalc
