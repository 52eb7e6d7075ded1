/-
  PocketCalc.Proofs.Session.Stores
  ────────────────────────────────
  **A FILE SERVES AS WELL AS MEMORY.**

  A session over a file reads, decodes, encodes and replaces the whole history for each
  record, and feeds what it has read back to the editor.  One over memory does nothing
  of the kind.  They stay alike as long as the file can be replaced: a number may come
  back from the file as another pair of a mantissa and a scale, but not in a formula, for
  the numbers that are typed are in normal form.

      alike_step             one step keeps two sessions alike
      file_refines_memory    they are alike after any steps
-/
import PocketCalc.Proofs.History.Storing
import PocketCalc.Proofs.Session.Outcome
import PocketCalc.Proofs.Session.Records

namespace PocketCalc

/-- What a history says: its formulas token by token, and its results as numbers. -/
def History.content (h : History) : List (Formula × ℚ) :=
  h.map fun r => (r.formula, r.result.toRat)

/-- What is recalled is told by the content of the history. -/
theorem recallable_congr {h' h : History} (hcontent : h'.content = h.content) (e : Editor) :
    (e.recallable h').map Record.formula = (e.recallable h).map Record.formula := by
  have hformulas : h'.map Record.formula = h.map Record.formula := by
    have hfst := congrArg (List.map Prod.fst) hcontent
    unfold History.content at hfst
    rwa [List.map_map, List.map_map] at hfst
  unfold Editor.recallable
  split
  · rw [← List.getLast?_map, hformulas, List.getLast?_map]
  · rw [← List.getLast?_map, List.map_dropLast, hformulas, ← List.map_dropLast,
      List.getLast?_map]

/-! ## §1. The stores. -/

namespace FileStore

variable {s : FileStore} {h : History} {r : Record}

/-- The calls of the disk succeed that replace the file. -/
def Serves (s : FileStore) : Prop :=
  ∀ content, (s.disk.run (Disk.replacePlan s.path content)).2 = .ok ()

theorem records_of_holds (hholds : s.Holds h) : s.records.value = h := by
  unfold records
  rcases hholds with hread | ⟨habsent, rfl⟩
  · rw [hread]
  · rw [habsent]

/-- **A file that can be replaced takes each record**, and can be replaced again. -/
theorem Serves.append (hserves : s.Serves) (hholds : s.Holds h) (r : Record) :
    (s.append r).value.Serves ∧ ∃ r', (s.append r).value.Holds (h ++ [r']) ∧ r'.Restores r := by
  constructor
  · rcases appendUnder_cases s [] r with ⟨-, hfate | ⟨e, herror, he⟩⟩ | ⟨h', -, hwrite⟩
    · exact absurd rfl hfate
    · exact absurd herror (hholds.read_ne he)
    · -- The plan has just succeeded, so it will succeed again.
      obtain ⟨d', outcome, hrun, hstore⟩ := writeUnder_run s [] (h' ++ [r])
      obtain rfl : outcome = .ok () := (congrArg Prod.snd hrun).symm.trans (hserves _)
      have hvalue : (s.append r).value = { s with disk := d' } :=
        hwrite.trans (congrArg Prod.fst hstore)
      rw [hvalue]
      exact Disk.run_replace hrun
  · rcases (appends_appendUnder s [] r).readable h hholds with ⟨r', hread, hrestores⟩ | ⟨hfails, -⟩
    · exact ⟨r', .inl hread, hrestores⟩
    · rcases hfails with hfate | ⟨e, herror⟩
      · exact absurd rfl hfate
      · exact nomatch (hserves _).symm.trans herror

/-- The file has what the memory has, and it can be replaced. -/
structure Mirrors (s : FileStore) (m : MemoryStore) : Prop where
  serves : s.Serves
  content : ∃ h, s.Holds h ∧ h.content = m.history.content

theorem Mirrors.records {m : MemoryStore} (h : s.Mirrors m) :
    s.records.value.content = m.history.content := by
  obtain ⟨h, hholds, hcontent⟩ := h.content
  rw [records_of_holds hholds, hcontent]

/-- The record in the file is the one in memory, and its formula has the same tokens. -/
theorem Mirrors.append {m : MemoryStore} (h : s.Mirrors m) (hnormal : r.formula.IsNormal) :
    (s.append r).value.Mirrors ⟨m.history ++ [r]⟩ := by
  obtain ⟨h', hholds, hcontent⟩ := h.content
  obtain ⟨hserves, r', hholds', hrestores⟩ := h.serves.append hholds r
  have hformula : r'.formula = r.formula :=
    eq_of_forall₂ Token.Restores.eq hrestores.formula hnormal
  refine ⟨hserves, h' ++ [r'], hholds', ?_⟩
  unfold History.content at hcontent ⊢
  rw [List.map_append, List.map_append, hcontent, List.map_singleton, List.map_singleton,
    hformula, hrestores.result.2]

end FileStore

/-! ## §2. The sessions. -/

namespace Session

section

variable {σ : Type} [HistoryStore σ]

theorem recallLast_eq (s : Session σ) :
    s.recallLast.value =
      match (s.editor.recallable (HistoryStore.records s.store).value).map Record.formula with
      | none => s
      | some f => (s.edit fun e => e.load f).calculate.value := by
  unfold recallLast
  simp only [Logged.value_bind]
  cases s.editor.recallable (HistoryStore.records s.store).value with
  | none => rfl
  | some r => rfl

end

/-- The two sessions differ in nothing but how they store their history. -/
structure Alike (s : Session FileStore) (t : Session MemoryStore) : Prop where
  editor : s.editor = t.editor
  settings : s.settings = t.settings
  result : s.result = t.result
  store : s.store.Mirrors t.store

variable {s : Session FileStore} {t : Session MemoryStore}

theorem Alike.edit (h : s.Alike t) (change : Editor → Editor) :
    (s.edit change).Alike (t.edit change) :=
  ⟨congrArg change h.editor, h.settings, h.result, h.store⟩

theorem Alike.clearResult (h : s.Alike t) : s.clearResult.Alike t.clearResult :=
  ⟨h.editor, h.settings, rfl, h.store⟩

theorem Alike.clearResultIfEvaluated (h : s.Alike t) :
    s.clearResultIfEvaluated.Alike t.clearResultIfEvaluated := by
  unfold Session.clearResultIfEvaluated
  rw [h.editor]
  split
  · exact h.clearResult
  · exact h

theorem Alike.withSettings (h : s.Alike t) (settings : Settings) :
    (s.withSettings settings).Alike (t.withSettings settings) := by
  unfold Session.withSettings
  rw [h.editor]
  split
  · exact ⟨rfl, rfl, rfl, h.store⟩
  · exact ⟨rfl, rfl, h.result, h.store⟩

/-- A calculation records its formula, whose numbers are in normal form, or nothing. -/
theorem Alike.calculate (h : s.Alike t) (hnormal : t.editor.formula.IsNormal) :
    s.calculate.value.Alike t.calculate.value := by
  obtain ⟨heditor, hsettings, hresult⟩ := calculate_fields s
  obtain ⟨heditor', hsettings', hresult'⟩ := calculate_fields t
  refine ⟨?_, ?_, ?_, ?_⟩
  · rw [heditor, heditor', h.editor]
  · rw [hsettings, hsettings', h.settings]
  · rw [hresult, hresult', h.editor, h.settings]
  · rw [store_calculate, store_calculate, h.editor]
    cases evaluate t.editor.formula with
    | ok v => exact h.store.append hnormal
    | error e => exact h.store

/-- What is recalled from the file is what is recalled from memory. -/
theorem Alike.recallLast (h : s.Alike t) (hsound : t.IsSound) :
    s.recallLast.value.Alike t.recallLast.value := by
  have hsame : (t.editor.recallable (HistoryStore.records s.store).value).map Record.formula
      = (t.editor.recallable (HistoryStore.records t.store).value).map Record.formula :=
    recallable_congr h.store.records t.editor
  rw [recallLast_eq, recallLast_eq, h.editor, hsame]
  cases hr : t.editor.recallable (HistoryStore.records t.store).value with
  | none => exact h
  | some r =>
    -- It was recorded, so its numbers are in normal form.
    exact (h.edit _).calculate (hsound.normal r (mem_of_recallable hr))

/-- **One action keeps the sessions alike.** -/
theorem alike_apply (h : s.Alike t) (hsound : t.IsSound) (a : Action) :
    (s.apply a).value.Alike (t.apply a).value := by
  cases a with
  | digit d => exact h.clearResultIfEvaluated.edit fun e => e.typeDigit d
  | point => exact h.clearResultIfEvaluated.edit Editor.typePoint
  | operator op => exact h.edit fun e => e.typeOperator op
  | constant c => exact h.edit fun e => e.typeConstant c
  | leftBracket => exact h.edit Editor.typeLeftBracket
  | rightBracket => exact h.edit Editor.typeRightBracket
  | erase => exact h.clearResult.edit Editor.erase
  | clear => exact h.clearResult.edit Editor.clear
  | equals => exact (h.edit Editor.complete).calculate (Editor.isNormal_complete hsound.formula)
  | recallLast => exact h.recallLast hsound

theorem isSound_withSettings (hsound : t.IsSound) (settings : Settings) :
    (t.withSettings settings).IsSound := by
  unfold Session.withSettings
  split
  · exact ⟨hsound.formula, hsound.value, hsound.normal⟩
  · exact ⟨hsound.formula, hsound.value, hsound.normal⟩

/-- One step keeps the sessions alike, and the one over memory sound. -/
theorem alike_step (h : s.Alike t) (hsound : t.IsSound) (x : Step) :
    (s.step x).value.Alike (t.step x).value ∧ (t.step x).value.IsSound := by
  cases x with
  | act a => exact ⟨alike_apply h hsound a, isSound_apply hsound a⟩
  | set settings => exact ⟨h.withSettings settings, isSound_withSettings hsound settings⟩

theorem alike_run (h : s.Alike t) (hsound : t.IsSound) (steps : List Step) :
    (s.run steps).value.Alike (t.run steps).value := by
  induction steps generalizing s t with
  | nil => exact h
  | cons x steps ih =>
    obtain ⟨hstep, hsound'⟩ := alike_step h hsound x
    exact ih hstep hsound'

end Session

/-- **A FILE SERVES AS WELL AS MEMORY.**  A session starts over a file that is not there
yet, but can be replaced, and another one starts over an empty memory.  After the same
actions and changes of the settings, both have the same editor, with its formula, its
open brackets and its last result, and the same texts on both screens; and their
histories have the same formulas, token by token, with equal results. -/
theorem file_refines_memory (store : FileStore) (settings : Settings)
    (habsent : store.read = .error .absent) (hserves : store.Serves)
    (steps : List Session.Step) :
    let s := (Session.run { store, settings } steps).value
    let t := (Session.run { store := ({} : MemoryStore), settings } steps).value
    s.editor = t.editor ∧ s.settings = t.settings ∧ s.shownFormula = t.shownFormula
      ∧ s.result = t.result
      ∧ (HistoryStore.records s.store).value.content
          = (HistoryStore.records t.store).value.content := by
  intro s t
  have hmirrors : store.Mirrors {} := ⟨hserves, [], .inr ⟨habsent, rfl⟩, rfl⟩
  have halike : s.Alike t :=
    Session.alike_run ⟨rfl, rfl, rfl, hmirrors⟩ (Session.isSound_fresh settings) steps
  refine ⟨halike.editor, halike.settings, ?_, halike.result, halike.store.records⟩
  unfold Session.shownFormula
  rw [halike.editor, halike.settings]

/-- On an empty disk a third is recorded, and recalled. -/
theorem file_refines_memory_third :
    let store : FileStore := ⟨{}, ["jetons", "historique.json"], "historique.json"⟩
    let steps : List Session.Step :=
      [.act (.digit 1), .act (.operator .divide), .act (.digit 3), .act .equals, .act .clear,
        .act .recallLast]
    let s := (Session.run { store } steps).value
    store.read = .error .absent ∧ store.Serves
      ∧ s.shownFormula = "1÷3" ∧ s.result = "0.3333333333"
      ∧ (HistoryStore.records s.store).value.length = 2 := by
  intro store steps s
  have hjetons : Disk.isName "jetons" = true := Disk.isName_of (by decide) (by decide)
  have hname : Disk.isName "historique.json" = true := Disk.isName_of (by decide) (by decide)
  have htemporary : Disk.isName "historique.json.tmp" = true :=
    Disk.isName_of (by decide) (by decide)
  -- Without a directory on the way the walk to the file fails.
  have hwalk : ({} : Disk).walk store.path = .error .notFound :=
    Disk.walkFrom_name rfl (by decide) hjetons
  have habsent : store.read = .error .absent := by
    show FileStore.read ⟨{}, ["jetons", "historique.json"], "historique.json"⟩ = _
    unfold FileStore.read Disk.read Disk.find
    rw [show ({} : Disk).walk ["jetons", "historique.json"] = .error .notFound from hwalk]
    rfl
  have hserves : store.Serves := by
    intro content
    let d : Disk := ⟨[(["jetons"], .directory)]⟩
    have hmake : ({} : Disk).perform (.makeDirectory ["jetons"]) = .ok d := by
      have hdirectory : ({} : Disk).walk ["jetons"] = .ok ["jetons"] :=
        Disk.walkFrom_name rfl (by decide) hjetons
      show Disk.makeDirectory {} ["jetons"] = _
      unfold Disk.makeDirectory
      rw [hdirectory]
      rfl
    have hstep : ∀ name, d.walk ["jetons", name] = d.walkFrom ["jetons"] [name] := fun _ =>
      Disk.walkFrom_name rfl (by decide) hjetons
    have hplace : d.walk store.path.temporary = .ok ["jetons", "historique.json.tmp"] :=
      (hstep _).trans (Disk.walkFrom_name rfl (by decide) htemporary)
    have htarget : d.walk store.path = .ok ["jetons", "historique.json"] :=
      (hstep _).trans (Disk.walkFrom_name rfl (by decide) hname)
    -- Neither of the two files is there.
    have hfree : d.node? ["jetons", "historique.json.tmp"] = none := rfl
    have hfree' : d.node? ["jetons", "historique.json"] = none := rfl
    show (Disk.runUnder {} [] (.makeDirectory ["jetons"] :: _)).2 = _
    rw [Disk.runUnder_of_perform hmake]
    exact Disk.run_move content hplace (by simp [hfree]) htarget (by simp [hfree'])
  obtain ⟨-, -, hshown, hresult, hcontent⟩ := file_refines_memory store {} habsent hserves steps
  refine ⟨habsent, hserves, hshown.trans (by decide +kernel), hresult.trans (by decide +kernel), ?_⟩
  have hlength := congrArg List.length hcontent
  unfold History.content at hlength
  rw [List.length_map, List.length_map] at hlength
  exact hlength.trans (by decide +kernel)

end PocketCalc
