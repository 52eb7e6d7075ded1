/-
  PocketCalc.Proofs.Session.Frames
  ────────────────────────────────
  **WHAT A FRAME MAKES OF ITS KEYBOARD EVENTS.**

  The keyboard is read once a frame.  The typed texts are read as a stream, but of the
  three keys that type nothing a frame knows only whether they were pressed: they come
  behind the texts, in a fixed order, and each counts once.  So a frame does what its
  arranged events do one by one, and this is what the events themselves do as long as
  they come in that order.

      frameActions_arranged    a frame does what its arranged events do
      frameActions_inOrder     events in order need no arranging
      frames_regroup           how a stream of events may be cut into frames
      frames_differ            it may not be cut in every way
-/
import Mathlib.Data.List.Basic
import PocketCalc.Proofs.Session.Reachable
import PocketCalc.Session.Calculator

namespace PocketCalc

/-! ## §1. The order of the keys in a frame. -/

namespace KeyEvent

/-- The actions of an event that is alone in its frame. -/
def actions (k : KeyEvent) : List Action := Calculator.frameActions [k]

/-- When an event has its turn in a frame: the texts first, then the three keys. -/
def turn : KeyEvent → Nat
  | .text _ => 0
  | .enter => 1
  | .backspace => 2
  | .escape => 3
  | .other => 4

def isText : KeyEvent → Bool
  | .text _ => true
  | _ => false

/-- An event may come before another one in a frame: one of them does nothing, or it has
its turn first, or both are texts. -/
def Precedes (a b : KeyEvent) : Prop :=
  a.actions = [] ∨ b.actions = [] ∨ a.turn < b.turn ∨ a.turn = 0 ∧ b.turn = 0

instance : DecidableRel Precedes := fun a b => by unfold Precedes; infer_instance

@[simp] theorem actions_text (cs : List Char) :
    (text cs).actions = cs.filterMap Action.ofChar? := by
  simp [actions, Calculator.frameActions, Calculator.typedText]

@[simp] theorem actions_enter : enter.actions = [.equals] := rfl

@[simp] theorem actions_backspace : backspace.actions = [.erase] := rfl

@[simp] theorem actions_escape : escape.actions = [.clear] := rfl

@[simp] theorem actions_other : other.actions = [] := rfl

/-- The key has its turn, so what comes behind it has a later one, or it does nothing. -/
theorem actions_eq_nil_of_precedes {k k' : KeyEvent} (h : k.Precedes k') (hk : k.actions ≠ [])
    (hturn : 0 < k.turn) (hle : k'.turn ≤ k.turn) : k'.actions = [] := by
  rcases h with h | h | h | ⟨h, -⟩
  · exact absurd h hk
  · exact h
  · omega
  · omega

end KeyEvent

namespace Calculator

open KeyEvent

/-- The events of a frame as it takes them: all texts, and then each key that was
pressed, once. -/
def arranged (events : List KeyEvent) : List KeyEvent :=
  events.filter isText ++ [.enter, .backspace, .escape].filter events.contains

/-- The events of a frame come in the order in which the frame takes them. -/
def InOrder (events : List KeyEvent) : Prop := events.Pairwise Precedes

instance (events : List KeyEvent) : Decidable (InOrder events) :=
  inferInstanceAs (Decidable (events.Pairwise Precedes))

/-! ## §2. The actions of a frame. -/

theorem filterMap_typedText (events : List KeyEvent) :
    (typedText events).filterMap Action.ofChar? = (events.filter isText).flatMap actions := by
  induction events with
  | nil => rfl
  | cons k events ih =>
    cases k with
    | text cs =>
      show (cs ++ typedText events).filterMap Action.ofChar? = _
      rw [List.filterMap_append, ih, ← actions_text]
      rfl
    | _ => exact ih

/-- **A frame does what its arranged events do**, one by one. -/
theorem frameActions_arranged (events : List KeyEvent) :
    frameActions events = (arranged events).flatMap actions := by
  unfold frameActions arranged
  rw [filterMap_typedText, List.flatMap_append, List.append_assoc, List.append_assoc]
  congr 1
  simp only [List.filter_cons, List.filter_nil]
  -- Each of the three keys was pressed, or it was not.
  cases events.contains .enter <;> cases events.contains .backspace <;>
    cases events.contains .escape <;> rfl

/-- Behind a key that has its turn, no text means anything. -/
theorem filterMap_typedText_nil {k : KeyEvent} (hk : k.actions ≠ []) (hturn : 0 < k.turn)
    {events : List KeyEvent} (h : ∀ k' ∈ events, k.Precedes k') :
    (typedText events).filterMap Action.ofChar? = [] := by
  rw [filterMap_typedText, List.flatMap_eq_nil_iff]
  intro k' hk'
  obtain ⟨hmem, htext⟩ := List.mem_filter.1 hk'
  refine actions_eq_nil_of_precedes (h k' hmem) hk hturn ?_
  cases k' with
  | text cs => exact Nat.zero_le _
  | _ => cases htext

/-- Behind a key that has its turn, no key comes that had its turn, nor the same key. -/
theorem not_mem_of_precedes {k : KeyEvent} (hk : k.actions ≠ []) (hturn : 0 < k.turn)
    {events : List KeyEvent} (h : ∀ k' ∈ events, k.Precedes k') {k' : KeyEvent}
    (hk' : k'.actions ≠ []) (hle : k'.turn ≤ k.turn) : k' ∉ events :=
  fun hmem => hk' (actions_eq_nil_of_precedes (h k' hmem) hk hturn hle)

/-- An event that comes first in its frame is taken first. -/
theorem frameActions_cons {k : KeyEvent} {events : List KeyEvent}
    (h : ∀ k' ∈ events, k.Precedes k') :
    frameActions (k :: events) = k.actions ++ frameActions events := by
  have htexts : k.actions ≠ [] → 0 < k.turn →
      (typedText events).filterMap Action.ofChar? = [] :=
    fun hk hturn => filterMap_typedText_nil hk hturn h
  have hkey : ∀ k' : KeyEvent, k.actions ≠ [] → 0 < k.turn → k'.actions ≠ [] →
      k'.turn ≤ k.turn → k' ∉ events :=
    fun _ hk hturn => not_mem_of_precedes hk hturn h
  -- A key that has its turn is followed by no text that means anything, by no key that comes
  -- before it in a frame, and not by itself.
  cases k with
  | text cs => simp [frameActions, typedText, List.filterMap_append]
  | other => rfl
  | enter =>
    have henter := hkey .enter
    simp_all [frameActions, typedText, KeyEvent.turn]
  | backspace =>
    have henter := hkey .enter
    have hbackspace := hkey .backspace
    simp_all [frameActions, typedText, KeyEvent.turn]
  | escape =>
    have henter := hkey .enter
    have hbackspace := hkey .backspace
    have hescape := hkey .escape
    simp_all [frameActions, typedText, KeyEvent.turn]

/-- **Events that come in order** need no arranging. -/
theorem frameActions_inOrder {events : List KeyEvent} (h : InOrder events) :
    frameActions events = events.flatMap actions := by
  induction events with
  | nil => rfl
  | cons k events ih =>
    obtain ⟨hfirst, hrest⟩ := List.pairwise_cons.1 h
    rw [frameActions_cons hfirst, ih hrest, List.flatMap_cons]

/-! ## §3. Runs of frames. -/

section

variable {σ : Type} [HistoryStore σ]

/-- The calculator after several frames. -/
def frames (c : Calculator σ) : List (List KeyEvent) → Logged (Calculator σ)
  | [] => pure c
  | events :: rest => do
      let c ← c.frame events
      c.frames rest

/-- The frames in which each event is alone. -/
def oneByOne (events : List KeyEvent) : List (List KeyEvent) := events.map fun k => [k]

theorem applyAll_bind (c : Calculator σ) (as bs : List Action) :
    c.applyAll (as ++ bs) = (c.applyAll as >>= fun c => c.applyAll bs) := by
  unfold applyAll
  rw [Session.applyAll_bind, bind_assoc, bind_assoc]
  rfl

/-- **A run of frames is a run of their actions.** -/
theorem frames_eq (c : Calculator σ) (batches : List (List KeyEvent)) :
    c.frames batches = c.applyAll (batches.flatMap frameActions) := by
  induction batches generalizing c with
  | nil => rfl
  | cons events batches ih =>
    rw [List.flatMap_cons, applyAll_bind]
    show (c.frame events >>= fun c => c.frames batches) = _
    simp only [ih]
    rfl

theorem flatMap_oneByOne (events : List KeyEvent) :
    (oneByOne events).flatMap frameActions = events.flatMap actions :=
  List.flatMap_map (fun k => [k]) frameActions events

end

end Calculator

/-- **HOW A STREAM OF KEYS MAY BE CUT INTO FRAMES.**  Over any store and in any state, a
run of frames does what the arranged events of each do one by one.  So if the events of
each frame come in order, nothing is lost and nothing changes its place: the run does
what its events do one by one, and however the stream is cut into such frames, the
calculator and the log are the same. -/
theorem frames_regroup {σ : Type} [HistoryStore σ] (c : Calculator σ)
    (batches : List (List KeyEvent)) :
    c.frames batches = c.frames (Calculator.oneByOne (batches.flatMap Calculator.arranged))
      ∧ ((∀ events ∈ batches, Calculator.InOrder events) →
          c.frames batches = c.frames (Calculator.oneByOne batches.flatten)) := by
  rw [Calculator.frames_eq, Calculator.frames_eq, Calculator.frames_eq,
    Calculator.flatMap_oneByOne, Calculator.flatMap_oneByOne]
  refine ⟨?_, fun horder => ?_⟩
  · rw [List.flatMap_assoc]
    refine congrArg c.applyAll (List.flatMap_congr fun events _ => ?_)
    exact Calculator.frameActions_arranged events
  · rw [List.flatten_eq_flatMap, List.flatMap_assoc]
    refine congrArg c.applyAll (List.flatMap_congr fun events hevents => ?_)
    exact Calculator.frameActions_inOrder (horder events hevents)

/-- Two frames in order: texts around a key that means nothing, then equals; and a product
sign that is erased again. -/
theorem frames_regroup_two :
    let c : Calculator MemoryStore := .new {} {}
    let batches : List (List KeyEvent) :=
      [[.text ['1', '+'], .other, .text ['2'], .enter], [.text ['×'], .backspace]]
    (∀ events ∈ batches, Calculator.InOrder events)
      ∧ c.frames batches = c.frames (Calculator.oneByOne batches.flatten)
      ∧ batches.flatten.length = 6
      ∧ (c.frames batches).value.session.shownFormula = "3" := by
  intro c batches
  have horder : ∀ events ∈ batches, Calculator.InOrder events := by decide +kernel
  exact ⟨horder, (frames_regroup c batches).2 horder, rfl, by decide +kernel⟩

/-- **A stream of keys may not be cut in every way.**  In one frame the second press of
the erase key is lost, and a digit that was typed behind equals comes before it. -/
theorem frames_differ :
    let c : Calculator MemoryStore := .new {} {}
    let shown := fun batches => (c.frames batches).value.session.shownFormula
    let erasing : List KeyEvent := [.text ['1', '2'], .backspace, .backspace]
    let typing : List KeyEvent := [.text ['1'], .enter, .text ['2']]
    shown [erasing] = "1" ∧ shown (Calculator.oneByOne erasing) = ""
      ∧ shown [typing] = "12" ∧ shown (Calculator.oneByOne typing) = "2"
      ∧ ¬ ∀ (c : Calculator MemoryStore) (events : List KeyEvent),
          (c.frame events).value = (c.frames (Calculator.oneByOne events)).value := by
  intro c shown erasing typing
  have hone : shown [erasing] = "1" := by decide +kernel
  have hnone : shown (Calculator.oneByOne erasing) = "" := by decide +kernel
  refine ⟨hone, hnone, by decide +kernel, by decide +kernel, fun hsame => ?_⟩
  have hshown : shown [erasing] = shown (Calculator.oneByOne erasing) :=
    congrArg (fun c => c.session.shownFormula) (hsame c erasing)
  rw [hone, hnone] at hshown
  exact absurd hshown (by decide)

end PocketCalc
