/-
  PocketCalc.Session.Calculator
  ─────────────────────────────
  **THE CALCULATOR AND ITS KEYBOARD.**

  The calculator is a session with the settings that can be changed on the
  screen.  The keyboard is read once a frame: first all typed characters, then
  at most one press each of the three keys that type nothing.
-/
import PocketCalc.Session.Basic

namespace PocketCalc

/-- A session and the settings on the screen. -/
structure Calculator (σ : Type) where
  session : Session σ
  settings : Settings

/-- What the keyboard tells. -/
inductive KeyEvent where
  | text (typed : List Char)
  | enter
  | backspace
  | escape
  /-- A key that means nothing here. -/
  | other
  deriving DecidableEq, Repr

namespace Calculator

variable {σ : Type}

/-- A calculator over a store. -/
def new (store : σ) (settings : Settings) : Calculator σ :=
  ⟨{ store, settings }, settings⟩

/-- Changes the settings on the screen, and those of the session with them. -/
def withSettings (c : Calculator σ) (settings : Settings) : Calculator σ :=
  ⟨c.session.withSettings settings, settings⟩

/-- Chooses between decimal comma and decimal point. -/
def setDecimalComma (c : Calculator σ) (comma : Bool) : Calculator σ :=
  c.withSettings (c.settings.withDecimalComma comma)

/-- Chooses how many places are shown. -/
def setShownPlaces (c : Calculator σ) (n : Nat) : Calculator σ :=
  c.withSettings (c.settings.withShownPlaces n)

variable [HistoryStore σ]

/-- The calculator after an action. -/
def apply (c : Calculator σ) (a : Action) : Logged (Calculator σ) := do
  let session ← c.session.apply a
  return { c with session }

/-- The calculator after several actions. -/
def applyAll (c : Calculator σ) (as : List Action) : Logged (Calculator σ) := do
  let session ← c.session.applyAll as
  return { c with session }

/-- The characters typed in a frame, in order. -/
def typedText : List KeyEvent → List Char
  | [] => []
  | .text cs :: events => cs ++ typedText events
  | _ :: events => typedText events

/-- The actions of a frame: those of the typed characters, then equals, erase and
clear, each once at most. -/
def frameActions (events : List KeyEvent) : List Action :=
  (typedText events).filterMap Action.ofChar?
    ++ (if events.contains .enter then [.equals] else [])
    ++ (if events.contains .backspace then [.erase] else [])
    ++ (if events.contains .escape then [.clear] else [])

/-- The calculator after the keyboard events of a frame. -/
def frame (c : Calculator σ) (events : List KeyEvent) : Logged (Calculator σ) :=
  c.applyAll (frameActions events)

end Calculator

end PocketCalc
