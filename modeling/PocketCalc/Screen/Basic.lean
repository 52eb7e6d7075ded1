/-
  PocketCalc.Screen.Basic
  ───────────────────────
  **THE SCREEN.**

  The screen is a list of items in the order in which they are drawn, each with
  its text, its tooltip and what a click on it does.  When the list of past
  calculations is open, drawing reads the history.

  Every frame first takes the keyboard, then draws.  The number of shown places
  stands on a dial that holds a 32-bit word; a number on the dial above the limit
  is brought down to it while drawing.
-/
import PocketCalc.Session.Calculator

namespace PocketCalc

/-! ## §1. Items. -/

/-- What a click can do. -/
inductive Click where
  | act (a : Action)
  | toggleDecimalComma
  | toggleHistory
  deriving DecidableEq, Repr

/-- A drawn item. -/
structure Item where
  text : String
  tip : Option String := none
  click : Option Click := none
  deriving DecidableEq, Repr

/-- The title of the program. -/
def title : String := "Calculatrice à jetons"

/-- A calculator, and whether its list of past calculations is open. -/
structure Screen (σ : Type) where
  calculator : Calculator σ
  historyOpen : Bool := false

/-- An item that does nothing. -/
def Item.label (text : String) : Item := { text }

/-- A key of the pad. -/
def Item.key (text tip : String) (a : Action) : Item :=
  { text, tip := some tip, click := some (.act a) }

/-- A digit key. -/
def Item.digit (d : Nat) : Item := { text := toString d, click := some (.act (.digit d)) }

/-- The pad, row by row. -/
def pad (decimalSeparator : Char) : List Item := [
  .key "C" "Tout effacer (Échap)" .clear,
  .key "DEL" "Efface le dernier symbole" .erase,
  .key "(" "Parenthèse ouvrante" .leftBracket,
  .key ")" "Parenthèse fermante" .rightBracket,
  .key "R" "Rappel du calcul précédent" .recallLast,
  .digit 7, .digit 8, .digit 9,
  .key "÷" "Diviser" (.operator .divide),
  .key "π" "Pi" (.constant .pi),
  .digit 4, .digit 5, .digit 6,
  .key "×" "Multiplier" (.operator .times),
  .key "e" "Nombre d’Euler" (.constant .e),
  .digit 1, .digit 2, .digit 3,
  .key "−" "Soustraire" (.operator .minus),
  .key "n!" "Factorielle" (.operator .factorial),
  .digit 0,
  .key decimalSeparator.toString "Séparateur décimal" .point,
  .label "",
  .key "+" "Additionner" (.operator .plus),
  .key "=" "Calculer (Entrée)" .equals]

/-- The lines of past calculations, newest first. -/
def historyLines (settings : Settings) (history : History) : List Item :=
  if history.isEmpty then [.label "vide"]
  else history.reverse.map fun r =>
    .label (settings.showFormula r.formula ++ " = " ++ settings.showResult (some r.result))

namespace Screen

variable {σ : Type}

/-! ## §2. Drawing. -/

/-- The number on the dial of shown places. -/
def dial (settings : Settings) : Nat := settings.shownPlaces % 4294967296

/-- The items above the pad. -/
def header (c : Calculator σ) : List Item := [
  .label title,
  .label "Formule :", .label c.session.shownFormula,
  .label "Résultat :", .label c.session.result,
  { text := "Virgule décimale", tip := some "1.234,5 au lieu de 1,234.5",
    click := some .toggleDecimalComma },
  .label "Affichage :", .label (toString (dial c.settings) ++ " chiffres")]

/-- Brings the number on the dial down to its limit. -/
def clampPlaces (s : Screen σ) : Screen σ :=
  if dial s.calculator.settings ≤ Settings.maxShownPlaces then s
  else { s with calculator := s.calculator.setShownPlaces Settings.maxShownPlaces }

variable [HistoryStore σ]

/-- The items of the list of past calculations, if it is open. -/
def historyItems (s : Screen σ) : Logged (List Item) :=
  if s.historyOpen then do
    let history ← HistoryStore.records s.calculator.session.store
    return historyLines s.calculator.session.settings history
  else pure []

/-- The items of the screen. -/
def items (s : Screen σ) : Logged (List Item) := do
  let lines ← s.historyItems
  return header s.calculator ++ pad s.calculator.settings.decimalSeparator
    ++ [{ text := "Historique", click := some .toggleHistory }] ++ lines

/-- Draws a frame in which nothing is clicked. -/
def draw (s : Screen σ) : Logged (Screen σ) := do
  let s := s.clampPlaces
  let _ ← s.historyItems
  return s

/-- What is shown, text by text. -/
def texts (s : Screen σ) : Logged (List String) := do
  let items ← s.items
  return items.map Item.text

/-! ## §3. What the user does. -/

/-- What a click does. -/
def perform (s : Screen σ) : Click → Logged (Screen σ)
  | .act a => do
      let calculator ← s.calculator.apply a
      return { s with calculator }
  | .toggleDecimalComma =>
      let comma := !s.calculator.settings.hasDecimalComma
      pure { s with calculator := s.calculator.setDecimalComma comma }
  | .toggleHistory => pure { s with historyOpen := !s.historyOpen }

/-- A frame with keyboard events. -/
def frame (s : Screen σ) (events : List KeyEvent) : Logged (Screen σ) := do
  let calculator ← s.calculator.frame events
  { s with calculator }.draw

/-- The last item with the given text, if one is shown. -/
def item? (s : Screen σ) (text : String) : Logged (Option Item) := do
  let items ← s.items
  return items.reverse.find? fun i => i.text == text

/-- A click on the last item with the given text; none if no item has it. -/
def click? (s : Screen σ) (text : String) : Logged (Option (Screen σ)) := do
  match ← s.item? text with
  | none => return none
  | some i =>
      let s ← s.draw
      let s ← match i.click with
        | some c => s.perform c
        | none => pure s
      let s ← s.draw
      return some s

/-- The tooltips that show while the pointer rests on the last item with the
given text; none if no item has it. -/
def hover? (s : Screen σ) (text : String) : Logged (Option (List String)) := do
  let i ← s.item? text
  return i.map fun i => i.tip.toList

/-- Types a number of shown places and confirms it with Enter.  The keyboard is
read whatever has the focus: the digits also go to the calculator, and Enter is
also equals. -/
def typePlaces (s : Screen σ) (typed : List Char) : Logged (Screen σ) := do
  let s ← s.draw
  let calculator ← s.calculator.frame [.text typed]
  let calculator :=
    match Decimal.readDigits typed with
    | some n => calculator.setShownPlaces n
    | none => calculator
  let s ← { s with calculator }.draw
  s.frame [.enter]

end Screen

end PocketCalc
