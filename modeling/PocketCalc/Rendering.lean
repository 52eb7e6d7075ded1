/-
  PocketCalc.Rendering
  ────────────────────
  **NUMBERS AND FORMULAS ON THE SCREEN.**

  A stored number is shown rounded to the places of the settings, with its
  integer digits in groups of three.  A number that is still being typed is
  shown as it was typed, grouped but not rounded.  A formula is shown as the
  glyphs of its tokens behind one another.
-/
import PocketCalc.Settings
import PocketCalc.Decimal.Plain

namespace PocketCalc

/-! ## §1. Groups of three. -/

/-- Sets a separator in front of every group of three of `n` characters, counted
from the right, except at the start. -/
def groupFrom (separator : Char) : Nat → List Char → List Char
  | n + 1, c :: cs =>
      if n ≠ 0 ∧ n % 3 = 0 then c :: separator :: groupFrom separator n cs
      else c :: groupFrom separator n cs
  | _, _ => []

/-- Sets a separator in front of every group of three characters, counted from
the right, except at the start. -/
def group (separator : Char) (cs : List Char) : List Char := groupFrom separator cs.length cs

@[simp] theorem group_nil (separator : Char) : group separator [] = [] := rfl

theorem group_cons (separator c : Char) (cs : List Char) :
    group separator (c :: cs) =
      if cs.length ≠ 0 ∧ cs.length % 3 = 0 then c :: separator :: group separator cs
      else c :: group separator cs := rfl

namespace Settings

/-! ## §2. Numbers. -/

/-- A stored number on the screen, character by character. -/
def numberChars (s : Settings) (x : Decimal) : List Char :=
  let p := (x.roundAt s.roundingPlaces).parts
  Decimal.sign p.negative ++ group s.groupSeparator p.integer
    ++ Decimal.pointed s.decimalSeparator p.fraction

/-- What stands behind the first point of a typed number, and the separator in
its place. -/
def typedFraction (s : Settings) (rest : List Char) : List Char :=
  match rest with
  | [] => []
  | _ :: fraction => s.decimalSeparator :: fraction

/-- A typed number on the screen: nothing of it is dropped. -/
def typedChars (s : Settings) (typed : List Char) : List Char :=
  let negative := typed.head? == some '-'
  let body := if negative then typed.drop 1 else typed
  Decimal.sign negative ++ group s.groupSeparator (body.takeWhile (· != '.'))
    ++ s.typedFraction (body.dropWhile (· != '.'))

/-! ## §3. Formulas. -/

/-- The glyph of a token. -/
def glyph (s : Settings) : Token → List Char
  | .number v => s.numberChars v
  | .constant .pi => ['π']
  | .constant .e => ['e']
  | .operator .plus => ['+']
  | .operator .minus => ['−']
  | .operator .times => ['×']
  | .operator .divide => ['÷']
  | .operator .factorial => ['!']
  | .leftBracket => ['(']
  | .rightBracket => [')']
  | .point => [s.decimalSeparator]

/-- The glyphs of a formula behind one another. -/
def formulaChars (s : Settings) (f : Formula) : List Char := f.flatMap s.glyph

/-- A stored number as it is shown. -/
def showNumber (s : Settings) (x : Decimal) : String := String.ofList (s.numberChars x)

/-- A result as it is shown; nothing for no result. -/
def showResult (s : Settings) : Option Decimal → String
  | some x => s.showNumber x
  | none => ""

/-- A typed number as it is shown. -/
def showTyped (s : Settings) (typed : String) : String := String.ofList (s.typedChars typed.toList)

/-- A formula as it is shown. -/
def showFormula (s : Settings) (f : Formula) : String := String.ofList (s.formulaChars f)

end Settings

end PocketCalc
