/-
  PocketCalc.Main
  ───────────────
  **THE CALCULATOR AT A TERMINAL.**

  Words on the command line are the words of a formula, which is evaluated at once.
  Without any, each line of the input is typed in one frame and confirmed with Enter;
  the formula and its result are written back.  The history is kept in memory.
-/
import PocketCalc.Screen.Program
import PocketCalc.Text.Utf8

namespace PocketCalc

/-- What is written about a formula in words: its value, or why it has none. -/
def answer (words : List String) : String :=
  match words.mapM Token.ofWord? with
  | some f =>
      match evaluate f with
      | .ok v => v.plainText
      | .error e => e.message
  | none => EvalError.invalidExpression.message

/-- A line of the input as the keyboard events of one frame.  No key stands for a
damaged character. -/
def KeyEvent.ofLine (line : List Nat) : List KeyEvent := [.text (Text.decodeLossy line), .enter]

/-- Reads bytes up to the end of a line or of the input; the last byte read is in front. -/
partial def readLine (input : IO.FS.Stream) (line : List Nat) : IO (List Nat) := do
  let bytes ← input.read 1
  match bytes.toList with
  | [] => return line
  | b :: _ =>
      let line := b.toNat :: line
      if b.toNat = '\n'.toNat then return line else readLine input line

/-- Takes the input line by line until it ends. -/
partial def converse (input output : IO.FS.Stream) (s : Screen MemoryStore) : IO Unit := do
  let line ← readLine input []
  if line.isEmpty then return
  let s := (s.frame (KeyEvent.ofLine line.reverse)).value
  output.putStrLn (s.calculator.session.shownFormula ++ " = " ++ s.calculator.session.result)
  converse input output s

end PocketCalc

/-- Evaluates a formula, or starts a calculator with an empty history. -/
def main (words : List String) : IO Unit := do
  let output ← IO.getStdout
  if words.isEmpty then
    output.putStrLn PocketCalc.title
    PocketCalc.converse (← IO.getStdin) output
      { calculator := PocketCalc.Calculator.new (⟨[]⟩ : PocketCalc.MemoryStore) {} }
  else output.putStrLn (PocketCalc.answer words)
