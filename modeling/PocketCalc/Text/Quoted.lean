/-
  PocketCalc.Text.Quoted
  ──────────────────────
  **QUOTED TEXT.**

  A text is quoted so that every character of it can be told apart: quotes and
  backslashes, line ends, tabs and zero characters get a backslash, and what does
  not show by itself is written as its code point in hexadecimal digits between
  braces.
-/
import PocketCalc.Text.Unshown

namespace PocketCalc.Text

/-- A character by its code point. -/
def codePoint (c : Char) : List Char :=
  ['\\', 'u', '\x7b'] ++ Nat.toDigits 16 c.toNat ++ ['\x7d']

/-- A character as it stands in a quoted text. -/
def quotedChar (c : Char) : List Char :=
  match c with
  | '"' => ['\\', '"']
  | '\\' => ['\\', '\\']
  | '\n' => ['\\', 'n']
  | '\r' => ['\\', 'r']
  | '\t' => ['\\', 't']
  | '\x00' => ['\\', '0']
  | c => if isUnshown c then codePoint c else [c]

/-- A text between quotes. -/
def quoted (s : String) : String :=
  String.ofList ('"' :: s.toList.flatMap quotedChar ++ ['"'])

end PocketCalc.Text
