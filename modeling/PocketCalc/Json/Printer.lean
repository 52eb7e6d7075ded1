/-
  PocketCalc.Json.Printer
  ───────────────────────
  **WRITING JSON.**

  Every item of a list and every member of an object stands on a line of its
  own, two blanks deeper than the container; an empty container is written
  without a blank.
-/
import PocketCalc.Json.Text

namespace PocketCalc.Json

/-- The start of a line at the given depth. -/
def newline (depth : Nat) : List Char := '\n' :: List.replicate (2 * depth) ' '

/-- A text between quotes. -/
def quote (text : List Char) : List Char := '"' :: text ++ ['"']

mutual

/-- A value whose first line stands at the given depth. -/
def pretty (depth : Nat) : Json → List Char
  | .null => ['n', 'u', 'l', 'l']
  | .bool true => ['t', 'r', 'u', 'e']
  | .bool false => ['f', 'a', 'l', 's', 'e']
  | .number t => t
  | .string t => quote t
  | .list [] => ['[', ']']
  | .list (v :: vs) =>
      '[' :: newline (depth + 1) ++ pretty (depth + 1) v ++ prettyItems (depth + 1) vs
        ++ newline depth ++ [']']
  | .object [] => ['\x7b', '\x7d']
  | .object ((k, v) :: ms) =>
      '\x7b' :: newline (depth + 1) ++ quote k ++ [':', ' '] ++ pretty (depth + 1) v
        ++ prettyMembers (depth + 1) ms ++ newline depth ++ ['\x7d']

/-- The items of a list behind the first one. -/
def prettyItems (depth : Nat) : List Json → List Char
  | [] => []
  | v :: vs => ',' :: newline depth ++ pretty depth v ++ prettyItems depth vs

/-- The members of an object behind the first one. -/
def prettyMembers (depth : Nat) : List (List Char × Json) → List Char
  | [] => []
  | (k, v) :: ms =>
      ',' :: newline depth ++ quote k ++ [':', ' '] ++ pretty depth v ++ prettyMembers depth ms

end

end PocketCalc.Json
