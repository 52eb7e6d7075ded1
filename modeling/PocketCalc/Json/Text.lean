/-
  PocketCalc.Json.Text
  ────────────────────
  **ESCAPES IN JSON STRINGS.**

  `unescape` reads the text between two quotes; an escaped surrogate counts only
  as half of a pair, and alone it is refused.  `escape` writes such a text.
-/
import PocketCalc.Json.Basic

namespace PocketCalc.Json

/-! ## §1. Hexadecimal digits. -/

/-- The value of a hexadecimal digit. -/
def hexDigit? (c : Char) : Option Nat :=
  if c.isDigit then some (c.toNat - '0'.toNat)
  else if 'a' ≤ c ∧ c ≤ 'f' then some (c.toNat - 'a'.toNat + 10)
  else if 'A' ≤ c ∧ c ≤ 'F' then some (c.toNat - 'A'.toNat + 10)
  else none

/-- Is the character a hexadecimal digit? -/
def isHexDigit (c : Char) : Bool := (hexDigit? c).isSome

/-- The value of four hexadecimal digits. -/
def hexUnit (a b c d : Char) : Nat :=
  [a, b, c, d].foldl (fun n x => 16 * n + (hexDigit? x).getD 0) 0

/-- The first half of a surrogate pair. -/
def isHighSurrogate (u : Nat) : Bool := 0xD800 ≤ u && u < 0xDC00

/-- The second half of a surrogate pair. -/
def isLowSurrogate (u : Nat) : Bool := 0xDC00 ≤ u && u < 0xE000

/-- The character of a surrogate pair. -/
def pairChar (high low : Nat) : Char :=
  Char.ofNat (0x10000 + (high - 0xD800) * 0x400 + (low - 0xDC00))

/-! ## §2. Reading. -/

/-- The character that stands behind a backslash for another one. -/
def escaped? : Char → Option Char
  | '"' => some '"'
  | '\\' => some '\\'
  | '/' => some '/'
  | 'b' => some '\x08'
  | 'f' => some '\x0c'
  | 'n' => some '\n'
  | 'r' => some '\r'
  | 't' => some '\t'
  | _ => none

/-- The characters that a string text stands for; none if a surrogate stands
alone. -/
def unescape : List Char → Option (List Char)
  | [] => some []
  | '\\' :: 'u' :: a :: b :: c :: d :: rest =>
      let unit := hexUnit a b c d
      if isHighSurrogate unit then
        match rest with
        | '\\' :: 'u' :: a' :: b' :: c' :: d' :: rest' =>
            let low := hexUnit a' b' c' d'
            if isLowSurrogate low then (unescape rest').map (pairChar unit low :: ·) else none
        | _ => none
      else if isLowSurrogate unit then none
      else (unescape rest).map (Char.ofNat unit :: ·)
  | '\\' :: c :: rest =>
      match escaped? c with
      | some x => (unescape rest).map (x :: ·)
      | none => none
  | c :: rest => (unescape rest).map (c :: ·)

/-- The text of a string value. -/
def text? : Json → Option String
  | .string t => (unescape t).map String.ofList
  | _ => none

/-! ## §3. Writing. -/

/-- The escape of a control character: four hexadecimal digits. -/
def escapeControl (c : Char) : List Char :=
  ['\\', 'u', '0', '0', Nat.digitChar (c.toNat / 16), Nat.digitChar (c.toNat % 16)]

/-- A character as it is written between quotes. -/
def escapeChar : Char → List Char
  | '"' => ['\\', '"']
  | '\\' => ['\\', '\\']
  | '\x08' => ['\\', 'b']
  | '\x0c' => ['\\', 'f']
  | '\n' => ['\\', 'n']
  | '\r' => ['\\', 'r']
  | '\t' => ['\\', 't']
  | c => if c.toNat < 32 then escapeControl c else [c]

/-- A text as it is written between quotes. -/
def escape (cs : List Char) : List Char := cs.flatMap escapeChar

/-- The string value of a text. -/
def ofText (s : String) : Json := .string (escape s.toList)

end PocketCalc.Json
