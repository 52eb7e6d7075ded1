/-
  PocketCalc.Json.Parser
  ──────────────────────
  **READING JSON.**

  Reading is a machine that takes one lexeme at a time.  Its state is what it
  expects next, and a stack of the containers that are still open; nesting has
  no limit.  A text is a value if the machine, having taken all its lexemes,
  holds a complete value and no open container.
-/
import PocketCalc.Json.Lexer

namespace PocketCalc.Json

/-- A container that waits for a value: its parts so far, last one first. -/
inductive Frame where
  | list (items : List Json)
  | member (members : List (List Char × Json)) (key : List Char)

/-- What comes next. -/
inductive Expect where
  | value
  /-- The first item of a list, or its end. -/
  | firstItem
  /-- The first key of an object, or its end. -/
  | firstKey
  /-- The next key of an object with the given members, last one first. -/
  | key (members : List (List Char × Json))
  /-- The colon behind a key. -/
  | colon (members : List (List Char × Json)) (key : List Char)
  /-- A complete value was read: its container goes on or ends. -/
  | done (value : Json)

/-- What the machine expects, and the containers around it, innermost first. -/
structure State where
  expect : Expect
  frames : List Frame

/-- Takes the first lexeme of a value. -/
def begin? (frames : List Frame) : Lexeme → Option State
  | .leftBrace => some ⟨.firstKey, frames⟩
  | .leftBracket => some ⟨.firstItem, frames⟩
  | .string t => some ⟨.done (.string t), frames⟩
  | .scalar v => some ⟨.done v, frames⟩
  | _ => none

/-- Takes the lexeme behind a complete value. -/
def continue? (v : Json) : List Frame → Lexeme → Option State
  | .list items :: frames, .comma => some ⟨.value, .list (v :: items) :: frames⟩
  | .list items :: frames, .rightBracket => some ⟨.done (.list (v :: items).reverse), frames⟩
  | .member members k :: frames, .comma => some ⟨.key ((k, v) :: members), frames⟩
  | .member members k :: frames, .rightBrace =>
      some ⟨.done (.object ((k, v) :: members).reverse), frames⟩
  | _, _ => none

/-- Takes one lexeme. -/
def step? (s : State) (l : Lexeme) : Option State :=
  match s.expect, l with
  | .value, l => begin? s.frames l
  | .firstItem, .rightBracket => some ⟨.done (.list []), s.frames⟩
  | .firstItem, l => begin? (.list [] :: s.frames) l
  | .firstKey, .rightBrace => some ⟨.done (.object []), s.frames⟩
  | .firstKey, .string k => some ⟨.colon [] k, s.frames⟩
  | .key members, .string k => some ⟨.colon members k, s.frames⟩
  | .colon members k, .colon => some ⟨.value, .member members k :: s.frames⟩
  | .done v, l => continue? v s.frames l
  | _, _ => none

/-- Takes lexemes one after another. -/
def run? (s : State) : List Lexeme → Option State
  | [] => some s
  | l :: ls => (step? s l).bind fun s' => run? s' ls

/-- The value of a text, or none if the text is no JSON value. -/
def parse? (cs : List Char) : Option Json :=
  match (lex cs).bind (run? ⟨.value, []⟩) with
  | some ⟨.done v, []⟩ => some v
  | _ => none

end PocketCalc.Json
