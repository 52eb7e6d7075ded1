/-
  PocketCalc.Json.Basic
  ─────────────────────
  **JSON VALUES AS THEY ARE WRITTEN.**

  Numbers and strings are held as their text: a number with all its characters,
  a string as what stands between its quotes, escapes included.  What such a
  text means is decided where it is used; a value that nobody uses only has to
  be well formed.  An object keeps its members in order, repeated keys included.
-/

namespace PocketCalc

/-- A JSON value. -/
inductive Json where
  | null
  | bool (b : Bool)
  /-- The characters of a number. -/
  | number (text : List Char)
  /-- The characters between the quotes of a string. -/
  | string (text : List Char)
  | list (items : List Json)
  | object (members : List (List Char × Json))

end PocketCalc
