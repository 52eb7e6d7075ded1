/-
  PocketCalc.Json.Lexer
  ─────────────────────
  **LEXEMES OF JSON.**

  The lexer cuts a text into punctuation, strings, numbers and the three words,
  and drops the blanks between them.  Numbers and words are taken as the longest
  run of their characters and then checked; strings are scanned for ill-formed
  escapes and raw control characters, and not decoded.
-/
import PocketCalc.Json.Text

namespace PocketCalc.Json

/-- A piece of JSON text. -/
inductive Lexeme where
  | leftBrace
  | rightBrace
  | leftBracket
  | rightBracket
  | comma
  | colon
  | string (text : List Char)
  /-- A number or one of the words null, true and false. -/
  | scalar (value : Json)

/-! ## §1. Characters. -/

/-- The blanks between lexemes. -/
def isBlank (c : Char) : Bool := c == ' ' || c == '\t' || c == '\n' || c == '\r'

/-- The lexeme of a punctuation character. -/
def punctuation? (c : Char) : Option Lexeme :=
  if c == '\x7b' then some .leftBrace
  else if c == '\x7d' then some .rightBrace
  else if c == '[' then some .leftBracket
  else if c == ']' then some .rightBracket
  else if c == ',' then some .comma
  else if c == ':' then some .colon
  else none

/-- The characters that a number is made of. -/
def isNumberChar (c : Char) : Bool :=
  c.isDigit || c == '-' || c == '+' || c == '.' || c == 'e' || c == 'E'

/-! ## §2. Numbers and words. -/

/-- Digits alone, at least one. -/
def isDigits (cs : List Char) : Bool := !cs.isEmpty && cs.all Char.isDigit

/-- The exponent part of a number, which may be missing. -/
def isExponent : List Char → Bool
  | [] => true
  | c :: cs =>
      (c == 'e' || c == 'E')
        && isDigits (if cs.head? == some '-' || cs.head? == some '+' then cs.drop 1 else cs)

/-- The fraction and the exponent part of a number, each of which may be
missing. -/
def isFraction : List Char → Bool
  | '.' :: cs =>
      isDigits (cs.takeWhile Char.isDigit) && isExponent (cs.dropWhile Char.isDigit)
  | cs => isExponent cs

/-- A number: an optional minus sign, digits without a needless zero in front,
then fraction and exponent. -/
def isNumber (cs : List Char) : Bool :=
  let body := if cs.head? == some '-' then cs.drop 1 else cs
  let whole := body.takeWhile Char.isDigit
  (whole == ['0'] || (isDigits whole && whole.head? != some '0'))
    && isFraction (body.dropWhile Char.isDigit)

/-- The value of a word. -/
def word? (cs : List Char) : Option Json :=
  if cs == ['n', 'u', 'l', 'l'] then some .null
  else if cs == ['t', 'r', 'u', 'e'] then some (.bool true)
  else if cs == ['f', 'a', 'l', 's', 'e'] then some (.bool false)
  else none

/-! ## §3. Strings. -/

/-- Scans a string behind its opening quote: the text up to the closing quote,
and what follows it. -/
def scanString : List Char → Option (List Char × List Char)
  | [] => none
  | '"' :: rest => some ([], rest)
  | '\\' :: 'u' :: a :: b :: c :: d :: rest =>
      if isHexDigit a && isHexDigit b && isHexDigit c && isHexDigit d then
        (scanString rest).map fun (t, r) => ('\\' :: 'u' :: a :: b :: c :: d :: t, r)
      else none
  | '\\' :: c :: rest =>
      if (escaped? c).isSome then (scanString rest).map fun (t, r) => ('\\' :: c :: t, r)
      else none
  | c :: rest =>
      if c.toNat < 32 then none else (scanString rest).map fun (t, r) => (c :: t, r)

theorem scanString_length {cs t r : List Char} (h : scanString cs = some (t, r)) :
    r.length < cs.length := by
  fun_induction scanString cs generalizing t r with
  | case1 => cases h
  | case2 rest =>
    cases h
    exact Nat.lt_succ_self _
  | case3 a b c d rest _ ih =>
    obtain ⟨⟨t', r'⟩, h', he⟩ := Option.map_eq_some_iff.1 h
    cases he
    have := ih h'
    simp only [List.length_cons]
    omega
  | case4 => cases h
  | case5 c rest _ _ ih =>
    obtain ⟨⟨t', r'⟩, h', he⟩ := Option.map_eq_some_iff.1 h
    cases he
    have := ih h'
    simp only [List.length_cons]
    omega
  | case6 => cases h
  | case7 => cases h
  | case8 c rest _ _ _ _ ih =>
    obtain ⟨⟨t', r'⟩, h', he⟩ := Option.map_eq_some_iff.1 h
    cases he
    have := ih h'
    simp only [List.length_cons]
    omega

/-! ## §4. The lexer. -/

/-- The lexemes of a text, or none if a piece of it is ill formed. -/
def lex (cs : List Char) : Option (List Lexeme) :=
  match cs with
  | [] => some []
  | c :: rest =>
      if isBlank c then lex rest
      else if let some l := punctuation? c then (lex rest).map (l :: ·)
      else if c == '"' then
        match _h : scanString rest with
        | some (t, r) => (lex r).map (.string t :: ·)
        | none => none
      else if isNumberChar c then
        let run := c :: rest.takeWhile isNumberChar
        if isNumber run then
          (lex (rest.dropWhile isNumberChar)).map (.scalar (.number run) :: ·)
        else none
      else
        match word? (c :: rest.takeWhile Char.isAlpha) with
        | some v => (lex (rest.dropWhile Char.isAlpha)).map (.scalar v :: ·)
        | none => none
termination_by cs.length
decreasing_by
  · simp only [List.length_cons]
    omega
  · simp only [List.length_cons]
    omega
  · have := scanString_length _h
    simp only [List.length_cons]
    omega
  · have := (List.dropWhile_sublist isNumberChar (l := rest)).length_le
    simp only [List.length_cons]
    omega
  · have := (List.dropWhile_sublist Char.isAlpha (l := rest)).length_le
    simp only [List.length_cons]
    omega

end PocketCalc.Json
