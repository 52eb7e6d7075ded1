/-
  PocketCalc.Proofs.Json.Escape
  ─────────────────────────────
  **ESCAPED TEXTS ARE READ BACK.**

  A text is escaped character by character, and whatever stands behind it, each
  escape is scanned as a whole and stands for its character again.

      unescape_escape      an escaped text means the text
      scanString_escape    and it ends at its closing quote
-/
import PocketCalc.Json.Lexer

namespace PocketCalc.Json

/-! ## §1. Hexadecimal digits. -/

theorem hexDigit?_digitChar : ∀ n : Fin 16, hexDigit? (Nat.digitChar n) = some n.val := by
  decide

/-- A hexadecimal digit is read as the number it was written for. -/
theorem hexDigit?_of_lt {n : Nat} (h : n < 16) : hexDigit? (Nat.digitChar n) = some n :=
  hexDigit?_digitChar ⟨n, h⟩

/-- The four digits of a control character are its code. -/
theorem hexUnit_control {n : Nat} (h : n < 32) :
    hexUnit '0' '0' (Nat.digitChar (n / 16)) (Nat.digitChar (n % 16)) = n := by
  have hhigh := hexDigit?_of_lt (n := n / 16) (by omega)
  have hlow := hexDigit?_of_lt (n := n % 16) (by omega)
  have hzero : hexDigit? '0' = some 0 := by decide
  unfold hexUnit
  simp only [List.foldl_cons, List.foldl_nil, hhigh, hlow, hzero, Option.getD_some]
  omega

/-- They are hexadecimal digits. -/
theorem isHexDigit_control {n : Nat} (h : n < 32) :
    (isHexDigit '0' && isHexDigit '0' && isHexDigit (Nat.digitChar (n / 16))
      && isHexDigit (Nat.digitChar (n % 16))) = true := by
  have hzero : hexDigit? '0' = some 0 := by decide
  unfold isHexDigit
  rw [hexDigit?_of_lt (n := n / 16) (by omega), hexDigit?_of_lt (n := n % 16) (by omega), hzero]
  rfl

/-! ## §2. One character. -/

/-- A character is written as itself, with a backslash, or as a control character. -/
theorem escapeChar_cases (c : Char) :
    (escapeChar c = [c] ∧ c ≠ '"' ∧ c ≠ '\\' ∧ ¬ c.toNat < 32)
      ∨ (∃ x, escapeChar c = ['\\', x] ∧ x ≠ 'u' ∧ escaped? x = some c)
      ∨ (escapeChar c = escapeControl c ∧ c.toNat < 32) := by
  unfold escapeChar
  split
  case h_8 h1 h2 h3 h4 h5 h6 h7 =>
    split
    · next h => exact .inr (.inr ⟨rfl, h⟩)
    · next h => exact .inl ⟨rfl, h1, h2, h⟩
  all_goals exact .inr (.inl ⟨_, rfl, by decide, rfl⟩)

/-- Outside an escape a character means itself. -/
theorem unescape_cons {c : Char} (h : c ≠ '\\') (rest : List Char) :
    unescape (c :: rest) = (unescape rest).map (c :: ·) := by
  rw [unescape]
  · intro a b c' d rest' hc
    exact absurd hc h
  · intro c' rest' hc
    exact absurd hc h

/-- A backslash and a letter mean the character they were written for. -/
theorem unescape_backslash {x c : Char} (hx : x ≠ 'u') (h : escaped? x = some c)
    (rest : List Char) : unescape ('\\' :: x :: rest) = (unescape rest).map (c :: ·) := by
  rw [unescape, h]
  intro a b c' d rest' hu
  exact absurd hu hx

/-- A plain character does not end the text. -/
theorem scanString_cons {c : Char} (hquote : c ≠ '"') (hslash : c ≠ '\\') (h : ¬ c.toNat < 32)
    (rest : List Char) :
    scanString (c :: rest) = (scanString rest).map fun (t, r) => (c :: t, r) := by
  rw [scanString, if_neg h]
  · exact hquote
  · intro a b c' d rest' hc
    exact absurd hc hslash
  · intro c' rest' hc
    exact absurd hc hslash

/-- Nor does an escaped one, even if it is the quote. -/
theorem scanString_backslash {x c : Char} (hx : x ≠ 'u') (h : escaped? x = some c)
    (rest : List Char) :
    scanString ('\\' :: x :: rest)
      = (scanString rest).map fun (t, r) => ('\\' :: x :: t, r) := by
  rw [scanString, h]
  · rfl
  · intro a b c' d rest' hu
    exact absurd hu hx

/-- One escaped character means the character, whatever stands behind it. -/
theorem unescape_escapeChar (c : Char) (rest : List Char) :
    unescape (escapeChar c ++ rest) = (unescape rest).map (c :: ·) := by
  rcases escapeChar_cases c with ⟨h, -, hslash, -⟩ | ⟨x, h, hx, hescaped⟩ | ⟨h, hlt⟩
  · rw [h]
    exact unescape_cons hslash rest
  · rw [h]
    exact unescape_backslash hx hescaped rest
  · have hhigh : isHighSurrogate c.toNat = false := by
      unfold isHighSurrogate
      simp
      omega
    have hlow : isLowSurrogate c.toNat = false := by
      unfold isLowSurrogate
      simp
      omega
    rw [h]
    show unescape ('\\' :: 'u' :: '0' :: '0' :: Nat.digitChar (c.toNat / 16)
      :: Nat.digitChar (c.toNat % 16) :: rest) = _
    rw [unescape.eq_def]
    simp only [hexUnit_control hlt, hhigh, hlow, Char.ofNat_toNat, Bool.false_eq_true, if_false]

/-- One escaped character is scanned as a whole. -/
theorem scanString_escapeChar (c : Char) (rest : List Char) :
    scanString (escapeChar c ++ rest)
      = (scanString rest).map fun (t, r) => (escapeChar c ++ t, r) := by
  rcases escapeChar_cases c with ⟨h, hquote, hslash, hlt⟩ | ⟨x, h, hx, hescaped⟩ | ⟨h, hlt⟩
  · rw [h]
    exact scanString_cons hquote hslash hlt rest
  · rw [h]
    exact scanString_backslash hx hescaped rest
  · rw [h]
    show scanString ('\\' :: 'u' :: '0' :: '0' :: Nat.digitChar (c.toNat / 16)
      :: Nat.digitChar (c.toNat % 16) :: rest) = _
    rw [scanString, if_pos (isHexDigit_control hlt)]
    rfl

/-! ## §3. Whole texts. -/

/-- **An escaped text means the text.** -/
theorem unescape_escape (cs : List Char) : unescape (escape cs) = some cs := by
  induction cs with
  | nil => rfl
  | cons c cs ih =>
    show unescape (escapeChar c ++ escape cs) = _
    rw [unescape_escapeChar, ih]
    rfl

/-- **An escaped text ends at its closing quote.** -/
theorem scanString_escape (cs rest : List Char) :
    scanString (escape cs ++ '"' :: rest) = some (escape cs, rest) := by
  induction cs with
  | nil => rfl
  | cons c cs ih =>
    show scanString (escapeChar c ++ escape cs ++ '"' :: rest) = _
    rw [List.append_assoc, scanString_escapeChar, ih]
    rfl

theorem text?_ofText (s : String) : (ofText s).text? = some s := by
  show (unescape (escape s.toList)).map String.ofList = some s
  rw [unescape_escape, Option.map_some, String.ofList_toList]

end PocketCalc.Json
