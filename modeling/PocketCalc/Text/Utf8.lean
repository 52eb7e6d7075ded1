/-
  PocketCalc.Text.Utf8
  ────────────────────
  **READING DAMAGED UTF-8.**

  Bytes that are no UTF-8 can still be shown: every longest run of bytes that
  could have been the start of a character, and every byte that could not, shows
  as one replacement character.
-/

namespace PocketCalc.Text

/-- The character that stands for damaged bytes. -/
def replacement : Char := '\uFFFD'

/-- The ranges of the bytes that follow a lead byte; no byte follows if it leads
no sequence. -/
def tailRanges (lead : Nat) : List (Nat × Nat) :=
  let any := (0x80, 0xBF)
  if 0xC2 ≤ lead ∧ lead ≤ 0xDF then [any]
  else if lead = 0xE0 then [(0xA0, 0xBF), any]
  else if lead = 0xED then [(0x80, 0x9F), any]
  else if 0xE1 ≤ lead ∧ lead ≤ 0xEF then [any, any]
  else if lead = 0xF0 then [(0x90, 0xBF), any, any]
  else if 0xF1 ≤ lead ∧ lead ≤ 0xF3 then [any, any, any]
  else if lead = 0xF4 then [(0x80, 0x8F), any, any]
  else []

/-- The bytes at the start of `bytes` that fit the ranges one by one. -/
def fitting : List (Nat × Nat) → List Nat → List Nat
  | (first, last) :: ranges, b :: bytes =>
      if first ≤ b ∧ b ≤ last then b :: fitting ranges bytes else []
  | _, _ => []

/-- The character of a complete sequence. -/
def sequenceChar (lead : Nat) (tail : List Nat) : Char :=
  let bits := if tail.length = 1 then lead - 0xC0 else if tail.length = 2 then lead - 0xE0
    else lead - 0xF0
  Char.ofNat (tail.foldl (fun n b => 64 * n + (b - 0x80)) bits)

/-- The characters of some bytes, damaged ones replaced. -/
def decodeLossy (bytes : List Nat) : List Char :=
  match bytes with
  | [] => []
  | lead :: rest =>
      if lead < 0x80 then Char.ofNat lead :: decodeLossy rest
      else
        let ranges := tailRanges lead
        let tail := fitting ranges rest
        let c :=
          if ranges ≠ [] ∧ tail.length = ranges.length then sequenceChar lead tail
          else replacement
        c :: decodeLossy (rest.drop tail.length)
termination_by bytes.length
decreasing_by
  · simp only [List.length_cons]
    omega
  · simp only [List.length_cons, List.length_drop]
    omega

end PocketCalc.Text
