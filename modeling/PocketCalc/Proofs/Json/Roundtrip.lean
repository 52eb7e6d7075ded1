/-
  PocketCalc.Proofs.Json.Roundtrip
  ────────────────────────────────
  **WRITTEN JSON IS READ BACK.**

  Reading goes in two passes, and so does the proof: a value written out is cut
  into its lexemes, whatever stands behind it, and its lexemes take the machine
  from expecting a value to holding this value, whatever is open around it.

      lex_pretty       the lexemes of a written value
      run?_lexemes     the machine on the lexemes of a value
      parse?_pretty    both together
-/
import PocketCalc.Json.Parser
import PocketCalc.Json.Printer
import PocketCalc.Proofs.Json.Escape
import PocketCalc.Proofs.Sequence.Cutting

namespace PocketCalc.Json

/-! ## §1. Lexemes of a value. -/

mutual

/-- The lexemes of a value. -/
def lexemes : Json → List Lexeme
  | .null => [.scalar .null]
  | .bool b => [.scalar (.bool b)]
  | .number t => [.scalar (.number t)]
  | .string t => [.string t]
  | .list [] => [.leftBracket, .rightBracket]
  | .list (v :: vs) => .leftBracket :: (lexemes v ++ itemLexemes vs ++ [.rightBracket])
  | .object [] => [.leftBrace, .rightBrace]
  | .object ((k, v) :: ms) =>
      .leftBrace :: .string k :: .colon :: (lexemes v ++ memberLexemes ms ++ [.rightBrace])

/-- The lexemes of the items behind the first one. -/
def itemLexemes : List Json → List Lexeme
  | [] => []
  | v :: vs => .comma :: (lexemes v ++ itemLexemes vs)

/-- The lexemes of the members behind the first one. -/
def memberLexemes : List (List Char × Json) → List Lexeme
  | [] => []
  | (k, v) :: ms => .comma :: .string k :: .colon :: (lexemes v ++ memberLexemes ms)

end

/-! ## §2. The machine. -/

theorem run?_cons (s : State) (l : Lexeme) (ls : List Lexeme) :
    run? s (l :: ls) = (step? s l).bind fun s' => run? s' ls := rfl

/-- No value begins with a right bracket. -/
theorem lexemes_head (v : Json) : ∃ l ls, lexemes v = l :: ls ∧ l ≠ .rightBracket := by
  cases v with
  | list items =>
    cases items with
    | nil => exact ⟨_, _, rfl, fun h => nomatch h⟩
    | cons v vs => exact ⟨_, _, rfl, fun h => nomatch h⟩
  | object members =>
    cases members with
    | nil => exact ⟨_, _, rfl, fun h => nomatch h⟩
    | cons m ms =>
      obtain ⟨k, v⟩ := m
      exact ⟨_, _, rfl, fun h => nomatch h⟩
  | _ => exact ⟨_, _, rfl, fun h => nomatch h⟩

/-- The first item of a list is read like any other value. -/
theorem run?_firstItem (v : Json) (frames : List Frame) (ls : List Lexeme) :
    run? ⟨.firstItem, frames⟩ (lexemes v ++ ls)
      = run? ⟨.value, .list [] :: frames⟩ (lexemes v ++ ls) := by
  -- Only a right bracket would end the list here.
  obtain ⟨l, rest, h, hl⟩ := lexemes_head v
  rw [h, List.cons_append, run?_cons, run?_cons]
  have hstep : step? ⟨.firstItem, frames⟩ l = step? ⟨.value, .list [] :: frames⟩ l := by
    cases l with
    | rightBracket => exact absurd rfl hl
    | _ => rfl
  rw [hstep]

mutual

/-- **The lexemes of a value make the machine hold this value.** -/
theorem run?_lexemes : ∀ (v : Json) (frames : List Frame) (ls : List Lexeme),
    run? ⟨.value, frames⟩ (lexemes v ++ ls) = run? ⟨.done v, frames⟩ ls
  | .null, _, _ => rfl
  | .bool _, _, _ => rfl
  | .number _, _, _ => rfl
  | .string _, _, _ => rfl
  | .list [], _, _ => rfl
  | .list (v :: vs), frames, ls => by
    show run? ⟨.firstItem, frames⟩ (lexemes v ++ itemLexemes vs ++ [.rightBracket] ++ ls) = _
    rw [List.append_assoc, List.append_assoc, run?_firstItem, run?_lexemes v]
    exact run?_items vs v [] frames ls
  | .object [], _, _ => rfl
  | .object ((k, v) :: ms), frames, ls => by
    show run? ⟨.value, .member [] k :: frames⟩
      (lexemes v ++ memberLexemes ms ++ [.rightBrace] ++ ls) = _
    rw [List.append_assoc, List.append_assoc, run?_lexemes v]
    exact run?_members ms v k [] frames ls

/-- Behind an item the machine collects the other items, up to the bracket that closes the
list. -/
theorem run?_items : ∀ (vs : List Json) (v : Json) (items : List Json) (frames : List Frame)
    (ls : List Lexeme),
    run? ⟨.done v, .list items :: frames⟩ (itemLexemes vs ++ ([.rightBracket] ++ ls))
      = run? ⟨.done (.list ((v :: items).reverse ++ vs)), frames⟩ ls
  | [], v, items, frames, ls => by
    rw [List.append_nil]
    rfl
  | w :: vs, v, items, frames, ls => by
    show run? ⟨.value, .list (v :: items) :: frames⟩
      (lexemes w ++ itemLexemes vs ++ ([.rightBracket] ++ ls)) = _
    rw [List.append_assoc, run?_lexemes w, run?_items vs w (v :: items) frames ls,
      List.reverse_cons, List.append_assoc]
    rfl

/-- Behind a member it collects the other members, up to the brace that closes the object.
-/
theorem run?_members : ∀ (ms : List (List Char × Json)) (v : Json) (k : List Char)
    (members : List (List Char × Json)) (frames : List Frame) (ls : List Lexeme),
    run? ⟨.done v, .member members k :: frames⟩ (memberLexemes ms ++ ([.rightBrace] ++ ls))
      = run? ⟨.done (.object (((k, v) :: members).reverse ++ ms)), frames⟩ ls
  | [], v, k, members, frames, ls => by
    rw [List.append_nil]
    rfl
  | (k', w) :: ms, v, k, members, frames, ls => by
    show run? ⟨.value, .member ((k, v) :: members) k' :: frames⟩
      (lexemes w ++ memberLexemes ms ++ ([.rightBrace] ++ ls)) = _
    rw [List.append_assoc, run?_lexemes w, run?_members ms w k' ((k, v) :: members) frames ls,
      List.reverse_cons, List.append_assoc]
    rfl

end

/-! ## §3. The lexer on single pieces. -/

/-- Does whatever a number or a word is made of end in front of the text? -/
def Stops (rest : List Char) : Prop :=
  ∀ c, rest.head? = some c → isNumberChar c = false ∧ c.isAlpha = false

theorem stops_nil : Stops [] := fun _ h => nomatch h

theorem stops_cons {c : Char} (h : isNumberChar c = false ∧ c.isAlpha = false)
    (rest : List Char) : Stops (c :: rest) := by
  intro d hd
  cases hd
  exact h

/-- A number or a word ends in front of a line break. -/
theorem stops_newline (depth : Nat) (rest : List Char) : Stops (newline depth ++ rest) :=
  stops_cons (by decide) _

theorem lex_blank {c : Char} (h : isBlank c = true) (rest : List Char) :
    lex (c :: rest) = lex rest := by
  rw [lex, if_pos h]

/-- A line break and its indentation are skipped. -/
theorem lex_newline (depth : Nat) (rest : List Char) : lex (newline depth ++ rest) = lex rest := by
  show lex ('\n' :: (List.replicate (2 * depth) ' ' ++ rest)) = _
  rw [lex_blank rfl]
  induction 2 * depth with
  | zero => rfl
  | succ n ih =>
    rw [List.replicate_succ, List.cons_append, lex_blank rfl]
    exact ih

/-- A punctuation mark is a lexeme of its own. -/
theorem lex_punctuation {c : Char} {l : Lexeme} (hblank : isBlank c = false)
    (h : punctuation? c = some l) (rest : List Char) :
    lex (c :: rest) = (lex rest).map (l :: ·) := by
  rw [lex, if_neg (by simp [hblank]), h]

/-- A string text that ends at the first quote behind it. -/
def IsClosed (t : List Char) : Prop :=
  ∀ rest, scanString (t ++ '"' :: rest) = some (t, rest)

theorem isClosed_escape (cs : List Char) : IsClosed (escape cs) := scanString_escape cs

/-- A quoted text is one lexeme. -/
theorem lex_quote {t : List Char} (h : IsClosed t) (rest : List Char) :
    lex (quote t ++ rest) = (lex rest).map (.string t :: ·) := by
  have happend : quote t ++ rest = '"' :: (t ++ '"' :: rest) := by simp [quote]
  have hpunctuation : punctuation? '"' = none := rfl
  rw [happend, lex, if_neg (by decide), hpunctuation]
  dsimp only
  rw [if_pos (by decide)]
  split
  · next t' rest' hscan =>
    rw [h] at hscan
    cases hscan
    rfl
  · next hscan =>
    rw [h] at hscan
    cases hscan

/-- What a number is made of is neither blank, nor punctuation, nor a quote. -/
theorem isNumberChar_spec {c : Char} (h : isNumberChar c = true) :
    isBlank c = false ∧ punctuation? c = none ∧ (c == '"') = false := by
  have hne : ∀ d, isNumberChar d = false → (c == d) = false := by
    intro d hd
    rw [beq_eq_false_iff_ne]
    intro hcd
    rw [hcd, hd] at h
    cases h
  refine ⟨?_, ?_, hne _ rfl⟩
  · unfold isBlank
    rw [hne ' ' rfl, hne '\t' rfl, hne '\n' rfl, hne '\r' rfl]
    rfl
  · unfold punctuation?
    rw [hne '\x7b' rfl, hne '\x7d' rfl, hne '[' rfl, hne ']' rfl, hne ',' rfl, hne ':' rfl]
    rfl

/-- A number is one lexeme, if something else stands behind it. -/
theorem lex_number {t rest : List Char} (hnumber : isNumber t = true)
    (hchars : ∀ c ∈ t, isNumberChar c = true) (hrest : Stops rest) :
    lex (t ++ rest) = (lex rest).map (.scalar (.number t) :: ·) := by
  cases t with
  | nil => cases hnumber
  | cons c t =>
    obtain ⟨hblank, hpunctuation, hquote⟩ := isNumberChar_spec (hchars c List.mem_cons_self)
    obtain ⟨htake, hdrop⟩ := run_cut
      (fun d hd => hchars d (List.mem_cons_of_mem c hd)) (fun d hd => (hrest d hd).1)
    rw [List.cons_append, lex, if_neg (by simp [hblank]), hpunctuation]
    dsimp only
    rw [if_neg (by simp [hquote]), if_pos (hchars c List.mem_cons_self), htake, hdrop,
      if_pos hnumber]

/-- So is one of the words. -/
theorem lex_word {c : Char} {t rest : List Char} {v : Json}
    (hc : isBlank c = false ∧ punctuation? c = none ∧ (c == '"') = false
      ∧ isNumberChar c = false)
    (ht : t.all Char.isAlpha = true) (hword : word? (c :: t) = some v) (hrest : Stops rest) :
    lex (c :: t ++ rest) = (lex rest).map (.scalar v :: ·) := by
  obtain ⟨hblank, hpunctuation, hquote, hnumber⟩ := hc
  obtain ⟨htake, hdrop⟩ := run_cut (List.all_eq_true.1 ht)
    (fun d hd => (hrest d hd).2)
  rw [List.cons_append, lex, if_neg (by simp [hblank]), hpunctuation]
  dsimp only
  rw [if_neg (by simp [hquote]), if_neg (by simp [hnumber]), htake, hdrop, hword]

/-! ## §4. The lexer on written values. -/

mutual

/-- A value that is read as it is held: its numbers are numbers, and its strings
and keys end at the quote behind them. -/
def IsLegible : Json → Prop
  | .number t => isNumber t = true ∧ ∀ c ∈ t, isNumberChar c = true
  | .string t => IsClosed t
  | .list vs => AreLegible vs
  | .object ms => AreLegibleMembers ms
  | _ => True

/-- Every item is legible. -/
def AreLegible : List Json → Prop
  | [] => True
  | v :: vs => IsLegible v ∧ AreLegible vs

/-- Every member is legible, its key included. -/
def AreLegibleMembers : List (List Char × Json) → Prop
  | [] => True
  | (k, v) :: ms => IsClosed k ∧ IsLegible v ∧ AreLegibleMembers ms

end

theorem areLegible_iff (vs : List Json) : AreLegible vs ↔ ∀ v ∈ vs, IsLegible v := by
  induction vs with
  | nil => simp [AreLegible]
  | cons v vs ih => simp [AreLegible, ih]

/-- Behind an item comes a comma, or what stands behind the items. -/
theorem stops_prettyItems (depth : Nat) (vs : List Json) {rest : List Char} (h : Stops rest) :
    Stops (prettyItems depth vs ++ rest) := by
  cases vs with
  | nil => exact h
  | cons v vs => exact stops_cons (by decide) _

/-- The same behind a member. -/
theorem stops_prettyMembers (depth : Nat) (ms : List (List Char × Json)) {rest : List Char}
    (h : Stops rest) : Stops (prettyMembers depth ms ++ rest) := by
  cases ms with
  | nil => exact h
  | cons m ms => exact stops_cons (by decide) _

mutual

/-- **A written value is cut into its lexemes, whatever stands behind it.** -/
theorem lex_pretty : ∀ (v : Json) (depth : Nat) {rest : List Char}, IsLegible v → Stops rest →
    lex (pretty depth v ++ rest) = (lex rest).map (lexemes v ++ ·)
  | .null, _, _, _, hrest => lex_word (by decide) rfl rfl hrest
  | .bool true, _, _, _, hrest => lex_word (by decide) rfl rfl hrest
  | .bool false, _, _, _, hrest => lex_word (by decide) rfl rfl hrest
  | .number _, _, _, hv, hrest => lex_number hv.1 hv.2 hrest
  | .string _, _, rest, hv, _ => lex_quote hv rest
  | .list [], depth, rest, _, _ => by
    show lex ('[' :: ']' :: rest) = _
    rw [lex_punctuation rfl rfl, lex_punctuation rfl rfl, Option.map_map]
    rfl
  | .list (v :: vs), depth, rest, hv, hrest => by
    obtain ⟨hv, hvs⟩ := hv
    -- Behind every item comes a comma or a line break, where a number ends.
    have hend : Stops (newline depth ++ (']' :: rest)) := stops_newline _ _
    have htext : pretty depth (.list (v :: vs)) ++ rest
        = '[' :: (newline (depth + 1) ++ (pretty (depth + 1) v
          ++ (prettyItems (depth + 1) vs ++ (newline depth ++ (']' :: rest))))) := by
      simp [pretty]
    rw [htext, lex_punctuation rfl rfl, lex_newline,
      lex_pretty v (depth + 1) hv (stops_prettyItems (depth + 1) vs hend),
      lex_prettyItems vs (depth + 1) hvs hend, lex_newline, lex_punctuation rfl rfl]
    cases lex rest <;> simp [lexemes]
  | .object [], depth, rest, _, _ => by
    show lex ('\x7b' :: '\x7d' :: rest) = _
    rw [lex_punctuation rfl rfl, lex_punctuation rfl rfl, Option.map_map]
    rfl
  | .object ((k, v) :: ms), depth, rest, hv, hrest => by
    obtain ⟨hk, hv, hms⟩ := hv
    have hend : Stops (newline depth ++ ('\x7d' :: rest)) := stops_newline _ _
    have htext : pretty depth (.object ((k, v) :: ms)) ++ rest
        = '\x7b' :: (newline (depth + 1) ++ (quote k ++ (':' :: ' ' :: (pretty (depth + 1) v
          ++ (prettyMembers (depth + 1) ms ++ (newline depth ++ ('\x7d' :: rest))))))) := by
      simp [pretty]
    rw [htext, lex_punctuation rfl rfl, lex_newline, lex_quote hk, lex_punctuation rfl rfl,
      lex_blank rfl, lex_pretty v (depth + 1) hv (stops_prettyMembers (depth + 1) ms hend),
      lex_prettyMembers ms (depth + 1) hms hend, lex_newline, lex_punctuation rfl rfl]
    cases lex rest <;> simp [lexemes]

/-- The items behind the first one are cut into their lexemes. -/
theorem lex_prettyItems : ∀ (vs : List Json) (depth : Nat) {rest : List Char}, AreLegible vs →
    Stops rest → lex (prettyItems depth vs ++ rest) = (lex rest).map (itemLexemes vs ++ ·)
  | [], _, rest, _, _ => by
    show lex rest = (lex rest).map id
    rw [Option.map_id]
    rfl
  | v :: vs, depth, rest, hvs, hrest => by
    obtain ⟨hv, hvs⟩ := hvs
    have htext : prettyItems depth (v :: vs) ++ rest
        = ',' :: (newline depth ++ (pretty depth v ++ (prettyItems depth vs ++ rest))) := by
      simp [prettyItems]
    rw [htext, lex_punctuation rfl rfl, lex_newline,
      lex_pretty v depth hv (stops_prettyItems depth vs hrest), lex_prettyItems vs depth hvs hrest]
    cases lex rest <;> simp [itemLexemes]

/-- So are the members behind the first one. -/
theorem lex_prettyMembers : ∀ (ms : List (List Char × Json)) (depth : Nat) {rest : List Char},
    AreLegibleMembers ms → Stops rest →
    lex (prettyMembers depth ms ++ rest) = (lex rest).map (memberLexemes ms ++ ·)
  | [], _, rest, _, _ => by
    show lex rest = (lex rest).map id
    rw [Option.map_id]
    rfl
  | (k, v) :: ms, depth, rest, hms, hrest => by
    obtain ⟨hk, hv, hms⟩ := hms
    have htext : prettyMembers depth ((k, v) :: ms) ++ rest
        = ',' :: (newline depth ++ (quote k ++ (':' :: ' ' :: (pretty depth v
          ++ (prettyMembers depth ms ++ rest))))) := by
      simp [prettyMembers]
    rw [htext, lex_punctuation rfl rfl, lex_newline, lex_quote hk, lex_punctuation rfl rfl,
      lex_blank rfl, lex_pretty v depth hv (stops_prettyMembers depth ms hrest),
      lex_prettyMembers ms depth hms hrest]
    cases lex rest <;> simp [memberLexemes]

end

/-! ## §5. Both passes. -/

/-- **A legible value that is written out is read back.** -/
theorem parse?_pretty {v : Json} (h : IsLegible v) (depth : Nat) :
    parse? (pretty depth v) = some v := by
  have hlex : lex (pretty depth v) = some (lexemes v) := by
    have hpretty := lex_pretty v depth h stops_nil
    rw [List.append_nil, lex] at hpretty
    rw [hpretty, Option.map_some, List.append_nil]
  have hrun : run? ⟨.value, []⟩ (lexemes v) = some ⟨.done v, []⟩ := by
    have hlexemes := run?_lexemes v [] []
    rw [List.append_nil] at hlexemes
    exact hlexemes
  unfold parse?
  rw [hlex, Option.bind_some, hrun]

end PocketCalc.Json
