/-
  PocketCalc.Proofs.History.Document
  ──────────────────────────────────
  **WRITTEN DOCUMENTS ARE READ BACK.**

  A document is written as an object of two fields, and so are its records and
  their tokens.  Each of them is legible JSON and gives back what it was made of;
  its two fields are found again because their keys differ.

      document?_ofDocument    a document as JSON gives the document back
      ofText?_text            and so does its text
-/
import PocketCalc.History.Document
import PocketCalc.Proofs.Decimal.Numeral
import PocketCalc.Proofs.Json.Roundtrip

namespace PocketCalc

namespace Json

/-! ## §1. Objects of fields. -/

/-- An object of fields is legible if the values are: keys are always escaped. -/
theorem isLegible_ofFields (fields : List (String × Json))
    (h : ∀ k v, (k, v) ∈ fields → IsLegible v) : IsLegible (ofFields fields) := by
  unfold ofFields IsLegible
  induction fields with
  | nil => trivial
  | cons field fields ih =>
    obtain ⟨k, v⟩ := field
    refine ⟨isClosed_escape _, h k v List.mem_cons_self, ih ?_⟩
    intro k' v' hmem
    exact h k' v' (List.mem_cons_of_mem _ hmem)

/-- An object of two fields is legible if the two values are. -/
theorem isLegible_pair {first second : String} {x y : Json} (hx : IsLegible x)
    (hy : IsLegible y) : IsLegible (ofFields [(first, x), (second, y)]) := by
  refine isLegible_ofFields _ ?_
  intro k v h
  rcases List.mem_cons.1 h with h | h
  · cases h
    exact hx
  · cases List.mem_singleton.1 h
    exact hy

theorem isLegible_ofText (s : String) : IsLegible (ofText s) := isClosed_escape _

/-- Reading item by item what was written item by item. -/
theorem mapM_map_some {α β : Type} {read : β → Option α} {write : α → β}
    (h : ∀ x, read (write x) = some x) (xs : List α) : (xs.map write).mapM read = some xs := by
  induction xs with
  | nil => rfl
  | cons x xs ih =>
    rw [List.map_cons, List.mapM_cons, h, ih]
    rfl

/-- The keys of an object are read back with their values. -/
theorem fields?_ofFields (fields : List (String × Json)) :
    fields? (fields.map fun (k, v) => (escape k.toList, v)) = some fields := by
  unfold fields?
  refine mapM_map_some ?_ fields
  intro (k, v)
  show (unescape (escape k.toList)).map (fun key => (String.ofList key, v)) = _
  rw [unescape_escape, Option.map_some, String.ofList_toList]

/-- The two fields of an object are found by their keys. -/
theorem pair?_ofFields {first second : String} (hne : first ≠ second) (x y : Json) :
    pair? first second (ofFields [(first, x), (second, y)]) = some (x, y) := by
  have hfirst : unique? first [(first, x), (second, y)] = some x := by
    unfold unique?
    simp [hne.symm]
  have hsecond : unique? second [(first, x), (second, y)] = some y := by
    unfold unique?
    simp [hne]
  unfold ofFields pair?
  dsimp only
  rw [fields?_ofFields, Option.bind_eq_bind, Option.bind_some, hfirst]
  simp only [hsecond]
  rfl

/-! ## §2. Tokens. -/

/-- A token is written legibly. -/
theorem isLegible_ofStoredToken (t : StoredToken) : IsLegible (ofStoredToken t) :=
  isLegible_pair (isLegible_ofText _) (isLegible_ofText _)

theorem name?_ofText (isEmpty : Json → Bool) (s : String) :
    name? isEmpty (ofText s) = some s := text?_ofText s

/-- Every token that is no number is found by its kind and its name. -/
theorem symbol?_spec {t : StoredToken} (h : ∀ s, t ≠ .number s) :
    t.kind ≠ StoredToken.numberKind ∧ StoredToken.symbol? t.kind t.name = some t := by
  cases t with
  | number s => exact absurd rfl (h s)
  | constant c => cases c <;> decide
  | operator op => cases op <;> decide
  | _ => decide

/-- The kind is written in front of the value. -/
theorem valueFirst_ofStoredToken (t : StoredToken) : valueFirst (ofStoredToken t) = false := by
  unfold valueFirst ofStoredToken ofFields
  dsimp only
  rw [fields?_ofFields]
  rfl

/-- A token is found again by its kind and its name. -/
theorem tokenOfKind?_ofText (t : StoredToken) :
    tokenOfKind? t.kind isNull (ofText t.name) = some t := by
  -- A number is its own name; every other token is looked up.
  by_cases h : ∃ s, t = .number s
  · obtain ⟨s, rfl⟩ := h
    show (ofText s).text?.map StoredToken.number = _
    rw [text?_ofText]
    rfl
  · obtain ⟨hkind, hsymbol⟩ := symbol?_spec (t := t) fun s hs => h ⟨s, hs⟩
    unfold tokenOfKind?
    rw [if_neg (by simpa using hkind), name?_ofText, Option.bind_some, hsymbol]

/-- A token as JSON gives the token back. -/
theorem storedToken?_ofStoredToken (t : StoredToken) :
    storedToken? (ofStoredToken t) = some t := by
  have hpair : pair? "type" "valeur" (ofStoredToken t) = some (ofText t.kind, ofText t.name) :=
    pair?_ofFields (by decide) _ _
  unfold storedToken?
  rw [hpair]
  simp only [Option.bind_eq_bind, Option.bind_some, name?_ofText, valueFirst_ofStoredToken,
    Bool.false_eq_true, if_false, tokenOfKind?_ofText]

/-! ## §3. Lists of parts. -/

section

variable {α : Type} {read : Json → Option α} {write : α → Json}

/-- A list of legible parts is legible. -/
theorem isLegible_map (h : ∀ x, IsLegible (write x)) (xs : List α) :
    IsLegible (.list (xs.map write)) := by
  refine (areLegible_iff _).2 ?_
  intro v hv
  obtain ⟨x, -, rfl⟩ := List.mem_map.1 hv
  exact h x

/-- A list is read back if each of its parts is. -/
theorem list?_map (h : ∀ x, read (write x) = some x) (xs : List α) :
    list? read (.list (xs.map write)) = some xs := mapM_map_some h xs

end

theorem isLegible_ofStoredRecord (r : StoredRecord) : IsLegible (ofStoredRecord r) :=
  isLegible_pair (isLegible_map isLegible_ofStoredToken r.formula) (isLegible_ofText _)

/-- A record as JSON gives the record back. -/
theorem storedRecord?_ofStoredRecord (r : StoredRecord) :
    storedRecord? (ofStoredRecord r) = some r := by
  have hpair : pair? "formule" "resultat" (ofStoredRecord r)
      = some (.list (r.formula.map ofStoredToken), ofText r.result) :=
    pair?_ofFields (by decide) _ _
  unfold storedRecord?
  rw [hpair]
  simp only [Option.bind_eq_bind, Option.bind_some, list?_map storedToken?_ofStoredToken,
    text?_ofText]
  rfl

/-! ## §4. Documents. -/

theorem isNumberChar_of_isDigit {c : Char} (h : c.isDigit = true) : isNumberChar c = true := by
  unfold isNumberChar
  rw [h]
  rfl

/-- Digits without a needless zero in front are a number. -/
theorem isNumber_digits (n : Nat) : isNumber (digits n) = true := by
  have hdigits := areDigits_digits n
  have hne := digits_ne_nil n
  have hsign : (digits n).head? ≠ some '-' := by
    intro h
    exact absurd (hdigits '-' (List.mem_of_head? h)) (by decide)
  obtain ⟨htake, hdrop⟩ := run_whole hdigits
  have hall : isDigits (digits n) = true := by
    unfold isDigits
    have hall : (digits n).all Char.isDigit = true := List.all_eq_true.2 hdigits
    simp [hall, hne]
  unfold isNumber
  simp only [beq_iff_eq, if_neg hsign, htake, hdrop]
  by_cases h0 : n = 0
  · rw [h0]
    decide
  · have hhead := head?_digits h0
    simp [hall, hhead, isFraction, isExponent]

/-- A document is written legibly. -/
theorem isLegible_ofDocument (d : Document) : IsLegible (ofDocument d) := by
  refine isLegible_pair ⟨isNumber_digits d.version, ?_⟩
    (isLegible_map isLegible_ofStoredRecord d.records)
  intro c hc
  exact isNumberChar_of_isDigit (areDigits_digits d.version c hc)

/-- **A document as JSON gives the document back.** -/
theorem document?_ofDocument {d : Document} (h : d.version < versionLimit) :
    document? (ofDocument d) = some d := by
  have hpair : pair? "version" "calculs" (ofDocument d)
      = some (.number (digits d.version), .list (d.records.map ofStoredRecord)) :=
    pair?_ofFields (by decide) _ _
  have hversion : version? (.number (digits d.version)) = some d.version := by
    unfold version?
    dsimp only
    rw [Decimal.readDigits_digits]
    exact if_pos h
  unfold document?
  rw [hpair]
  simp only [Option.bind_eq_bind, Option.bind_some, hversion,
    list?_map storedRecord?_ofStoredRecord]
  rfl

end Json

/-- **The text of a document gives the document back.** -/
theorem Document.ofText?_text {d : Document} (h : d.version < Json.versionLimit) :
    Document.ofText? d.text = some d := by
  unfold Document.ofText? Document.text
  rw [String.toList_ofList, Json.parse?_pretty (Json.isLegible_ofDocument d), Option.bind_some,
    Json.document?_ofDocument h]

end PocketCalc
