/-
  PocketCalc.Proofs.History.Roundtrip
  ───────────────────────────────────
  **STORED HISTORIES ARE READ BACK.**

  A history that is stored and read gives the same records with the same tokens
  in the same order.  A number may come back as another pair of a mantissa and a
  scale: it is stored as plain text, and what is read is in normal form.

      exists_decode_encode    every history is read back, its numbers normal
      isNormal_of_decode      whatever is read has normal numbers
      decode_encode           so reading, storing and reading is reading
-/
import PocketCalc.Proofs.Decimal.Rational
import PocketCalc.Proofs.History.Document

namespace PocketCalc

/-! ## §1. What comes back. -/

/-- Is it the same number, in normal form? -/
def Decimal.Restores (y x : Decimal) : Prop := y.IsNormal ∧ y.toRat = x.toRat

/-- Is it the same token, a number in normal form? -/
def Token.Restores : Token → Token → Prop
  | .number y, .number x => y.Restores x
  | t', t => t' = t

/-- Is it the same record token by token, its numbers in normal form? -/
structure Record.Restores (r' r : Record) : Prop where
  formula : List.Forall₂ Token.Restores r'.formula r.formula
  result : r'.result.Restores r.result

/-- Is it the same history record by record, its numbers in normal form? -/
def History.Restores (h' h : History) : Prop := List.Forall₂ Record.Restores h' h

/-- Are all numbers of the record in normal form? -/
structure Record.IsNormal (r : Record) : Prop where
  formula : ∀ t ∈ r.formula, t.IsNormal
  result : r.result.IsNormal

/-- Are all numbers of the history in normal form? -/
def History.IsNormal (h : History) : Prop := ∀ r ∈ h, r.IsNormal

/-! ## §2. Numbers that are normal already. -/

theorem Decimal.Restores.eq {y x : Decimal} (h : y.Restores x) (hx : x.IsNormal) : y = x :=
  h.1.eq hx h.2

theorem Token.Restores.eq {t' t : Token} (h : t'.Restores t) (ht : t.IsNormal) : t' = t := by
  unfold Token.Restores at h
  split at h
  · exact congrArg Token.number (Decimal.Restores.eq h ht)
  · exact h

/-- Lists are equal if they are related item by item, and the relation means
equality on these items. -/
theorem eq_of_forall₂ {α : Type} {R : α → α → Prop} {P : α → Prop}
    (heq : ∀ {y x}, R y x → P x → y = x) {ys xs : List α} (h : List.Forall₂ R ys xs)
    (hxs : ∀ x ∈ xs, P x) : ys = xs := by
  induction h with
  | nil => rfl
  | cons hyx _ ih =>
    rw [heq hyx (hxs _ List.mem_cons_self), ih fun x hx => hxs x (List.mem_cons_of_mem _ hx)]

theorem Record.Restores.eq {r' r : Record} (h : r'.Restores r) (hr : r.IsNormal) : r' = r := by
  obtain ⟨f', v'⟩ := r'
  obtain ⟨f, v⟩ := r
  have hformula : f' = f := eq_of_forall₂ Token.Restores.eq h.formula hr.formula
  have hresult : v' = v := h.result.eq hr.result
  rw [hformula, hresult]

/-- **What restores a history in normal form is this history.** -/
theorem History.Restores.eq {h' h : History} (hrestores : h'.Restores h) (hnormal : h.IsNormal) :
    h' = h := eq_of_forall₂ Record.Restores.eq hrestores hnormal

/-! ## §3. Reading item by item. -/

section

variable {ε α β : Type} {f : α → Except ε β}

/-- Two readings in a row succeed one after the other. -/
theorem exists_of_bind {x : Except ε α} {g : α → Except ε β} {b : β} (h : x >>= g = .ok b) :
    ∃ a, x = .ok a ∧ g a = .ok b := by
  cases x with
  | error e => cases h
  | ok a => exact ⟨a, rfl, h⟩

theorem mapM_cons_ok {x : α} {xs : List α} {y : β} {ys : List β} (hy : f x = .ok y)
    (hys : xs.mapM f = .ok ys) : (x :: xs).mapM f = .ok (y :: ys) := by
  rw [List.mapM_cons, hy, hys]
  rfl

theorem mapM_cons_cases {x : α} {xs : List α} {zs : List β} (h : (x :: xs).mapM f = .ok zs) :
    ∃ y ys, f x = .ok y ∧ xs.mapM f = .ok ys ∧ zs = y :: ys := by
  rw [List.mapM_cons] at h
  obtain ⟨y, hy, h⟩ := exists_of_bind h
  obtain ⟨ys, hys, h⟩ := exists_of_bind h
  cases h
  exact ⟨y, ys, hy, hys, rfl⟩

/-- Whatever item comes, it is read as one that is related to it: so is the list. -/
theorem exists_mapM {γ : Type} {g : γ → α} {R : β → γ → Prop}
    (h : ∀ x, ∃ y, f (g x) = .ok y ∧ R y x) (xs : List γ) :
    ∃ ys, (xs.map g).mapM f = .ok ys ∧ List.Forall₂ R ys xs := by
  induction xs with
  | nil => exact ⟨[], rfl, .nil⟩
  | cons x xs ih =>
    obtain ⟨y, hy, hR⟩ := h x
    obtain ⟨ys, hys, hRs⟩ := ih
    exact ⟨y :: ys, mapM_cons_ok hy hys, .cons hR hRs⟩

/-- What holds of every item that is read holds of all items of the list. -/
theorem forall_of_mapM {P : β → Prop} (hP : ∀ {x y}, f x = .ok y → P y) {xs : List α}
    {ys : List β} (h : xs.mapM f = .ok ys) : ∀ y ∈ ys, P y := by
  induction xs generalizing ys with
  | nil =>
    cases h
    exact fun _ hy => nomatch hy
  | cons x xs ih =>
    obtain ⟨y, ys, hy, hys, rfl⟩ := mapM_cons_cases h
    intro z hz
    rcases List.mem_cons.1 hz with hzy | hz
    · rw [hzy]
      exact hP hy
    · exact ih hys z hz

end

/-! ## §4. Storing and reading. -/

theorem Decimal.restores_normalized (x : Decimal) : x.normalized.Restores x :=
  ⟨isNormal_normalized x, toRat_normalized x⟩

/-- A stored number is read back, in normal form. -/
theorem readStoredDecimal_plainText (x : Decimal) :
    readStoredDecimal x.plainText = .ok x.normalized := by
  obtain ⟨y, hread, hy⟩ := x.read_plain
  have htext : Decimal.ofText? x.plainText = some y := by
    unfold Decimal.ofText? Decimal.plainText
    rw [String.toList_ofList, hread]
  unfold readStoredDecimal
  rw [htext]
  dsimp only
  rw [hy]

theorem exists_read_token (t : Token) :
    ∃ t', (StoredToken.ofToken t).token = .ok t' ∧ t'.Restores t := by
  cases t with
  | number x =>
    refine ⟨.number x.normalized, ?_, x.restores_normalized⟩
    show (readStoredDecimal x.plainText).map Token.number = _
    rw [readStoredDecimal_plainText]
    rfl
  | _ => exact ⟨_, rfl, rfl⟩

theorem exists_read_record (r : Record) :
    ∃ r', (StoredRecord.ofRecord r).record = .ok r' ∧ r'.Restores r := by
  obtain ⟨f, hf, hrestores⟩ := exists_mapM exists_read_token r.formula
  refine ⟨⟨f, r.result.normalized⟩, ?_, hrestores, r.result.restores_normalized⟩
  unfold StoredRecord.record StoredRecord.ofRecord
  dsimp only
  rw [hf, readStoredDecimal_plainText]
  rfl

/-- **Every history is read back, its numbers in normal form.** -/
theorem exists_decode_encode (h : History) :
    ∃ h', History.decode h.encode = .ok h' ∧ h'.Restores h := by
  obtain ⟨h', hread, hrestores⟩ := exists_mapM exists_read_record h
  refine ⟨h', ?_, hrestores⟩
  have hdocument : Document.ofText? (Document.ofHistory h).text = some (Document.ofHistory h) :=
    Document.ofText?_text (show formatVersion < Json.versionLimit by decide)
  unfold History.decode History.encode
  rw [hdocument]
  exact hread

/-! ## §5. Whatever is read. -/

theorem isNormal_of_readStoredDecimal {s : String} {x : Decimal}
    (h : readStoredDecimal s = .ok x) : x.IsNormal := by
  unfold readStoredDecimal at h
  split at h
  · cases h
    exact Decimal.isNormal_normalized _
  · cases h

theorem isNormal_of_token {s : StoredToken} {t : Token} (h : s.token = .ok t) : t.IsNormal := by
  cases s with
  | number s =>
    cases hread : readStoredDecimal s with
    | error e =>
      rw [StoredToken.token, hread] at h
      cases h
    | ok x =>
      rw [StoredToken.token, hread] at h
      cases h
      exact isNormal_of_readStoredDecimal hread
  | _ =>
    cases h
    trivial

theorem isNormal_of_record {s : StoredRecord} {r : Record} (h : s.record = .ok r) :
    r.IsNormal := by
  unfold StoredRecord.record at h
  obtain ⟨f, hformula, h⟩ := exists_of_bind h
  obtain ⟨v, hresult, h⟩ := exists_of_bind h
  cases h
  exact ⟨forall_of_mapM isNormal_of_token hformula, isNormal_of_readStoredDecimal hresult⟩

/-- **All numbers that are read are in normal form.** -/
theorem isNormal_of_decode {s : String} {h : History} (hread : History.decode s = .ok h) :
    h.IsNormal := by
  unfold History.decode at hread
  split at hread
  · unfold Document.history at hread
    split at hread
    · exact forall_of_mapM isNormal_of_record hread
    · cases hread
  · cases hread

/-! ## §6. The round trip. -/

/-- **A history that is stored is read back**: record by record and token by
token, every number in normal form and equal to the one that was stored, and
unchanged if all its numbers are normal.  So a history that was read from any text
is read again from the text that stores it. -/
theorem decode_encode :
    (∀ h : History, ∃ h', History.decode h.encode = .ok h' ∧ h'.Restores h
        ∧ (h.IsNormal → h' = h))
      ∧ ∀ (s : String) (h : History), History.decode s = .ok h →
          History.decode h.encode = .ok h := by
  constructor
  · intro h
    obtain ⟨h', hread, hrestores⟩ := exists_decode_encode h
    exact ⟨h', hread, hrestores, hrestores.eq⟩
  · intro s h hs
    -- What was read is in normal form, so it restores to itself.
    obtain ⟨h', hread, hrestores⟩ := exists_decode_encode h
    rw [hread, hrestores.eq (isNormal_of_decode hs)]

/-- A record of 1.2 is read back from the text that stores it, and from the text that
stores what was read. -/
theorem decode_encode_normal :
    History.IsNormal [⟨[.number ⟨12, 1⟩], ⟨12, 1⟩⟩]
      ∧ History.decode (History.encode [⟨[.number ⟨12, 1⟩], ⟨12, 1⟩⟩])
        = .ok [⟨[.number ⟨12, 1⟩], ⟨12, 1⟩⟩] := by
  have hnormal : History.IsNormal [⟨[.number ⟨12, 1⟩], ⟨12, 1⟩⟩] := by
    intro r hr
    cases List.mem_singleton.1 hr
    refine ⟨?_, by decide⟩
    intro t ht
    cases List.mem_singleton.1 ht
    show Decimal.IsNormal ⟨12, 1⟩
    decide
  obtain ⟨h', hread, -, heq⟩ := decode_encode.1 [⟨[.number ⟨12, 1⟩], ⟨12, 1⟩⟩]
  rw [heq hnormal] at hread
  exact ⟨hnormal, decode_encode.2 _ _ hread⟩

end PocketCalc
