/-
  PocketCalc.Proofs.History.Decoding
  ──────────────────────────────────
  **WHAT A DOCUMENT IS READ AS.**

  The version of a document is looked at first.  Then its decimals are read in the
  order in which they stand there: record by record, the numbers of a formula
  before the result.  The first one that is refused decides; if none is, all
  records are read, each with all its tokens.

  A reading goes along a list of texts if the first of them that is no decimal is
  what it refuses, and it succeeds if there is none (`ReadsAlong`).  Two readings in
  a row go along the texts of the one and then those of the other
  (`ReadsAlong.bind`), so the order of the texts follows the order of the reading.

      readsAlong_records   the records of a document are read along its decimals
      decode_in_order      so a text is refused or read as its document says
-/
import PocketCalc.Proofs.History.Roundtrip

namespace PocketCalc

/-! ## §1. The decimals of a document, in order. -/

/-- The decimal of a stored token, if it is a number. -/
def StoredToken.decimals : StoredToken → List String
  | .number s => [s]
  | _ => []

/-- The decimals of a stored record: the numbers of its formula, then its result. -/
def StoredRecord.decimals (r : StoredRecord) : List String :=
  r.formula.flatMap StoredToken.decimals ++ [r.result]

/-- The decimals of a document, record by record. -/
def Document.decimals (d : Document) : List String := d.records.flatMap StoredRecord.decimals

/-- Is the text no decimal? -/
def isRefused (s : String) : Bool := (Decimal.ofText? s).isNone

/-! ## §2. What is read. -/

/-- Is it the number that the text writes, in normal form? -/
structure Decimal.IsReadFrom (v : Decimal) (s : String) : Prop where
  normal : v.IsNormal
  number : (Decimal.ofText? s).map Decimal.toRat = some v.toRat

/-- Is it the stored token, a number read from its text? -/
inductive Token.IsReadFrom : Token → StoredToken → Prop
  | number {v : Decimal} {s : String} (h : v.IsReadFrom s) :
      Token.IsReadFrom (.number v) (.number s)
  | constant (c : Constant) : Token.IsReadFrom (.constant c) (.constant c)
  | operator (op : Operator) : Token.IsReadFrom (.operator op) (.operator op)
  | leftBracket : Token.IsReadFrom .leftBracket .leftBracket
  | rightBracket : Token.IsReadFrom .rightBracket .rightBracket
  | point : Token.IsReadFrom .point .point

/-- Is it the stored record, token by token? -/
structure Record.IsReadFrom (r : Record) (s : StoredRecord) : Prop where
  formula : List.Forall₂ Token.IsReadFrom r.formula s.formula
  result : r.result.IsReadFrom s.result

/-- Is it the history that the document stores, record by record? -/
def History.IsReadFrom (h : History) (d : Document) : Prop :=
  List.Forall₂ Record.IsReadFrom h d.records

/-! ## §3. Reading along texts. -/

section

variable {α β : Type} {texts more : List String} {P : α → Prop} {Q : β → Prop}

/-- Does the first of the texts that is no decimal decide what is read?  Without
such a text something with the property is read. -/
def ReadsAlong (x : Except HistoryError α) (texts : List String) (P : α → Prop) : Prop :=
  match texts.find? isRefused with
  | some s => x = .error (.unreadableDecimal s)
  | none => ∃ a, x = .ok a ∧ P a

theorem ReadsAlong.ok {a : α} (ha : P a) : ReadsAlong (.ok a) [] P := ⟨a, rfl, ha⟩

/-- Two readings in a row go along the texts of both, one after the other. -/
theorem ReadsAlong.bind {x : Except HistoryError α} {g : α → Except HistoryError β}
    (hx : ReadsAlong x texts P) (hg : ∀ a, P a → ReadsAlong (g a) more Q) :
    ReadsAlong (x >>= g) (texts ++ more) Q := by
  unfold ReadsAlong at hx ⊢
  rw [List.find?_append]
  cases hfirst : texts.find? isRefused with
  | some s =>
    rw [hfirst] at hx
    rw [hx]
    rfl
  | none =>
    rw [hfirst] at hx
    obtain ⟨a, rfl, ha⟩ := hx
    exact hg a ha

theorem ReadsAlong.map {x : Except HistoryError α} {f : α → β} (hx : ReadsAlong x texts P)
    (hf : ∀ a, P a → Q (f a)) : ReadsAlong (x >>= fun a => .ok (f a)) texts Q := by
  have h := hx.bind fun a ha => ReadsAlong.ok (hf a ha)
  rwa [List.append_nil] at h

/-- The items of a list are read along the texts of the first item, the second, and
so on. -/
theorem ReadsAlong.mapM {f : α → Except HistoryError β} {texts : α → List String}
    {R : β → α → Prop} (h : ∀ x, ReadsAlong (f x) (texts x) fun y => R y x) (xs : List α) :
    ReadsAlong (xs.mapM f) (xs.flatMap texts) fun ys => List.Forall₂ R ys xs := by
  induction xs with
  | nil => exact .ok .nil
  | cons x xs ih =>
    rw [List.mapM_cons, List.flatMap_cons]
    exact (h x).bind fun y hy => ih.map fun ys hys => .cons hy hys

/-- What a reading along texts succeeds with has the property, and all texts are
decimals. -/
theorem ReadsAlong.of_ok {x : Except HistoryError α} (hx : ReadsAlong x texts P) {a : α}
    (ha : x = .ok a) : texts.find? isRefused = none ∧ P a := by
  unfold ReadsAlong at hx
  split at hx
  · next s hs =>
    rw [ha] at hx
    cases hx
  · next hnone =>
    obtain ⟨b, hb, hP⟩ := hx
    rw [ha] at hb
    cases hb
    exact ⟨hnone, hP⟩

end

/-! ## §4. Reading documents. -/

theorem readsAlong_decimal (s : String) :
    ReadsAlong (readStoredDecimal s) [s] fun v => v.IsReadFrom s := by
  unfold ReadsAlong readStoredDecimal
  rw [List.find?_singleton, isRefused]
  cases hs : Decimal.ofText? s with
  | none => rfl
  | some x =>
    refine ⟨x.normalized, rfl, x.isNormal_normalized, ?_⟩
    rw [hs, Option.map_some, x.toRat_normalized]

theorem readsAlong_token (t : StoredToken) :
    ReadsAlong t.token t.decimals fun u => u.IsReadFrom t := by
  cases t with
  | number s =>
    show ReadsAlong (readStoredDecimal s >>= fun v => .ok (Token.number v)) [s] _
    exact (readsAlong_decimal s).map fun v hv => .number hv
  | constant c => exact .ok (.constant c)
  | operator op => exact .ok (.operator op)
  | leftBracket => exact .ok .leftBracket
  | rightBracket => exact .ok .rightBracket
  | point => exact .ok .point

theorem readsAlong_record (r : StoredRecord) :
    ReadsAlong r.record r.decimals fun s => s.IsReadFrom r := by
  -- The formula is read before the result, as its numbers come first.
  refine (ReadsAlong.mapM readsAlong_token r.formula).bind fun f hf => ?_
  exact (readsAlong_decimal r.result).map fun v hv => ⟨hf, hv⟩

/-- **The records of a document are read along its decimals.** -/
theorem readsAlong_records (d : Document) :
    ReadsAlong (d.records.mapM StoredRecord.record) d.decimals
      fun (h : History) => h.IsReadFrom d :=
  ReadsAlong.mapM readsAlong_record d.records

/-! ## §5. Reading texts. -/

theorem decode_of_ofText? {s : String} {d : Document} (h : Document.ofText? s = some d) :
    History.decode s = d.history := by
  unfold History.decode
  rw [h]

theorem history_of_version {d : Document} (h : d.version = formatVersion) :
    d.history = d.records.mapM StoredRecord.record := if_pos h

theorem history_of_other_version {d : Document} (h : d.version ≠ formatVersion) :
    d.history = .error (.unsupportedVersion d.version) := if_neg h

/-- **A text that is a document is refused for its version, whatever its decimals are;
or else for the first of its decimals that is refused, in document order; or else it is
read as a whole.**  So whatever is read has all the records, each with all its tokens. -/
theorem decode_in_order {s : String} {d : Document} (hd : Document.ofText? s = some d) :
    (d.version ≠ formatVersion → History.decode s = .error (.unsupportedVersion d.version))
      ∧ (∀ t, d.version = formatVersion → d.decimals.find? isRefused = some t →
          History.decode s = .error (.unreadableDecimal t))
      ∧ (d.version = formatVersion → d.decimals.find? isRefused = none →
          ∃ h, History.decode s = .ok h ∧ h.IsReadFrom d)
      ∧ ∀ h, History.decode s = .ok h →
          d.version = formatVersion ∧ d.decimals.find? isRefused = none ∧ h.IsReadFrom d := by
  have hread := readsAlong_records d
  rw [decode_of_ofText? hd]
  refine ⟨history_of_other_version, ?_, ?_, ?_⟩
  · intro t hversion ht
    rw [history_of_version hversion]
    unfold ReadsAlong at hread
    rw [ht] at hread
    exact hread
  · intro hversion hnone
    rw [history_of_version hversion]
    unfold ReadsAlong at hread
    rw [hnone] at hread
    exact hread
  · intro h hh
    by_cases hversion : d.version = formatVersion
    · rw [history_of_version hversion] at hh
      exact ⟨hversion, hread.of_ok hh⟩
    · rw [history_of_other_version hversion] at hh
      cases hh

/-- Two records, the second without any readable decimal. -/
def unreadableSecond : Document := ⟨1, [⟨[.number "1.50"], "1e2"⟩, ⟨[.number "douze"], ""⟩]⟩

/-- The number of the second formula decides, for it stands in front of the result. -/
theorem decode_in_order_second :
    Document.ofText? unreadableSecond.text = some unreadableSecond
      ∧ unreadableSecond.decimals = ["1.50", "1e2", "douze", ""]
      ∧ History.decode unreadableSecond.text = .error (.unreadableDecimal "douze") := by
  have hd : Document.ofText? unreadableSecond.text = some unreadableSecond :=
    Document.ofText?_text (show 1 < Json.versionLimit by decide)
  have hfirst : unreadableSecond.decimals.find? isRefused = some "douze" := by decide +kernel
  exact ⟨hd, rfl, (decode_in_order hd).2.1 "douze" rfl hfirst⟩

end PocketCalc
