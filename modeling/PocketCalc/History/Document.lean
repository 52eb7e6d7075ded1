/-
  PocketCalc.History.Document
  ───────────────────────────
  **THE STORED DOCUMENT.**

  A history is stored as a JSON document: a version and the list of the
  calculations, each with its formula and its result.  A token is a kind and a
  value; decimals are stored as plain text.

  Reading goes in three steps, and the first failure decides: the text must be a
  document; its version must be the one written here; and every decimal must be
  readable, record by record, the formula before the result.
-/
import PocketCalc.History.Record
import PocketCalc.Json.Parser
import PocketCalc.Json.Printer
import PocketCalc.Text.Quoted

namespace PocketCalc

/-! ## §1. Documents. -/

/-- A token as it is stored: a number is text that may be no decimal at all. -/
inductive StoredToken where
  | number (text : String)
  | constant (name : Constant)
  | operator (op : Operator)
  | leftBracket
  | rightBracket
  | point
  deriving DecidableEq, Repr

/-- A record as it is stored. -/
structure StoredRecord where
  formula : List StoredToken
  result : String
  deriving DecidableEq, Repr

/-- A document, whatever its version. -/
structure Document where
  version : Nat
  records : List StoredRecord
  deriving DecidableEq, Repr

/-- The version of the documents written here. -/
def formatVersion : Nat := 1

/-- Why a stored history cannot be read. -/
inductive HistoryError where
  /-- No file is there. -/
  | absent
  /-- The file cannot be read as text. -/
  | inaccessible
  /-- The text is no document. -/
  | malformed
  | unsupportedVersion (version : Nat)
  | unreadableDecimal (text : String)
  deriving DecidableEq, Repr

/-- What is wrong with a document of the right form; nothing is said about the
other failures. -/
def HistoryError.message : HistoryError → String
  | .unsupportedVersion n => "version d’historique non prise en charge: " ++ toString n
  | .unreadableDecimal s => "décimal illisible dans l’historique: " ++ Text.quoted s
  | _ => ""

/-! ## §2. From histories to documents and back. -/

/-- A token as it is stored. -/
def StoredToken.ofToken : Token → StoredToken
  | .number v => .number v.plainText
  | .constant c => .constant c
  | .operator op => .operator op
  | .leftBracket => .leftBracket
  | .rightBracket => .rightBracket
  | .point => .point

/-- A record as it is stored. -/
def StoredRecord.ofRecord (r : Record) : StoredRecord :=
  ⟨r.formula.map StoredToken.ofToken, r.result.plainText⟩

/-- The document of a history. -/
def Document.ofHistory (h : History) : Document :=
  ⟨formatVersion, h.map StoredRecord.ofRecord⟩

/-- A stored decimal, in normal form. -/
def readStoredDecimal (s : String) : Except HistoryError Decimal :=
  match Decimal.ofText? s with
  | some v => .ok v.normalized
  | none => .error (.unreadableDecimal s)

/-- The token that is stored. -/
def StoredToken.token : StoredToken → Except HistoryError Token
  | .number s => (readStoredDecimal s).map Token.number
  | .constant c => .ok (.constant c)
  | .operator op => .ok (.operator op)
  | .leftBracket => .ok .leftBracket
  | .rightBracket => .ok .rightBracket
  | .point => .ok .point

/-- The record that is stored: the formula is read before the result. -/
def StoredRecord.record (r : StoredRecord) : Except HistoryError Record := do
  let formula ← r.formula.mapM StoredToken.token
  let result ← readStoredDecimal r.result
  return ⟨formula, result⟩

/-- The history that a document stores. -/
def Document.history (d : Document) : Except HistoryError History :=
  if d.version = formatVersion then d.records.mapM StoredRecord.record
  else .error (.unsupportedVersion d.version)

/-! ## §3. The names of tokens. -/

namespace StoredToken

/-- The kind of numbers. -/
def numberKind : String := "nombre"

/-- The kind of a token. -/
def kind : StoredToken → String
  | .number _ => numberKind
  | .constant _ => "constante"
  | .operator _ => "operateur"
  | .leftBracket | .rightBracket | .point => "separateur"

/-- The name of a token among those of its kind; a number is its own name. -/
def name : StoredToken → String
  | .number s => s
  | .constant .pi => "pi"
  | .constant .e => "e"
  | .operator .plus => "plus"
  | .operator .minus => "moins"
  | .operator .times => "fois"
  | .operator .divide => "divise"
  | .operator .factorial => "factorielle"
  | .leftBracket => "parenthese_gauche"
  | .rightBracket => "parenthese_droite"
  | .point => "virgule"

/-- All tokens but the numbers. -/
def symbols : List StoredToken :=
  [.constant .pi, .constant .e, .operator .plus, .operator .minus, .operator .times,
    .operator .divide, .operator .factorial, .leftBracket, .rightBracket, .point]

/-- The token of the given kind and name that is no number. -/
def symbol? (kind name : String) : Option StoredToken :=
  symbols.find? fun t => t.kind == kind && t.name == name

end StoredToken

/-! ## §4. Documents as JSON. -/

namespace Json

/-- An object whose keys are plain texts. -/
def ofFields (fields : List (String × Json)) : Json :=
  .object (fields.map fun (k, v) => (escape k.toList, v))

/-- A stored token. -/
def ofStoredToken (t : StoredToken) : Json :=
  ofFields [("type", ofText t.kind), ("valeur", ofText t.name)]

/-- A stored record. -/
def ofStoredRecord (r : StoredRecord) : Json :=
  ofFields [("formule", .list (r.formula.map ofStoredToken)), ("resultat", ofText r.result)]

/-- A document. -/
def ofDocument (d : Document) : Json :=
  ofFields [("version", .number (digits d.version)),
    ("calculs", .list (d.records.map ofStoredRecord))]

/-! ## §5. Reading documents. -/

/-- The members of an object, its keys decoded. -/
def fields? (members : List (List Char × Json)) : Option (List (String × Json)) :=
  members.mapM fun (k, v) => (unescape k).map fun key => (String.ofList key, v)

/-- The value of a key that stands in an object exactly once. -/
def unique? (key : String) (fields : List (String × Json)) : Option Json :=
  match fields.filter fun (k, _) => k == key with
  | [(_, v)] => some v
  | _ => none

/-- Two named values: the fields of an object, where other fields are ignored, or
a list of just these two. -/
def pair? (first second : String) : Json → Option (Json × Json)
  | .list [x, y] => some (x, y)
  | .object members => do
      let fields ← fields? members
      let x ← unique? first fields
      let y ← unique? second fields
      return (x, y)
  | _ => none

/-- Is the value null? -/
def isNull : Json → Bool
  | .null => true
  | _ => false

/-- Is the value null, or an object without members? -/
def isNullOrEmpty : Json → Bool
  | .null | .object [] => true
  | _ => false

/-- A name: a text, or the only key of an object whose value counts as empty. -/
def name? (isEmpty : Json → Bool) : Json → Option String
  | .object [(k, v)] => if isEmpty v then (unescape k).map String.ofList else none
  | v => v.text?

/-- Does the value of a token stand in front of its kind?  The value is then read
last, and an empty object counts as empty in it, too. -/
def valueFirst : Json → Bool
  | .object members =>
      match fields? members with
      | some fields =>
          (fields.find? fun (k, _) => k == "type" || k == "valeur").any fun (k, _) => k == "valeur"
      | none => false
  | _ => false

/-- A token of the given kind: a number is a text, any other token a name. -/
def tokenOfKind? (kind : String) (isEmpty : Json → Bool) (value : Json) : Option StoredToken :=
  if kind == StoredToken.numberKind then value.text?.map StoredToken.number
  else (name? isEmpty value).bind (StoredToken.symbol? kind)

/-- Reads a stored token. -/
def storedToken? (j : Json) : Option StoredToken := do
  let (kind, value) ← pair? "type" "valeur" j
  let kind ← name? isNull kind
  tokenOfKind? kind (if valueFirst j then isNullOrEmpty else isNull) value

/-- Reads the items of a list, each by `read`. -/
def list? {α : Type} (read : Json → Option α) : Json → Option (List α)
  | .list items => items.mapM read
  | _ => none

/-- Reads a stored record. -/
def storedRecord? (j : Json) : Option StoredRecord := do
  let (formula, result) ← pair? "formule" "resultat" j
  let formula ← list? storedToken? formula
  let result ← result.text?
  return ⟨formula, result⟩

/-- Versions are words of 32 bits. -/
def versionLimit : Nat := 4294967296

/-- Reads a version: digits alone. -/
def version? : Json → Option Nat
  | .number t =>
      match Decimal.readDigits t with
      | some n => if n < versionLimit then some n else none
      | none => none
  | _ => none

/-- Reads a document. -/
def document? (j : Json) : Option Document := do
  let (version, records) ← pair? "version" "calculs" j
  let version ← version? version
  let records ← list? storedRecord? records
  return ⟨version, records⟩

end Json

/-! ## §6. Histories as text. -/

/-- The document that a text writes, whatever its version. -/
def Document.ofText? (s : String) : Option Document :=
  (Json.parse? s.toList).bind Json.document?

/-- The text of a document. -/
def Document.text (d : Document) : String :=
  String.ofList (Json.pretty 0 (Json.ofDocument d))

/-- The text that stores a history. -/
def History.encode (h : History) : String := (Document.ofHistory h).text

/-- The history that a text stores. -/
def History.decode (s : String) : Except HistoryError History :=
  match Document.ofText? s with
  | some d => d.history
  | none => .error .malformed

end PocketCalc
