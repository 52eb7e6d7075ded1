/-
  PocketCalc.Log.Pattern
  ──────────────────────
  **PATTERNS FOR FIELD VALUES.**

  A log filter may ask for fields with a certain value, which is written as a
  number or as a regular pattern.  No event stands where such a value could
  match; but a filter with an ill-formed value cannot be read, so values are
  checked: groups and classes are closed, a repetition has something to repeat,
  and a backslash stands before a mark or a known letter.

  The check walks over the pattern once, from place to place.
-/
import PocketCalc.Decimal.Reader

namespace PocketCalc.Log

/-! ## §1. Places in a pattern. -/

/-- Where the walk over a pattern stands. -/
inductive Place where
  /-- Between items; can the item before be repeated? -/
  | between (repeatable : Bool)
  | behindBackslash
  | atGroupStart
  | inGroupFlags
  | inGroupName
  | atClassStart
  | behindCaret
  /-- Inside of so many classes. -/
  | inClass (depth : Nat)
  | inClassBehindBackslash (depth : Nat)
  deriving DecidableEq, Repr

/-- A place, and how many groups are open there. -/
structure Walk where
  groups : Nat := 0
  place : Place := .between false
  deriving DecidableEq, Repr

/-! ## §2. Steps. -/

/-- Can a backslash stand before this character? -/
def isEscapable (c : Char) : Bool :=
  ['a', 'f', 't', 'n', 'r', 'v', 'A', 'z', 'x', 'u', 'U'].contains c
    || (c.toNat < 128 && !c.isAlphanum && c != '<' && c != '>')

/-- The letters that switch the reading of a group. -/
def isGroupFlag (c : Char) : Bool := ['m', 's', 'U', 'u', 'x', 'R', '-', 'P'].contains c

/-- A step between items. -/
def stepBetween (groups : Nat) (repeatable : Bool) (c : Char) : Option Walk :=
  if c == '\\' then some ⟨groups, .behindBackslash⟩
  else if c == '(' then some ⟨groups + 1, .atGroupStart⟩
  else if c == ')' then if groups = 0 then none else some ⟨groups - 1, .between true⟩
  else if c == '[' then some ⟨groups, .atClassStart⟩
  else if c == '*' || c == '+' || c == '?' then
    if repeatable then some ⟨groups, .between true⟩ else none
  else if c == '\x7b' then none
  else some ⟨groups, .between (c != '|')⟩

/-- A step inside of classes. -/
def stepInClass (groups depth : Nat) (c : Char) : Walk :=
  if c == '\\' then ⟨groups, .inClassBehindBackslash depth⟩
  else if c == '[' then ⟨groups, .inClass (depth + 1)⟩
  else if c == ']' then ⟨groups, if depth ≤ 1 then .between true else .inClass (depth - 1)⟩
  else ⟨groups, .inClass depth⟩

/-- A step at the start of a class, where a right bracket closes nothing. -/
def stepClassStart (groups : Nat) (c : Char) : Walk :=
  if c == ']' then ⟨groups, .inClass 1⟩ else stepInClass groups 1 c

/-- The walk after one more character; none if the pattern is ill formed. -/
def Walk.step (w : Walk) (c : Char) : Option Walk :=
  match w.place with
  | .between repeatable => stepBetween w.groups repeatable c
  | .behindBackslash => if isEscapable c then some { w with place := .between true } else none
  | .atGroupStart =>
      if c == '?' then some { w with place := .inGroupFlags } else stepBetween w.groups false c
  | .inGroupFlags =>
      if c == ':' then some { w with place := .between false }
      else if c == '<' then some { w with place := .inGroupName }
      else if c == ')' then some ⟨w.groups - 1, .between false⟩
      else if isGroupFlag c then some w
      else none
  | .inGroupName =>
      if c == '>' then some { w with place := .between false }
      else if c.isAlphanum || c == '_' then some w
      else none
  | .atClassStart =>
      if c == '^' then some { w with place := .behindCaret } else some (stepClassStart w.groups c)
  | .behindCaret => some (stepClassStart w.groups c)
  | .inClass depth => some (stepInClass w.groups depth c)
  | .inClassBehindBackslash depth =>
      if isEscapable c then some { w with place := .inClass depth } else none

/-- Can a pattern end here? -/
def Walk.isFinal (w : Walk) : Bool :=
  match w.place with
  | .between _ => w.groups == 0
  | _ => false

/-! ## §3. Values. -/

/-- Is the text a regular pattern? -/
def isPattern (cs : List Char) : Bool := (cs.foldlM Walk.step {}).any Walk.isFinal

/-- Is the text a number without a sign? -/
def isUnsignedNumber (cs : List Char) : Bool :=
  let mantissa := cs.takeWhile fun c => !Decimal.isExponentMark c
  ["inf", "infinity", "nan"].contains (String.ofList (cs.map Char.toLower))
    || (mantissa.all (fun c => c.isDigit || c == '.') && mantissa.any Char.isDigit
        && mantissa.count '.' ≤ 1
        && (Decimal.readExponent (cs.dropWhile fun c => !Decimal.isExponentMark c)).isSome)

/-- Is the text a value: a number or a pattern?  Only a number may begin with a
plus sign. -/
def isFieldValue (cs : List Char) : Bool :=
  if cs.head? == some '+' then isUnsignedNumber cs.tail else isPattern cs

end PocketCalc.Log
