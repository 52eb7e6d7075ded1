/-
  PocketCalc.Log.Directive
  ────────────────────────
  **DIRECTIVES OF A LOG FILTER.**

  A directive names the events that it is about and the level from which they are
  written:

      level      target      target=level      target[span{field=value}]=level

  Each part of the last form but the opening bracket may be missing.  It is about
  the events whose source has a name that begins with the target and that have
  the field; a span or a value of the field is never met, for events stand inside
  no span.  Without a level, all levels are written.

  A bracket or brace that is opened must be closed.
-/
import PocketCalc.Log.Event
import PocketCalc.Log.Pattern
import PocketCalc.Text.Blank

namespace PocketCalc

/-! ## §1. Thresholds. -/

/-- A threshold of the log: errors alone are below every level of an event. -/
inductive Threshold where
  | off
  | error
  | upTo (level : Level)
  deriving DecidableEq, Repr

/-- How far down a level stands. -/
def Level.depth : Level → Nat
  | .warn => 0
  | .info => 1
  | .debug => 2
  | .trace => 3

namespace Threshold

/-- Are events of this level written? -/
def allows : Threshold → Level → Bool
  | .upTo limit, level => level.depth ≤ limit.depth
  | _, _ => false

/-- The thresholds by number. -/
def ofNumber? : Nat → Option Threshold
  | 0 => some .off
  | 1 => some .error
  | 2 => some (.upTo .warn)
  | 3 => some (.upTo .info)
  | 4 => some (.upTo .debug)
  | 5 => some (.upTo .trace)
  | _ => none

/-- The thresholds by name. -/
def ofName? : String → Option Threshold
  | "off" => some .off
  | "error" => some .error
  | "warn" => some (.upTo .warn)
  | "info" => some (.upTo .info)
  | "debug" => some (.upTo .debug)
  | "trace" => some (.upTo .trace)
  | _ => none

/-- A threshold by its number, before which a plus sign may stand, or by its name
in any case. -/
def ofText? (cs : List Char) : Option Threshold :=
  match Decimal.readDigits (if cs.head? == some '+' then cs.tail else cs) with
  | some n => ofNumber? n
  | none => ofName? (String.ofList (cs.map Char.toLower))

/-- The level behind an equals sign, which may be missing. -/
def ofLevel? (cs : List Char) : Option Threshold :=
  if cs.isEmpty then some (.upTo .trace) else ofText? cs

end Threshold

/-! ## §2. Directives. -/

/-- The events that a directive is about, and their threshold. -/
structure Directive where
  /-- The source has a name that begins with this. -/
  target : List Char := []
  /-- The event has this field, if one is named. -/
  field : Option (List Char) := none
  /-- Does the directive ask for a span, or for a value of its field? -/
  unmet : Bool := false
  threshold : Threshold := .upTo .trace
  deriving DecidableEq, Repr

namespace Directive

/-- Is the directive about the events of a source that have the given fields? -/
def concerns (d : Directive) (target : List Char) (fields : List (List Char)) : Bool :=
  !d.unmet && d.target.isPrefixOf target && d.field.all fields.contains

/-- Does the first text come before the second in a dictionary, or is it the
same? -/
def isUpTo : List Char → List Char → Bool
  | [], _ => true
  | _ :: _, [] => false
  | a :: as, b :: bs => a.toNat < b.toNat || (a == b && isUpTo as bs)

/-- Does the second directive decide, of two that concern an event?  The longer
target decides, then a field, then the later name of the field. -/
def yieldsTo (d e : Directive) : Bool :=
  d.target.length < e.target.length
    || (d.target.length == e.target.length
        && isUpTo (d.field.getD []) (e.field.getD []))

/-! ## §3. Reading directives. -/

/-- The end of a directive behind its right bracket: blanks, or a level. -/
def closed? (level : List Char → Option Threshold) (d : Directive) (cs : List Char) :
    Option Directive :=
  if cs.all Text.isBlank then some d
  else
    match cs with
    | '=' :: rest => (level rest).map fun t => { d with threshold := t }
    | _ => none

/-- The directive that asks for a field, written with its value if it has one; an
ill-formed value is refused. -/
def withField? (d : Directive) (cs : List Char) : Option Directive :=
  let name := cs.takeWhile (· != '=')
  match cs.dropWhile (· != '=') with
  | [] => if name.isEmpty then none else some { d with field := some name }
  | _ :: rest =>
      if Log.isFieldValue (rest.takeWhile (· != '=')) then
        some { d with field := some name, unmet := true }
      else none

/-- What stands behind a left brace. -/
def behindBrace? (level : List Char → Option Threshold) (d : Directive) (cs : List Char) :
    Option Directive :=
  match cs.dropWhile (· != '\x7d') with
  | _ :: ']' :: tail =>
      (d.withField? (cs.takeWhile (· != '\x7d'))).bind (·.closed? level tail)
  | _ => none

/-- Does the character belong to the name of a span? -/
def inSpanName (c : Char) : Bool := c != ']' && c != '\x7b'

/-- What stands behind a left bracket. -/
def behindBracket? (level : List Char → Option Threshold) (d : Directive) (cs : List Char) :
    Option Directive :=
  match cs.dropWhile inSpanName with
  | [] => none
  | ']' :: tail => { d with unmet := true }.closed? level tail
  | _ :: rest => { d with unmet := !(cs.takeWhile inSpanName).isEmpty }.behindBrace? level rest

/-- A directive without brackets and equals sign: a level, or else a target. -/
def ofWord (cs : List Char) : Directive :=
  match Threshold.ofText? cs with
  | some t => { threshold := t }
  | none => { target := cs }

/-- Does the character belong to a target? -/
def inTarget (c : Char) : Bool := c != '=' && c != '['

/-- Reads a directive that begins with no blank, its level by `level`. -/
def ofTrimmed? (level : List Char → Option Threshold) (cs : List Char) : Option Directive :=
  let target := cs.takeWhile inTarget
  match cs.dropWhile inTarget with
  | [] => some (ofWord cs)
  | '[' :: rest => { target : Directive }.behindBracket? level rest
  | _ :: rest => (level rest).map fun t => { target, threshold := t }

/-- Can a directive begin with this character? -/
def startsDirective (c : Char) : Bool :=
  c.isAlphanum || c == '-' || c == ':' || c == '_' || c == '['
    || (128 ≤ c.toNat && !Text.isSymbol c)

/-- Reads a directive; blanks alone are none.  Behind blanks no level can be read,
and words are words of no event. -/
def ofText? (cs : List Char) : Option Directive :=
  match cs.dropWhile Text.isBlank with
  | [] => none
  | c :: rest =>
      if !startsDirective c then none
      else if cs.head?.any Text.isBlank then
        (ofTrimmed? (fun _ => none) (c :: rest)).map fun d =>
          { d with unmet := d.unmet || c != '[' || d.field.isSome }
      else ofTrimmed? Threshold.ofLevel? cs

end Directive

end PocketCalc
