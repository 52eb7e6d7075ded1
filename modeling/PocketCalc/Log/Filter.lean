/-
  PocketCalc.Log.Filter
  ─────────────────────
  **WHICH EVENTS ARE WRITTEN, AND HOW.**

  A filter is a list of directives apart by commas.  Of the directives that
  concern an event, the one with the longest target decides, and of those one that
  names a field.  Without a filter, or with one that cannot be read, events are
  written from `info` up.
-/
import PocketCalc.Log.Directive

namespace PocketCalc

/-! ## §1. Names. -/

/-- The name of a level in the log. -/
def Level.name : Level → String
  | .warn => "WARN"
  | .info => "INFO"
  | .debug => "DEBUG"
  | .trace => "TRACE"

/-- The target under which a source is logged. -/
def Source.target : Source → String
  | .program => "calculatrice_jetons"
  | .evaluation => "calculatrice_jetons::noyau::eval"
  | .session => "calculatrice_jetons::noyau::session"
  | .history => "calculatrice_jetons::noyau::historique"

/-! ## §2. Filters. -/

/-- The parts of a text between commas. -/
def commaParts : List Char → List (List Char)
  | [] => [[]]
  | c :: cs =>
      match commaParts cs with
      | part :: parts => if c = ',' then [] :: part :: parts else (c :: part) :: parts
      | [] => [[c]]

/-- The directives of the log. -/
abbrev Filter := List Directive

/-- The filter without directives of one's own. -/
def Filter.standard : Filter := [{ threshold := .upTo .info }]

/-- Reads a filter; empty parts are skipped. -/
def Filter.ofText? (s : String) : Option Filter :=
  ((commaParts s.toList).filter (!·.isEmpty)).mapM Directive.ofText?

/-- The filter that a setting asks for. -/
def Filter.ofSetting : Option String → Filter
  | some s => (Filter.ofText? s).getD Filter.standard
  | none => Filter.standard

/-- The directive that decides about an event. -/
def Filter.directive? (f : Filter) (e : Event) : Option Directive :=
  (f.filter fun d =>
    d.concerns e.source.target.toList (e.fieldNames.map String.toList)).foldl
    (fun best d =>
      match best with
      | some b => if b.yieldsTo d then some d else some b
      | none => some d)
    none

/-- Is the event written? -/
def Filter.allows (f : Filter) (e : Event) : Bool :=
  (f.directive? e).any fun d => d.threshold.allows e.level

/-! ## §3. Lines. -/

/-- The line of an event: level, target, message and fields. -/
def Event.line (e : Event) : String :=
  e.fields.foldl (fun text (name, value) => text ++ " " ++ name ++ "=" ++ value)
    (e.level.name ++ " " ++ e.source.target ++ ": " ++ e.message)

/-- The lines of the events that a filter lets through. -/
def Filter.lines (f : Filter) (events : List Event) : List String :=
  (events.filter f.allows).map Event.line

end PocketCalc
