/-
  PocketCalc.Log.Event
  ────────────────────
  **EVENTS OF THE LOG.**

  What the program does is told by events.  An event has a level, a source, a
  message and fields; a computation that tells its events is a `Logged` value,
  and events stand in the order in which they happen.
-/
import PocketCalc.Evaluation.Checkpoint

namespace PocketCalc

/-! ## §1. Events. -/

/-- How much an event matters. -/
inductive Level where
  | warn
  | info
  | debug
  | trace
  deriving DecidableEq, Repr

/-- The part of the program that tells an event. -/
inductive Source where
  | program
  | evaluation
  | session
  | history
  deriving DecidableEq, Repr

/-- What can happen. -/
inductive Event where
  /-- A stage of an evaluation is done. -/
  | reached (checkpoint : Checkpoint)
  /-- A formula was evaluated. -/
  | computed (formula : Formula) (result : Decimal)
  /-- A formula was refused. -/
  | refused (formula : Formula) (error : EvalError)
  /-- The history holds no record to recall. -/
  | nothingToRecall (total : Nat) (formula : Formula)
  /-- A record was recalled. -/
  | recalled (formula : Formula)
  /-- The history was saved. -/
  | saved (path : String) (total : Nat)
  /-- The history could not be saved. -/
  | saveFailed (path : String)
  /-- The stored history is unreadable, so nothing was added to it. -/
  | appendAbandoned (path : String)
  /-- The stored history is unreadable and counts as empty. -/
  | unreadableIgnored (path : String)
  /-- The program has chosen the place of its history. -/
  | historyPlaced (path : String)

/-! ## §2. How an event is told. -/

namespace Event

/-- The level of an event. -/
def level : Event → Level
  | .reached _ => .trace
  | .computed .. | .refused .. | .nothingToRecall .. | .saved .. => .debug
  | .recalled _ | .historyPlaced _ => .info
  | .saveFailed _ | .appendAbandoned _ | .unreadableIgnored _ => .warn

/-- The source of an event. -/
def source : Event → Source
  | .reached _ => .evaluation
  | .computed .. | .refused .. | .nothingToRecall .. | .recalled _ => .session
  | .saved .. | .saveFailed _ | .appendAbandoned _ | .unreadableIgnored _ => .history
  | .historyPlaced _ => .program

/-- The message of an event. -/
def message : Event → String
  | .reached ⟨.factorials, _⟩ => "après factorielles"
  | .reached ⟨.brackets, _⟩ => "après parenthèses"
  | .reached ⟨.products, _⟩ => "après × ÷"
  | .computed .. => "calcul réussi"
  | .refused .. => "calcul refusé"
  | .nothingToRecall .. => "rien à rappeler"
  | .recalled _ => "rappel"
  | .saved .. => "historique écrit"
  | .saveFailed _ => "écriture de l’historique impossible"
  | .appendAbandoned _ => "historique illisible, ajout abandonné"
  | .unreadableIgnored _ => "historique illisible, ignoré"
  | .historyPlaced _ => "historique sur disque"

/-- The named fields of an event, in order. -/
def fields : Event → List (String × String)
  | .reached c => [("jetons", c.formula.describe)]
  | .computed f v => [("formule", f.describe), ("resultat", v.display)]
  | .refused f e => [("formule", f.describe), ("erreur", e.message)]
  | .nothingToRecall n f => [("total", toString n), ("formule", f.describe)]
  | .recalled f => [("formule", f.describe)]
  | .saved p n => [("chemin", p), ("total", toString n)]
  | .saveFailed p | .appendAbandoned p | .unreadableIgnored p | .historyPlaced p =>
      [("chemin", p)]

/-- What an event is told with: its message, its fields, and the reason of a
failure of the history, which is not kept. -/
def fieldNames (e : Event) : List String :=
  "message" :: e.fields.map Prod.fst ++
    match e with
    | .saveFailed _ | .appendAbandoned _ | .unreadableIgnored _ => ["erreur"]
    | _ => []

end Event

/-! ## §3. Computations that tell events. -/

/-- A value and the events told on the way to it. -/
structure Logged (α : Type) where
  value : α
  events : List Event

namespace Logged

/-- Tells one event. -/
def tell (e : Event) : Logged Unit := ⟨(), [e]⟩

/-- Tells several events. -/
def tellAll (es : List Event) : Logged Unit := ⟨(), es⟩

instance : Monad Logged where
  pure a := ⟨a, []⟩
  bind x f := ⟨(f x.value).value, x.events ++ (f x.value).events⟩

@[simp] theorem value_pure {α : Type} (a : α) : (pure a : Logged α).value = a := rfl

@[simp] theorem value_bind {α β : Type} (x : Logged α) (f : α → Logged β) :
    (x >>= f).value = (f x.value).value := rfl

instance : LawfulMonad Logged := LawfulMonad.mk' Logged
  (fun x => congrArg (Logged.mk x.value) (List.append_nil x.events))
  (fun _ _ => rfl)
  (fun _ _ _ => congrArg (Logged.mk _) (List.append_assoc _ _ _))

end Logged

end PocketCalc
