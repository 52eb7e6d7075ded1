/-
  PocketCalc.History.Store
  ────────────────────────
  **STORES OF THE HISTORY.**

  A store takes records at its end and gives all of them back, oldest first.
  Neither operation fails: what goes wrong is told to the log.  The store here
  keeps its records in memory.
-/
import PocketCalc.History.Record
import PocketCalc.Log.Event

namespace PocketCalc

/-- What keeps a history. -/
class HistoryStore (σ : Type) where
  /-- Takes a record at the end. -/
  append : σ → Record → Logged σ
  /-- All records, oldest first. -/
  records : σ → Logged History

/-- A history in memory. -/
structure MemoryStore where
  history : History := []

instance : HistoryStore MemoryStore where
  append s r := pure ⟨s.history ++ [r]⟩
  records s := pure s.history

end PocketCalc
