/-
  PocketCalc.History.FileStore
  ────────────────────────────
  **A HISTORY IN A FILE.**

  The history is one document in one file.  Adding a record reads the document,
  appends to it and replaces the file in one step.  A file that is not there is
  an empty history; a file that is there but cannot be read counts as an empty
  history when it is shown, and is never written over.

  Every call to the disk may be interrupted.  A reading that is interrupted fails,
  and is no sign that the file is not there.
-/
import PocketCalc.Disk.Basic
import PocketCalc.History.Document
import PocketCalc.History.Store

namespace PocketCalc

/-- A place on a disk, with the text by which the log names it. -/
structure FileStore where
  disk : Disk
  path : Path
  name : String := ""

/-- What a refusal of the disk means for the history. -/
def HistoryError.ofAccess : AccessError → HistoryError
  | .notFound => .absent
  | _ => .inaccessible

namespace FileStore

/-- The stored history, or the reason why it cannot be read. -/
def read (s : FileStore) : Except HistoryError History :=
  match s.disk.read s.path with
  | .ok bytes =>
      match String.fromUTF8? bytes with
      | some text => History.decode text
      | none => .error .inaccessible
  | .error e => .error (HistoryError.ofAccess e)

/-- The stored history, read with a call of the given fate. -/
def readUnder (s : FileStore) : Disk.Fate → Except HistoryError History
  | .carriedOut => s.read
  | .interrupted _ => .error .inaccessible

/-- Replaces the stored history, with calls of the given fates. -/
def writeUnder (s : FileStore) (fates : List Disk.Fate) (h : History) :
    FileStore × Except HistoryError Unit :=
  let (disk, outcome) := s.disk.runUnder fates (Disk.replacePlan s.path h.encode.toUTF8)
  ({ s with disk }, outcome.mapError HistoryError.ofAccess)

/-- Replaces the stored history. -/
def write (s : FileStore) (h : History) : FileStore × Except HistoryError Unit :=
  s.writeUnder [] h

/-- Replaces the stored history and tells how it went. -/
def saveUnder (s : FileStore) (fates : List Disk.Fate) (h : History) : Logged FileStore :=
  match s.writeUnder fates h with
  | (s', .ok ()) => ⟨s', [.saved s.name h.length]⟩
  | (s', .error _) => ⟨s', [.saveFailed s.name]⟩

/-- Takes a record at the end, unless the file cannot be read; the first fate is that of
the reading. -/
def appendUnder (s : FileStore) (fates : List Disk.Fate) (r : Record) : Logged FileStore :=
  match s.readUnder (fates.headD .carriedOut) with
  | .ok h => s.saveUnder fates.tail (h ++ [r])
  | .error .absent => s.saveUnder fates.tail [r]
  | .error _ => ⟨s, [.appendAbandoned s.name]⟩

/-- Takes a record at the end, unless the file cannot be read. -/
def append (s : FileStore) (r : Record) : Logged FileStore := s.appendUnder [] r

/-- All records; what cannot be read counts as no record. -/
def records (s : FileStore) : Logged History :=
  match s.read with
  | .ok h => ⟨h, []⟩
  | .error .absent => ⟨[], []⟩
  | .error _ => ⟨[], [.unreadableIgnored s.name]⟩

end FileStore

instance : HistoryStore FileStore where
  append := FileStore.append
  records := FileStore.records

end PocketCalc
