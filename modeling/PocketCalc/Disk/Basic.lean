/-
  PocketCalc.Disk.Basic
  ─────────────────────
  **FILES AND DIRECTORIES.**

  A disk maps paths to files and directories; the root is always a directory.
  It changes by single calls, each of which either succeeds or fails and then
  changes nothing.  A plan is a list of calls that stops at the first failure.

  A call may also fail although the disk would allow it, or the machine may stop in
  it.  Which calls do so is told by a list of fates.  A write that is interrupted
  may have written a part of its bytes; no other call leaves anything behind.
-/
import PocketCalc.Disk.Path

namespace PocketCalc

/-! ## §1. Disks. -/

/-- What can stand at a path. -/
inductive Node where
  | file (content : ByteArray)
  | directory

/-- The nodes of a disk but its root, each path at most once. -/
structure Disk where
  entries : List (Path × Node) := []

/-- Why the disk refuses a call. -/
inductive AccessError where
  /-- No node stands there. -/
  | notFound
  /-- A file stands where a directory is needed. -/
  | notDirectory
  /-- A directory stands where a file is needed. -/
  | isDirectory
  /-- No node can have this name. -/
  | invalidName
  /-- The call was interrupted. -/
  | interrupted
  deriving DecidableEq, Repr

namespace Disk

/-- The node at a path. -/
def node? (d : Disk) (p : Path) : Option Node :=
  if p = [] then some .directory else d.entries.lookup p

/-- The disk without the node at a path. -/
def remove (d : Disk) (p : Path) : Disk := ⟨d.entries.filter fun e => e.1 != p⟩

/-- The disk with the given node at a path. -/
def set (d : Disk) (p : Path) (n : Node) : Disk := ⟨(p, n) :: (d.remove p).entries⟩

/-- The most bytes of a name. -/
def maxNameBytes : Nat := 255

/-- Can a node have this name? -/
def isName (name : String) : Bool := name.utf8ByteSize ≤ maxNameBytes && !name.contains '\x00'

/-- Goes from a place along names to another place: every place on the way must be
a directory. -/
def walkFrom (d : Disk) (base : Path) : Path → Except AccessError Path
  | [] => .ok base
  | name :: rest =>
      match d.node? base with
      | some .directory =>
          if name = Path.back then d.walkFrom base.dropLast rest
          else if isName name then d.walkFrom (base ++ [name]) rest
          else .error .invalidName
      | some (.file _) => .error .notDirectory
      | none => .error .notFound

/-- The place that a path leads to, whether a node stands there or not. -/
def walk (d : Disk) (p : Path) : Except AccessError Path := d.walkFrom [] p

/-- The node that a path leads to. -/
def find (d : Disk) (p : Path) : Except AccessError Node :=
  match d.walk p with
  | .ok place =>
      match d.node? place with
      | some n => .ok n
      | none => .error .notFound
  | .error e => .error e

/-- The bytes of a file. -/
def read (d : Disk) (p : Path) : Except AccessError ByteArray :=
  match d.find p with
  | .ok (.file content) => .ok content
  | .ok .directory => .error .isDirectory
  | .error e => .error e

/-! ## §2. Calls. -/

/-- A single change of a disk. -/
inductive Call where
  /-- Makes a directory, unless it is there already. -/
  | makeDirectory (path : Path)
  /-- Makes an empty file, or empties the file that is there. -/
  | create (path : Path)
  /-- Writes bytes at the end of a file. -/
  | append (path : Path) (bytes : ByteArray)
  /-- Makes sure that what was written to a file stays. -/
  | sync (path : Path)
  /-- Moves a file in one step, in place of the file that is there. -/
  | rename (source target : Path)

/-- Puts a file at a path, if its directory is there and no directory stands in
its place. -/
def putFile (d : Disk) (p : Path) (content : ByteArray) : Except AccessError Disk :=
  match d.walk p with
  | .ok place =>
      match d.node? place with
      | some .directory => .error .isDirectory
      | _ => .ok (d.set place (.file content))
  | .error e => .error e

/-- Takes a file away. -/
def takeFile (d : Disk) (p : Path) : Except AccessError Disk :=
  match d.walk p with
  | .ok place =>
      match d.node? place with
      | some (.file _) => .ok (d.remove place)
      | some .directory => .error .isDirectory
      | none => .error .notFound
  | .error e => .error e

/-- Makes a directory, unless it is there already. -/
def makeDirectory (d : Disk) (p : Path) : Except AccessError Disk :=
  match d.walk p with
  | .ok place =>
      match d.node? place with
      | some .directory => .ok d
      | some (.file _) => .error .notDirectory
      | none => .ok (d.set place .directory)
  | .error e => .error e

/-- The disk after a call, or the reason why the call fails. -/
def perform (d : Disk) : Call → Except AccessError Disk
  | .makeDirectory p => d.makeDirectory p
  | .create p => d.putFile p .empty
  | .append p bytes =>
      match d.read p with
      | .ok content => d.putFile p (content ++ bytes)
      | .error e => .error e
  | .sync p =>
      match d.read p with
      | .ok _ => .ok d
      | .error e => .error e
  | .rename source target =>
      match d.read source, d.takeFile source with
      | .ok content, .ok d' => d'.putFile target content
      | .error e, _ => .error e
      | _, .error e => .error e

/-! ## §3. Interrupted calls. -/

/-- What becomes of a call. -/
inductive Fate where
  /-- It is carried out, as far as the disk allows it. -/
  | carriedOut
  /-- It fails, or the machine stops in it; a write has then written so many of its
  bytes. -/
  | interrupted (written : Nat)
  deriving DecidableEq, Repr

/-- The disk that an interrupted call leaves behind. -/
def leave (d : Disk) (written : Nat) : Call → Disk
  | .append p bytes =>
      match d.perform (.append p (bytes.extract 0 written)) with
      | .ok d' => d'
      | .error _ => d
  | _ => d

/-- The disk after a call with the given fate, and how the call ended. -/
def attempt (d : Disk) (c : Call) : Fate → Disk × Except AccessError Unit
  | .carriedOut =>
      match d.perform c with
      | .ok d' => (d', .ok ())
      | .error e => (d, .error e)
  | .interrupted written => (d.leave written c, .error .interrupted)

/-- The disk after the calls of a plan up to its first failure, and that failure.  The
fates are those of the first calls; all calls behind them are carried out. -/
def runUnder (d : Disk) : List Fate → List Call → Disk × Except AccessError Unit
  | _, [] => (d, .ok ())
  | fates, c :: cs =>
      match d.attempt c (fates.headD .carriedOut) with
      | (d', .ok ()) => d'.runUnder fates.tail cs
      | (d', .error e) => (d', .error e)

/-- The disk after a plan that nothing interrupts. -/
def run (d : Disk) (plan : List Call) : Disk × Except AccessError Unit := d.runUnder [] plan

/-! ## §4. Plans. -/

/-- Makes the directories on the way to a path. -/
def makeAncestors (p : Path) : List Call := p.ancestors.map .makeDirectory

/-- Writes a file at once, with the directories on the way to it. -/
def writePlan (p : Path) (content : ByteArray) : List Call :=
  makeAncestors p ++ [.create p, .append p content]

/-- Replaces a file in one step: the content is written to the temporary place beside
it, made to stay, and moved. -/
def replacePlan (p : Path) (content : ByteArray) : List Call :=
  writePlan p.temporary content ++ [.sync p.temporary, .rename p.temporary p]

/-! ## §5. Listings. -/

/-- The nodes below a directory, by their paths from there. -/
def below (d : Disk) (base : Path) : List (Path × Node) :=
  d.entries.filterMap fun (p, n) =>
    if base.isPrefixOf p && p != base then some (p.drop base.length, n) else none

end Disk

end PocketCalc
