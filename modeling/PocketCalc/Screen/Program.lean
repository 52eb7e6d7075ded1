/-
  PocketCalc.Screen.Program
  ─────────────────────────
  **STARTING THE PROGRAM.**

  The program shows one window and keeps its history in a file below the data
  directory of its user.  That directory is the one the environment names, if it
  names an absolute path, and otherwise the usual one below the home directory.
-/
import PocketCalc.History.FileStore
import PocketCalc.Log.Filter
import PocketCalc.Screen.Basic

namespace PocketCalc

/-- What the program takes from its environment. -/
structure Environment where
  /-- The home directory of the user. -/
  home : String
  /-- The data directory, if one is named. -/
  dataHome : Option String := none
  /-- The log filter, if one is named. -/
  logFilter : Option String := none

/-- A window of the program, sizes in points. -/
structure Window where
  name : String
  title : String
  size : Nat × Nat
  minSize : Nat × Nat

namespace Program

/-- The window of the program. -/
def window : Window := ⟨PocketCalc.title, PocketCalc.title, (420, 680), (360, 560)⟩

/-- A written path below a written directory. -/
def below (directory name : String) : String :=
  if directory.endsWith "/" then directory ++ name else directory ++ "/" ++ name

/-- The data directory. -/
def dataDirectory (env : Environment) : String :=
  match env.dataHome with
  | some d => if d.startsWith "/" then d else below env.home ".local/share"
  | none => below env.home ".local/share"

/-- The written path of the history file. -/
def historyPath (env : Environment) : String :=
  below (below (dataDirectory env) "calculatrice-jetons") "historique.json"

/-- The screen at the start of the program, over the given disk. -/
def start (env : Environment) (disk : Disk) : Logged (Screen FileStore) := do
  let name := historyPath env
  Logged.tell (.historyPlaced name)
  return { calculator := Calculator.new { disk, path := Path.ofText name, name } {} }

/-- The lines that the program writes to its log; a line like the one before it
is not repeated. -/
def logLines (env : Environment) (events : List Event) : List String :=
  ((Filter.ofSetting env.logFilter).lines events).splitBy (· == ·) |>.filterMap List.head?

end Program

end PocketCalc
