/-
  PocketCalc.Disk.Path
  ────────────────────
  **PATHS.**

  A path is the list of the names that lead to it from the root.  In a written
  path the names stand between slashes; needless slashes and single dots mean
  nothing.  Two dots go back from the directory that they are met in, so what they
  mean is known only on a disk.
-/

namespace PocketCalc

/-- The names that lead from the root to a place. -/
abbrev Path := List String

namespace Path

/-- The name that goes back. -/
def back : String := ".."

/-- The path that a text writes. -/
def ofText (s : String) : Path := (s.splitOn "/").filter fun name => name != "" && name != "."

/-- The names of a path between slashes. -/
def text (p : Path) : String := "/".intercalate p

/-- The directories on the way to a path, the root and the path itself apart. -/
def ancestors (p : Path) : List Path :=
  ((List.range p.length).drop 1).map p.take

/-- A file name without its extension: what stands before the last dot, or the
whole name if no dot stands behind its first character. -/
def stem (name : List Char) : List Char :=
  match (name.reverse.dropWhile (· != '.')).drop 1 with
  | [] => name
  | before => before.reverse

/-- The extension of temporary files. -/
def temporaryExtension : List Char := ".json.tmp".toList

/-- The place where a file is prepared before it takes its own: in the same
directory, with the extension of temporary files. -/
def temporary (p : Path) : Path :=
  match p.getLast? with
  | some name =>
      if name == back then p
      else p.dropLast ++ [String.ofList (stem name.toList ++ temporaryExtension)]
  | none => p

end Path

end PocketCalc
