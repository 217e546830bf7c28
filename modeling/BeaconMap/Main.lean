import BeaconMap.CommandLine
import Std.Time
/-!
# The program

Takes into a file tree what a run can see of the file system, makes the run, and carries out what it changed. All
that is decided is decided by `CommandLine.run`.
-/

namespace BeaconMap

namespace CommandLine

/-- A location as a path from the top of the file system. -/
def locationText (location : Location) : String := "/" ++ "/".intercalate location

/-- What stands at a location of the file system. -/
def observe (location : Location) : IO (Option FileEntry) := do
  let path := (← IO.currentDir) / locationText location
  if ← path.isDir then return some .directory
  if ← path.pathExists then return some (.file (← IO.FS.readBinFile path).data.toList)
  return none

/-- The tree with all that the file system holds on the way of a path. -/
def observePath (tree : FileTree) (path : Path) : IO FileTree := do
  if path.text.contains '\x00' then return tree
  (FileTree.visited tree.home path).foldlM (fun tree location => do
    match ← observe location with
    | some entry => return tree.put location entry
    | none => return tree) tree

/-- Carries out one change. A file is completed under another name before it takes the place of an older one. -/
def carryOut (change : Location × Option FileEntry) : IO Unit := do
  let path := locationText change.1
  match change.2 with
  | some (.file bytes) =>
    let completed := locationText (change.1.dropLast ++ [".beacon-map"])
    IO.FS.writeBinFile completed ⟨bytes.toArray⟩
    IO.FS.rename completed path
  | some .directory => IO.FS.createDir path
  | none => IO.FS.removeFile path

/-- Makes a run against the file system. -/
def execute (arguments : List String) : IO UInt32 := do
  let environment ← IO.getEnv DescriptionSource.variableName
  let home := (Path.mk (← IO.currentDir).toString).steps
  let tree ← observePath ⟨[(home, .directory)], home⟩ (configPath arguments)
  let tree ← match Config.ofFile tree (configPath arguments) with
    | .ok config => (paths environment config).foldlM observePath tree
    | .error _ => pure tree
  let time := (← Std.Time.DateTime.now).toISO8601String
  let outcome := run arguments environment tree .unlimited { recorder := .plain time }
  -- A directory is made before what is put into it.
  ((tree.changes outcome.tree).mergeSort fun a b => a.1.length ≤ b.1.length).forM carryOut
  outcome.reports.forM fun message => IO.eprintln message.text
  return outcome.exitCode

end CommandLine

end BeaconMap

/-- Generates the map of the configured network. -/
def main (arguments : List String) : IO UInt32 := BeaconMap.CommandLine.execute arguments
