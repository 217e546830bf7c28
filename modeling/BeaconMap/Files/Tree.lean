import BeaconMap.Files.Path
import BeaconMap.Script.Template
/-!
# File trees

A `FileTree` holds the files and directories that there are, by location, and the working directory. A path is
followed name by name (`enter`); the first name that leads nowhere decides why a look-up fails. A file is replaced
by moving another over it (`move`).
-/

namespace BeaconMap

/-- The names that lead from the top of a file tree to a file or directory. -/
abbrev Location := List String

/-- What stands at a location. -/
inductive FileEntry where
  | file (bytes : Bytes)
  | directory
deriving DecidableEq, Repr

/-- The files and directories by location, and the working directory. -/
structure FileTree where
  entries : List (Location × FileEntry) := []
  home : Location := []
deriving Repr

/-- The text that a stream yields. -/
def Source.text (source : Source) : Except FileError String :=
  match source.failure with
  | some error => .error error
  | none =>
    match ofUtf8? source.bytes with
    | some text => .ok text
    | none => .error .notUtf8

namespace FileTree

/-- What stands at a location. The top is always a directory. -/
def get? (tree : FileTree) (location : Location) : Option FileEntry :=
  if location = [] then some .directory else tree.entries.lookup location

/-- The tree without what stands at a location. -/
def erase (tree : FileTree) (location : Location) : FileTree :=
  { tree with entries := tree.entries.filter fun (l, _) => l ≠ location }

/-- The tree with an entry at a location, in place of what stood there. -/
def put (tree : FileTree) (location : Location) (entry : FileEntry) : FileTree :=
  { tree with entries := (location, entry) :: (tree.erase location).entries }

/-! ## Following paths -/

/-- The greatest number of bytes in a name. -/
def maxNameBytes : Nat := 255

/-- The number of bytes from which on a path is too long. -/
def maxPathBytes : Nat := 4096

/-- Passes when a name is not too long. -/
def checkName (name : String) : Except FileError Unit :=
  if name.utf8ByteSize ≤ maxNameBytes then .ok () else .error .nameTooLong

/-- The directory that a name leads to from a directory. -/
def enter (tree : FileTree) (directory : Location) (name : String) : Except FileError Location := do
  if name = "." then return directory
  else if name = ".." then return directory.dropLast
  else
    checkName name
    match tree.get? (directory ++ [name]) with
    | some .directory => return directory ++ [name]
    | some (.file _) => throw .notADirectory
    | none => throw .noSuchFile

/-- The directory that names lead to from where a path starts. -/
def follow (tree : FileTree) (path : Path) (names : List String) : Except FileError Location :=
  names.foldlM tree.enter (if path.isAbsolute then [] else tree.home)

/-- Passes when a path can be looked up at all; a path with a NUL character fails with `withNul`. -/
def checkPath (withNul : FileError) (path : Path) : Except FileError Unit :=
  if path.text.toList.contains '\x00' then .error withNul
  else if maxPathBytes ≤ path.text.utf8ByteSize then .error .nameTooLong
  else if path.text.isEmpty then .error .noSuchFile
  else .ok ()

/-- What a path leads to. -/
def find (tree : FileTree) (path : Path) : Except FileError FileEntry := do
  checkPath .nameWithNul path
  let directory ← tree.follow path path.steps.dropLast
  match path.steps.getLast? with
  | none => return .directory
  | some name =>
    if path.endsInSlash || name == "." || name == ".." then
      let _ ← tree.enter directory name
      return .directory
    else
      checkName name
      match tree.get? (directory ++ [name]) with
      | some entry => return entry
      | none => throw .noSuchFile

/-- The locations that following a path may visit, in order. -/
def visited (home : Location) (path : Path) : List Location :=
  let start := if path.isAbsolute then [] else home
  let visit := fun (seen : List Location) (name : String) =>
    let here := seen.getLast?.getD start
    seen ++ [if name = "." then here else if name = ".." then here.dropLast else here ++ [name]]
  path.steps.foldl visit []

/-! ## Reading -/

/-- The stream of a file. A directory can be opened, but not read. -/
def FileEntry.source : FileEntry → Source
  | .file bytes => ⟨bytes, none⟩
  | .directory => ⟨[], some .isADirectory⟩

/-- Opens what a path leads to. -/
def openPath (tree : FileTree) (path : Path) : Except FileError Source :=
  (tree.find path).map FileEntry.source

/-! ## Replacing -/

/-- The path of the working directory. -/
def homePath (tree : FileTree) : Path := ⟨"/" ++ "/".intercalate tree.home⟩

/--
The directory in which a file is prepared that is to be moved to a path. The prepared file is looked up by its whole
path from the top; its name has ten characters.
-/
def directoryOf (tree : FileTree) (path : Path) : Except FileError Location := do
  let directory := if path.parent.text.isEmpty then ⟨"."⟩ else path.parent
  checkPath .nameWithNul ((tree.homePath.join directory.text).join ".tmp000000")
  tree.follow directory directory.steps

/-- A name that is not used anywhere in the tree: longer than all that are. -/
def unusedName (tree : FileTree) : String :=
  let longest := (tree.entries.flatMap fun (location, _) => location.map String.length).foldl max 0
  ".tmp" ++ String.ofList (List.replicate longest '0')

/-- The location to which a file can be moved under a path. -/
def destination (tree : FileTree) (path : Path) : Except FileError Location := do
  checkPath .invalidArgument path
  let directory ← tree.follow path path.steps.dropLast
  match path.steps.getLast? with
  | none => throw .busy
  | some name =>
    if name = "." ∨ name = ".." then throw .busy
    checkName name
    if path.endsInSlash then throw .notADirectory
    if tree.get? (directory ++ [name]) = some .directory then throw .isADirectory
    return directory ++ [name]

/-- Moves the file with these bytes from a location to a path, over the file that is there. -/
def move (tree : FileTree) (source : Location) (bytes : Bytes) (path : Path) : Except FileError FileTree := do
  let target ← tree.destination path
  return (tree.erase source).put target (.file bytes)

/-! ## Comparing -/

/-- What two trees hold differently: locations with what stands there in the second, in the order of their entries. -/
def changes (before after : FileTree) : List (Location × Option FileEntry) :=
  let locations := (before.entries ++ after.entries).map Prod.fst
  locations.eraseDups.filterMap fun location =>
    if before.get? location = after.get? location then none else some (location, after.get? location)

end FileTree

end BeaconMap
