import BeaconMap.Files.Tree
/-!
# Making directories and files

A directory is made where its path leads nowhere yet, after those above it, up to a location where none can be made
(`makeWay`). A file that is opened to be appended to keeps what it holds; where it is missing it is made, with nothing in it
(`openToAppend`).
-/

namespace BeaconMap

namespace FileTree

/-! ## Directories -/

/-- The tree with a directory at each of the names below a location, as far down as they can be made. -/
def makeBelow (barred : Location → Bool) (tree : FileTree) (here : Location) : List String → FileTree
  | [] => tree
  | name :: names =>
    match tree.enter here name with
    | .ok below => makeBelow barred tree below names
    | .error .noSuchFile =>
      if barred (here ++ [name]) then tree
      else makeBelow barred (tree.put (here ++ [name]) .directory) (here ++ [name]) names
    | .error _ => tree

/-- The names of a path that are made where they are missing: a name with a `.` behind it at the end is not. -/
def makeable (path : Path) : List String :=
  if path.steps.getLast? = some "." then path.parent.steps else path.steps

/-- The tree with a directory at a path and above it, as far as they can be made. -/
def makeWay (barred : Location → Bool) (tree : FileTree) (path : Path) : FileTree :=
  match checkPath .nameWithNul path with
  | .ok () => makeBelow barred tree (if path.isAbsolute then [] else tree.home) (makeable path)
  | .error _ => tree

/-! ## Files -/

/-- Opens the file of a path to be appended to: where it stands, and the tree after that. -/
def openToAppend (tree : FileTree) (path : Path) : Except FileError (Location × FileTree) := do
  checkPath .nameWithNul path
  let directory ← tree.follow path path.steps.dropLast
  match path.steps.getLast? with
  | none => throw .isADirectory
  | some name =>
    if path.endsInSlash ∨ name = "." ∨ name = ".." then throw .isADirectory
    checkName name
    match tree.get? (directory ++ [name]) with
    | some .directory => throw .isADirectory
    | some (.file _) => return (directory ++ [name], tree)
    | none => return (directory ++ [name], tree.put (directory ++ [name]) (.file []))

/-- The tree with more bytes at the end of the file at a location. -/
def append (tree : FileTree) (location : Location) (more : Bytes) : FileTree :=
  match tree.get? location with
  | some (.file bytes) => tree.put location (.file (bytes ++ more))
  | _ => tree

end FileTree

end BeaconMap
