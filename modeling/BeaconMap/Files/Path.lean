/-!
# Paths

A path is a text of names with slashes between them. `steps` are the names as a look-up follows them, one after the
other; `components` are the names by which paths are told apart, joined and asked for their extension. `FileError` has
the causes for which a file or a stream is not read or written, and their wording.
-/

namespace BeaconMap

/-- Cuts a text at every `mark`; there is always one piece more than marks. -/
def cutAt (mark : Char) : List Char → List (List Char)
  | [] => [[]]
  | c :: rest =>
    if c = mark then [] :: cutAt mark rest
    else match cutAt mark rest with
      | piece :: pieces => (c :: piece) :: pieces
      | [] => [[c]]

/-- A path as it is written. -/
structure Path where
  text : String
deriving DecidableEq, Repr, Inhabited

namespace Path

/-- The path starts from the top of the file tree, not from the working directory. -/
def isAbsolute (p : Path) : Bool := p.text.toList.head? == some '/'

/-- The path ends in a slash, so that it can only name a directory. -/
def endsInSlash (p : Path) : Bool := p.text.toList.getLast? == some '/'

/-- The names of a path in order; `.` and `..` count as names. -/
def steps (p : Path) : List String := (cutAt '/' p.text.toList).filterMap fun name =>
  if name.isEmpty then none else some (String.ofList name)

/-- The names that matter: a `.` counts only at the start of a path from the working directory. -/
def components (p : Path) : List String :=
  match p.isAbsolute, p.steps with
  | false, "." :: rest => "." :: rest.filter (· ≠ ".")
  | _, steps => steps.filter (· ≠ ".")

/-- Two paths have the same components from the same start. -/
def same (p q : Path) : Bool := p.isAbsolute == q.isAbsolute && p.components == q.components

/-- The path of a name below a base; an absolute name stands for itself. -/
def join (base : Path) (name : String) : Path :=
  if (Path.mk name).isAbsolute then ⟨name⟩
  else if base.text.isEmpty || base.endsInSlash then ⟨base.text ++ name⟩
  else ⟨base.text ++ "/" ++ name⟩

/-- A piece between slashes that leads nowhere else. -/
def isIdle (piece : List Char) : Bool := piece.isEmpty || piece == ['.']

/-- The path as far as its last component, without idle pieces at its end; empty when nothing is left to go up. -/
def parent (p : Path) : Path :=
  let (start, rest) : List (List Char) × List (List Char) := match cutAt '/' p.text.toList with
    | [] :: rest => ([[]], rest)
    | ['.'] :: rest => ([['.']], rest)
    | pieces => ([], pieces)
  match rest.reverse.dropWhile isIdle with
  | [] => ⟨""⟩
  | _ :: before =>
    let kept := start ++ (before.dropWhile isIdle).reverse
    if kept = [[]] then ⟨"/"⟩ else ⟨"/".intercalate (kept.map String.ofList)⟩

/-- The path up to its last slash; empty when it has none. -/
def beforeLastSlash (p : Path) : Path := ⟨"/".intercalate ((cutAt '/' p.text.toList).dropLast.map String.ofList)⟩

/-- What follows the last point of a name; a name that starts with its only point has no extension. -/
def extensionOf (name : List Char) : Option (List Char) :=
  let extension := (name.reverse.takeWhile (· ≠ '.')).reverse
  match name.reverse.dropWhile (· ≠ '.') with
  | _ :: _ :: _ => some extension
  | _ => none

/-- The extension of the last component. -/
def extension? (p : Path) : Option (List Char) :=
  match p.components.getLast? with
  | none => none
  | some name => if name = "." ∨ name = ".." then none else extensionOf name.toList

/-- The path has the extension `json`, in letters of any case. -/
def isJson (p : Path) : Bool := p.extension?.any fun extension => extension.map Char.toLower == "json".toList

end Path

/-! ## Why a file cannot be used -/

/-- Why a file or a stream cannot be read or written. -/
inductive FileError where
  | noSuchFile
  | busy
  | notADirectory
  | isADirectory
  | invalidArgument
  | nameTooLong
  | nameWithNul
  | notUtf8
  /-- A stream failed with a text of its own. -/
  | stream (text : String)
deriving DecidableEq, Repr

/-- The text of a file error. -/
def FileError.message : FileError → String
  | .noSuchFile => "No such file or directory (os error 2)"
  | .busy => "Device or resource busy (os error 16)"
  | .notADirectory => "Not a directory (os error 20)"
  | .isADirectory => "Is a directory (os error 21)"
  | .invalidArgument => "Invalid argument (os error 22)"
  | .nameTooLong => "File name too long (os error 36)"
  | .nameWithNul => "file name contained an unexpected NUL byte"
  | .notUtf8 => "stream did not contain valid UTF-8"
  | .stream text => text

end BeaconMap
