import BeaconMap.Files.Volume
import BeaconMap.Json.Decoder
import BeaconMap.Toml.Decoder
/-!
# Where descriptions come from

Descriptions are files below a base directory. The extension of the path alone decides how a file is read: `.json` as
JSON, anything else as TOML. No map is generated when the description of its network cannot be loaded, when the network
is refused, or when the script is not written (`GenerationError`).
-/

namespace BeaconMap

/-! ## Why no map is generated -/

/-- Why a description is not loaded. -/
inductive LoadFailure where
  | unreadable (error : FileError)
  /-- There is a problem with its text, and this is what the reader of documents says of it. -/
  | refused (problem : Problem) (said : String)
deriving DecidableEq, Repr

/-- The text of a failure. -/
def LoadFailure.message : LoadFailure → String
  | .unreadable error => error.message
  | .refused _ said => said

/-- Why no map is generated. -/
inductive GenerationError where
  | description (path : Path) (failure : LoadFailure)
  | network (error : NetworkError)
  | script (error : ScriptError)
deriving DecidableEq, Repr

/-- The text of an error. -/
def GenerationError.message : GenerationError → String
  | .description path failure => "Description error: " ++ path.text ++ ": " ++ failure.message
  | .network error => "Network error: " ++ error.message
  | .script error => "Emit error: " ++ error.message

/-! ## Loading a description -/

/-- The directory that descriptions are read from, and what is said of those that are refused. -/
structure DescriptionSource where
  base : Path
  wording : Wording := .plain

namespace DescriptionSource

/-- The variable of the environment that names the base. -/
def variableName : String := "BEACON_NET_DATA_DIR"

/-- The base that is given, else the one that the environment names, else the working directory. -/
def choose (given : Option Path) (environment : Option String) (wording : Wording := .plain) : DescriptionSource :=
  ⟨given.getD ⟨environment.getD "."⟩, wording⟩

/-- The path of a description. -/
def path (source : DescriptionSource) (name : String) : Path := source.base.join name

/-- The kind of document that a path demands. -/
def kind (path : Path) : DocumentKind := if path.isJson then .json else .toml

/-- Reads the text of a description. -/
def read : DocumentKind → String → Except Problem Description
  | .json => Description.ofJson
  | .toml => Description.ofToml

/-- Loads a description. -/
def load (source : DescriptionSource) (tree : FileTree) (name : String) (volume : Volume := .unlimited) :
    Except GenerationError Description := do
  let path := source.path name
  let text ← (volume.readText tree path).mapError fun error => .description path (.unreadable error)
  (read (kind path) text).mapError fun problem => .description path (.refused problem (source.wording (kind path) text problem))

end DescriptionSource

end BeaconMap
