import BeaconMap.Configuration.Config
import BeaconMap.Files.Volume
import BeaconMap.Toml.Decoder
/-!
# Reading configurations

A configuration is a TOML document with up to four tables. A table that is left out has its default; in a table that
is there the paths and the description have to be given.
-/

namespace BeaconMap

namespace ConfigSchema

variable {V : Type} (F : Format V)

/-- Reads a path. -/
def path (value : V) : Except Problem Path := (F.text .path value).map Path.mk

/-- The section on the template. -/
def template : Record V TemplateConfig where
  name := "TemplateConfig"
  blank := {}
  fields := [
    ⟨"path", true, path F, fun path c => { c with path }⟩,
    ⟨"sentinel", false, F.text .string, fun sentinel c => { c with sentinel }⟩]

/-- The section on the output. -/
def output : Record V OutputConfig where
  name := "OutputConfig"
  blank := {}
  fields := [⟨"path", true, path F, fun path c => { c with path }⟩]

/-- The section on the network. -/
def network : Record V NetworkConfig where
  name := "NetworkConfig"
  blank := {}
  fields := [
    ⟨"data_dir", false, path F, fun directory c => { c with dataDirectory := some directory }⟩,
    ⟨"description", true, F.text .string, fun description c => { c with description }⟩]

/-- The levels by name. -/
def levels : List (String × LogLevel) := LogLevel.all.map fun level => (level.name, level)

/-- The section on logging. -/
def logging : Record V LoggingConfig where
  name := "LoggingConfig"
  blank := {}
  fields := [
    ⟨"level", false, F.variant levels, fun level c => { c with level }⟩,
    ⟨"file", false, F.text .string, fun file c => { c with file := some file }⟩]

/-- A whole configuration. -/
def config : Record V Config where
  name := "Config"
  blank := {}
  fields := [
    ⟨"template", false, F.record (template F), fun template c => { c with template }⟩,
    ⟨"output", false, F.record (output F), fun output c => { c with output }⟩,
    ⟨"network", false, F.record (network F), fun network c => { c with network }⟩,
    ⟨"logging", false, F.record (logging F), fun logging c => { c with logging }⟩]

end ConfigSchema

/-- Why there is no configuration. -/
inductive ConfigError where
  | unreadable (path : Path) (error : FileError)
  | refused (path : Path) (problem : Problem)
deriving DecidableEq, Repr

/-- What was being done when a configuration failed. -/
def ConfigError.context : ConfigError → String
  | .unreadable path _ => "reading config " ++ path.text
  | .refused path _ => "parsing config " ++ path.text

/-- The text of an error of a configuration. -/
def ConfigError.message (error : ConfigError) : String :=
  error.context ++ ": " ++ match error with
    | .unreadable _ error => error.message
    | .refused _ problem => problem.message .toml

namespace Config

/-- Reads a configuration from a TOML text. -/
def ofToml (text : String) : Except Problem Config := (ConfigSchema.config TomlValue.format).ofToml text

/-- Reads a configuration from a file. -/
def ofFile (tree : FileTree) (path : Path) (volume : Volume := .unlimited) : Except ConfigError Config := do
  let text ← (volume.readText tree path).mapError (.unreadable path)
  (ofToml text).mapError (.refused path)

end Config

end BeaconMap
