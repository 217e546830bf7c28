import BeaconMap.Script.Template
/-!
# Configurations

What a run is to do: which template to fill, where to put the map, which network to read, and how much of the run to
report, from errors alone to every detail. Each section has a default that stands in for it when it is left out.
-/

namespace BeaconMap

/-! ## Levels -/

/-- How much is reported. -/
inductive LogLevel where
  | error
  | warn
  | info
  | debug
  | trace
deriving DecidableEq, Repr, Inhabited

namespace LogLevel

/-- All levels, from the fewest reports to the most. -/
def all : List LogLevel := [.error, .warn, .info, .debug, .trace]

/-- The level as it is named in a configuration and in directives. -/
def name : LogLevel → String
  | .error => "error"
  | .warn => "warn"
  | .info => "info"
  | .debug => "debug"
  | .trace => "trace"

/-- The level as the threshold of a log file is named. -/
def filter (level : LogLevel) : String := String.ofList (level.name.toList.map Char.toUpper)

end LogLevel

/-! ## Sections -/

/-- The template and the line at which the map goes into it. -/
structure TemplateConfig where
  path : Path := ⟨"resources/template.nlogo"⟩
  sentinel : String := defaultSentinel
deriving DecidableEq, Repr

/-- Where the map goes. -/
structure OutputConfig where
  path : Path := ⟨"map.nlogo"⟩
deriving DecidableEq, Repr

/-- The description of the network, and the directory it is read from if one is given. -/
structure NetworkConfig where
  dataDirectory : Option Path := none
  description : String := "network.toml"
deriving DecidableEq, Repr

/-- How much is reported, and the log file that is opened if one is given. -/
structure LoggingConfig where
  level : LogLevel := .info
  file : Option String := none
deriving DecidableEq, Repr

/-- What a run is to do. -/
structure Config where
  template : TemplateConfig := {}
  output : OutputConfig := {}
  network : NetworkConfig := {}
  logging : LoggingConfig := {}
deriving DecidableEq, Repr

namespace Config

/-- Two directories that may be given are both left out, or the same. -/
def sameDirectory : Option Path → Option Path → Bool
  | none, none => true
  | some p, some q => p.same q
  | _, _ => false

/-- Two configurations say the same; paths count by their components. -/
def same (a b : Config) : Bool :=
  a.template.path.same b.template.path && a.template.sentinel == b.template.sentinel &&
  a.output.path.same b.output.path &&
  sameDirectory a.network.dataDirectory b.network.dataDirectory &&
  a.network.description == b.network.description &&
  a.logging == b.logging

/-- The configuration says the same as the default one. -/
def isDefault (config : Config) : Bool := config.same {}

end Config

end BeaconMap
