import BeaconMap.Configuration.Reader
import BeaconMap.Generation.Log
import BeaconMap.Generation.Run
/-!
# The command line

The first argument names the configuration, and the configuration says all the rest. A configured log file is opened
first, and nothing is generated when that fails. The exit code tells how far a run came. Reports are printed, and go to
the log file too.
-/

namespace BeaconMap

namespace CommandLine

/-- The configuration that is read when no argument names one. -/
def defaultPath : Path := ⟨"config.toml"⟩

/-- The configuration that arguments name. -/
def configPath (arguments : List String) : Path := (arguments.head?.map Path.mk).getD defaultPath

/-- What the program leaves to its libraries: what is said of descriptions that are refused, and how messages come to a
log file. -/
structure Libraries where
  wording : Wording := .plain
  recorder : Recorder := .plain ""

/-- The generator that a configuration describes, where `environment` is the base that the environment names. -/
def generator (environment : Option String) (config : Config) (wording : Wording := .plain) : Generator where
  source := .choose config.network.dataDirectory environment wording
  map := ⟨config.template.path, config.output.path, config.template.sentinel⟩

/-- The paths that a run with a configuration uses. -/
def paths (environment : Option String) (config : Config) : List Path :=
  let generator := generator environment config
  (config.logging.file.map LogFile.path).toList ++
    [generator.source.path config.network.description, generator.map.template, generator.map.output]

/-- What comes of a run of the program. -/
structure Outcome where
  exitCode : UInt32
  /-- What is printed: why nothing was generated, or the messages that the configured level lets through. -/
  reports : Log
  /-- The file tree after the run. -/
  tree : FileTree

/-- The exit code of a run that wrote the map. -/
def succeeded : UInt32 := 0

/-- The exit code of a run that has no configuration, or that did not write the map. -/
def failed : UInt32 := 1

/-- The exit code of a run that ended at a log file that cannot be opened. -/
def aborted : UInt32 := 101

/-- Opens the log file of a configuration, if it has one: where it stands, and the file tree after it. -/
def openLog (config : Config) (tree : FileTree) (volume : Volume := .unlimited) :
    Except FileError (Option Location) × FileTree :=
  match config.logging.file with
  | some name =>
    let (outcome, opened) := LogFile.ready name tree volume
    (outcome.map some, opened)
  | none => (.ok none, tree)

/-- The log file of a configuration, if one is open. -/
def logFile (recorder : Recorder) (config : Config) (log : Option Location) : Option LogFile :=
  log.map fun location => ⟨location, fun sent => recorder.bytes config.logging.level (recorder.dated sent)⟩

/-- Generates the map of a configuration, whose log file, if it has one, stands at `log`. -/
def generate (environment : Option String) (config : Config) (tree : FileTree) (log : Option Location)
    (volume : Volume := .unlimited) (libraries : Libraries := {}) : Outcome :=
  let outcome := (generator environment config libraries.wording).run tree config.network.description volume
    (logFile libraries.recorder config log)
  { exitCode := match outcome.result with
      | .ok _ => succeeded
      | .error _ => failed
    reports := outcome.log.filter fun message => config.logging.level.shows message.severity
    tree := outcome.tree }

/-- Runs the program. -/
def run (arguments : List String) (environment : Option String) (tree : FileTree) (volume : Volume := .unlimited)
    (libraries : Libraries := {}) : Outcome :=
  match Config.ofFile tree (configPath arguments) volume with
  | .error error => ⟨failed, [⟨.error, error.message⟩], tree⟩
  | .ok config =>
    match openLog config tree volume with
    | (.error error, after) => ⟨aborted, [⟨.error, error.message⟩], after⟩
    | (.ok log, after) => generate environment config after log volume libraries

end CommandLine

end BeaconMap
