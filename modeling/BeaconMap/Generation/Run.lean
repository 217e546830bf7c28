import BeaconMap.Generation.Log
import BeaconMap.Generation.Source
/-!
# Generating a map

A generator loads the description of a network, builds the network and writes its map. Each of the three steps
reports its failure, building and writing also their success, so the last message tells how the run went.

The script goes into a file of its own beside the destination, and is moved over the destination once it is complete.
When anything fails, that file is taken away again and the destination stays as it was.
-/

namespace BeaconMap

/-! ## Writing a map to a file -/

/-- A template, the file that its script goes to, and the sentinel line. -/
structure MapFile where
  template : Path
  output : Path
  sentinel : String := defaultSentinel
deriving DecidableEq, Repr

namespace MapFile

/-- Writes the script of a graph into the prepared file at a location and moves it to the output. -/
def fill (map : MapFile) (g : Graph) (template : Source) (staged : Location) (tree : FileTree)
    (volume : Volume := .unlimited) : Except ScriptError FileTree := do
  let (outcome, bytes) := Script.emit map.sentinel g template volume.room
  outcome
  (volume.move (tree.put staged (.file bytes)) staged bytes map.output).mapError ScriptError.file

/-- Writes the map of a graph: the outcome, and the file tree after it. -/
def write (map : MapFile) (g : Graph) (tree : FileTree) (volume : Volume := .unlimited) :
    Except ScriptError Unit × FileTree :=
  let opened : Except FileError (Source × Location) := do
    return (← volume.openPath tree map.template, ← volume.prepare tree map.output)
  match opened with
  | .error error => (.error (.file error), tree)
  | .ok (template, staged) =>
    let prepared := tree.put staged (.file [])
    match map.fill g template staged prepared volume with
    | .ok written => (.ok (), written)
    | .error error => (.error error, prepared.erase staged)

end MapFile

/-! ## Runs -/

/-- How much of a network went into a map. -/
structure Report where
  nodes : Nat
  edges : Nat
  behaviors : Nat
deriving DecidableEq, Repr

/-- What a graph holds. -/
def Report.ofGraph (g : Graph) : Report := ⟨g.nodes.size, g.edges.size, g.behaviors.size⟩

/-- Where descriptions come from, and where their maps go. -/
structure Generator where
  source : DescriptionSource
  map : MapFile

namespace Generator

/-- The message that a description was not loaded. -/
def notLoaded (name : String) (error : GenerationError) : LogMessage :=
  ⟨.error, "Failed to load " ++ name ++ ": " ++ error.message⟩

/-- The message that a network was refused. -/
def rejected (name : String) (error : NetworkError) : LogMessage :=
  ⟨.error, "Network " ++ name ++ " rejected: " ++ error.message⟩

/-- The message that a network was built. -/
def built (name : String) (report : Report) : LogMessage :=
  ⟨.info, "Network " ++ name ++ " built: " ++ report.nodes.repr ++ " nodes, " ++ report.edges.repr ++ " edges, " ++
    report.behaviors.repr ++ " behaviors"⟩

/-- The message that a map was not written. -/
def notWritten (name : String) (error : ScriptError) : LogMessage :=
  ⟨.error, "Map generation for " ++ name ++ " failed: " ++ error.message⟩

/-- The message that a map was written. -/
def written (name : String) : LogMessage := ⟨.info, "Map for " ++ name ++ " written"⟩

/-- Builds the network of a description: the outcome, and the messages on the way. -/
def build (generator : Generator) (tree : FileTree) (name : String) (volume : Volume := .unlimited) :
    Except GenerationError Graph × Log :=
  match generator.source.load tree name volume with
  | .error error => (.error error, [notLoaded name error])
  | .ok description =>
    match (description.applyTo {}).1 with
    | .error error => (.error (.network error), [rejected name error])
    | .ok g => (.ok g, [built name (.ofGraph g)])

/-- What comes of a run. -/
structure Outcome where
  result : Except GenerationError Report
  log : Log
  /-- The file tree after the run. -/
  tree : FileTree

/-- The log file, unless the map was moved over it: what comes to it after that is nowhere to be found. -/
def unreplaced (generator : Generator) (tree : FileTree) (file : Option LogFile) : Option LogFile :=
  file.filter fun file => (tree.destination generator.map.output).toOption != some file.location

/-- Generates the map of a description; the messages go to a log file too, if one is open. -/
def run (generator : Generator) (tree : FileTree) (name : String) (volume : Volume := .unlimited)
    (file : Option LogFile := none) : Outcome :=
  match generator.build tree name volume with
  | (.error error, log) => ⟨.error error, log, LogFile.record file log tree⟩
  | (.ok g, log) =>
    let reported := LogFile.record file log tree
    match generator.map.write g reported volume with
    | (.error error, after) =>
      let log := log ++ [notWritten name error]
      ⟨.error (.script error), log, LogFile.record file log after⟩
    | (.ok (), after) =>
      let log := log ++ [written name]
      ⟨.ok (.ofGraph g), log, LogFile.record (generator.unreplaced reported file) log after⟩

end Generator

end BeaconMap
