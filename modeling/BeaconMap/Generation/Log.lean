import BeaconMap.Configuration.Config
import BeaconMap.Files.Volume
/-!
# Logs

What a run reports, message by message. A log is the list of the messages it got.

A log file is opened before anything is generated: the directories above it are made, and so is the file where it is
missing. What it holds is kept, and the messages of the run are appended to it, with the time of each. How they are
written down there, and when they arrive, is up to the library that writes log files (`Recorder`).
-/

namespace BeaconMap

/-! ## Messages -/

/-- How grave a message is. -/
inductive Severity where
  | info
  | warn
  | error
deriving DecidableEq, Repr

/-- A level lets messages of a severity through. -/
def LogLevel.shows (level : LogLevel) : Severity → Bool
  | .error => true
  | .warn => level != .error
  | .info => level != .error && level != .warn

/-- A message to a log. -/
structure LogMessage where
  severity : Severity
  text : String
deriving DecidableEq, Repr

/-- The messages a log got, in order. -/
abbrev Log := List LogMessage

namespace Log

/-- Sends a message to each of several logs. -/
def send (logs : List Log) (message : LogMessage) : List Log := logs.map (· ++ [message])

/-- Sends messages one after the other to each of several logs. -/
def sendAll (logs : List Log) (messages : List LogMessage) : List Log := messages.foldl send logs

end Log

/-! ## Log files -/

/-- How the messages of a run come to a log file. -/
structure Recorder where
  /-- The time at which a message is sent, by the number of those before it. -/
  time : Nat → String
  /-- The bytes that get into a file with a level once these messages have been sent to it, beside those that got there
  before the last of them was sent. -/
  bytes : LogLevel → Log → Bytes

namespace Recorder

/-- The messages of a log with their times. -/
def dated (recorder : Recorder) (log : Log) : Log :=
  log.mapIdx fun i message => { message with text := recorder.time i ++ " - " ++ message.text }

/-- Each message that the level lets through is a line, which is there as soon as it is sent. -/
def plain (time : String) : Recorder where
  time _ := time
  bytes level log :=
    match log.getLast? with
    | some message => if level.shows message.severity then utf8 message.text ++ [Bytes.lineFeed] else []
    | none => []

end Recorder

/-- A log file that is open: where it stands, and what more it gets once these messages have been sent. -/
structure LogFile where
  location : Location
  more : Log → Bytes

namespace LogFile

/-- The tree with what more a log file, if there is one, gets once these messages have been sent. -/
def record (file : Option LogFile) (log : Log) (tree : FileTree) : FileTree :=
  match file with
  | some file => tree.append file.location (file.more log)
  | none => tree

/-- The path of a log file; a backslash in its name parts directories as a slash does. -/
def path (name : String) : Path := ⟨String.ofList (name.toList.map fun c => if c = '\\' then '/' else c)⟩

/--
Opens a log file: where it stands, and the file tree after it. The directories that were made for it stay when the file
itself cannot be opened.
-/
def ready (name : String) (tree : FileTree) (volume : Volume := .unlimited) : Except FileError Location × FileTree :=
  let reached := FileTree.makeWay volume.barred tree (path name).beforeLastSlash
  match volume.openToAppend reached (path name) with
  | .ok (location, opened) => (.ok location, opened)
  | .error error => (.error error, reached)

end LogFile

end BeaconMap
