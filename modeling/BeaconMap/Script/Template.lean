import BeaconMap.Files.Path
import BeaconMap.Script.Block
import BeaconMap.Text.Bytes
import BeaconMap.Text.Quoted
/-!
# Splicing a block into a template

A template is read line by line (`LineStream`). The lines up to the sentinel line are copied byte for byte, the
sentinel line is replaced by the block, and the lines after it are copied too, the last one getting a line feed
if it has none. A template need not be text. A stream that fails before its end fails the whole script.

`emit` renders the whole script before it writes the first byte, so a script that cannot be rendered leaves the
sink untouched. A sink that stops taking bytes keeps those it took.
-/

namespace BeaconMap

/-! ## Why a script is not written -/

/-- Why a script is not written. -/
inductive ScriptError where
  | malformedTemplate (sentinel : String)
  | file (error : FileError)
  | network (error : NetworkError)
deriving DecidableEq, Repr

/-- The text of a script error. -/
def ScriptError.message : ScriptError → String
  | .malformedTemplate sentinel => "Malformed template: sentinel line " ++ quoted sentinel ++ " not found"
  | .file error => "I/O error: " ++ error.message
  | .network error => "Network error: " ++ error.message

/-! ## Reading a template -/

/-- The sentinel line of a template that names none. -/
def defaultSentinel : String := ";;===start"

/-- The bytes a stream yields, and how it fails after them, if it does. -/
structure Source where
  bytes : Bytes
  failure : Option FileError := none
deriving DecidableEq, Repr

/-- What comes of reading a stream line by line. -/
inductive LineStream where
  | line (bytes : Bytes) (rest : LineStream)
  | ended
  | failed (error : FileError)
deriving DecidableEq, Repr

namespace LineStream

/-- The given lines, and then the end or the failure of the stream. -/
def ofLines (lines : List Bytes) (failure : Option FileError) : LineStream :=
  match lines with
  | [] => match failure with
    | none => .ended
    | some error => .failed error
  | first :: rest => .line first (ofLines rest failure)

end LineStream

/-- Reads a stream line by line; a line that a failure cuts short is never seen. -/
def Source.lineStream (source : Source) : LineStream :=
  let lines := Bytes.cutLines source.bytes
  match source.failure with
  | none => .ofLines lines none
  | some error => .ofLines (lines.filter Bytes.isTerminated) (some error)

namespace Script

/-- The copied lines before the sentinel line, and the stream after it. -/
def preamble (sentinel : String) : LineStream → Except ScriptError (Bytes × LineStream)
  | .ended => .error (.malformedTemplate sentinel)
  | .failed error => .error (.file error)
  | .line bytes rest =>
    if bytes.content = utf8 sentinel then .ok ([], rest)
    else do
      let (copied, after) ← preamble sentinel rest
      return (bytes.terminated ++ copied, after)

/-- The copied lines after the sentinel line. -/
def postamble : LineStream → Except ScriptError Bytes
  | .ended => .ok []
  | .failed error => .error (.file error)
  | .line bytes rest => do
    let copied ← postamble rest
    return bytes.terminated ++ copied

/-- The lines of a block as bytes, each with its line feed. -/
def blockBytes (lines : List String) : Bytes := lines.flatMap fun line => utf8 line ++ [Bytes.lineFeed]

/-- The script of a graph: its block in place of the sentinel line of the template. -/
def render (sentinel : String) (g : Graph) (template : Source) : Except ScriptError Bytes := do
  let (before, stream) ← preamble sentinel template.lineStream
  let block ← g.mapBlock.mapError ScriptError.network
  let after ← postamble stream
  return before ++ blockBytes block ++ after

end Script

/-! ## Writing a script to a sink -/

/-- A sink that takes bytes up to a capacity, if it has one, and then fails. -/
structure Sink where
  capacity : Option Nat := none
  failure : FileError := .stream "write failed"
deriving DecidableEq, Repr

namespace Sink

/-- The bytes of `bytes` that reach the sink. -/
def taken (sink : Sink) (bytes : Bytes) : Bytes :=
  match sink.capacity with
  | none => bytes
  | some capacity => bytes.take capacity

/-- The outcome of writing all of `bytes`. -/
def write (sink : Sink) (bytes : Bytes) : Except ScriptError Unit :=
  match sink.capacity with
  | none => .ok ()
  | some capacity => if bytes.length ≤ capacity then .ok () else .error (.file sink.failure)

end Sink

namespace Script

/-- Writes the script of a graph to a sink: the outcome, and the bytes that reached the sink. -/
def emit (sentinel : String) (g : Graph) (template : Source) (sink : Sink) : Except ScriptError Unit × Bytes :=
  match render sentinel g template with
  | .error error => (.error error, [])
  | .ok script => (sink.write script, sink.taken script)

end Script

end BeaconMap
