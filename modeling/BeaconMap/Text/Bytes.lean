/-!
# Bytes

Templates, scripts and files are lists of bytes; a text is written as UTF-8. `cutLines` cuts bytes after every
line feed, and nothing is lost: the lines together are the bytes.
-/

namespace BeaconMap

/-- A sequence of bytes. -/
abbrev Bytes := List UInt8

/-- The UTF-8 form of a text. -/
def utf8 (text : String) : Bytes := text.toByteArray.data.toList

/-- The text whose UTF-8 form the bytes are, if there is one. -/
def ofUtf8? (bytes : Bytes) : Option String := String.fromUTF8? ⟨bytes.toArray⟩

namespace Bytes

/-- The byte that ends a line. -/
def lineFeed : UInt8 := 10

/-- The byte that may stand before the line feed. -/
def carriageReturn : UInt8 := 13

/-- Cuts after every line feed; only the last line may lack one. -/
def cutLines : Bytes → List Bytes
  | [] => []
  | b :: rest =>
    if b = lineFeed then [b] :: cutLines rest
    else match cutLines rest with
      | [] => [[b]]
      | line :: lines => (b :: line) :: lines

theorem flatten_cutLines (bytes : Bytes) : (cutLines bytes).flatten = bytes := by
  induction bytes with
  | nil => rfl
  | cons b rest ih =>
    simp only [cutLines]
    split
    · simp [ih]
    · split
      · rename_i h
        rw [h] at ih
        simp [← ih]
      · rename_i h
        rw [h] at ih
        simp [← ih]

/-- The bytes end in a line feed. -/
def isTerminated (line : Bytes) : Bool := line.getLast? == some lineFeed

/-- Takes one byte off the end if it is `last`. -/
def dropEnd (last : UInt8) (line : Bytes) : Bytes :=
  if line.getLast? = some last then line.dropLast else line

/-- A line without its line feed and without the carriage return before it. -/
def content (line : Bytes) : Bytes := dropEnd carriageReturn (dropEnd lineFeed line)

/-- A line with a line feed at its end. -/
def terminated (line : Bytes) : Bytes := if isTerminated line then line else line ++ [lineFeed]

end Bytes

end BeaconMap
