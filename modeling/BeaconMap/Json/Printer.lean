import BeaconMap.Json.Value
import BeaconMap.Network.Description
import BeaconMap.Number.NumberStyle
/-!
# Descriptions as JSON

`Description.toJson` gives every field of a description, in the order of their declaration; an infinity or a NaN,
which JSON cannot write, becomes `null`. `JsonValue.text` writes a value without any blanks.
-/

namespace BeaconMap

namespace JsonValue

/-- The digits of a control character's code after `\u`. -/
def unitDigits (code : Nat) : List Char :=
  ['0', '0', Nat.digitChar (code / 16), Nat.digitChar (code % 16)]

/-- The written form of one character of a string. -/
def escaped (c : Char) : List Char :=
  match c with
  | '"' => ['\\', '"']
  | '\\' => ['\\', '\\']
  | '\x08' => ['\\', 'b']
  | '\x0c' => ['\\', 'f']
  | '\n' => ['\\', 'n']
  | '\r' => ['\\', 'r']
  | '\t' => ['\\', 't']
  | _ => if c < ' ' then '\\' :: 'u' :: unitDigits c.toNat else [c]

/-- The written form of a string. -/
def stringText (text : String) : List Char := '"' :: text.toList.flatMap escaped ++ ['"']

/-- The written form of a name; one that is no text has none. -/
def nameText : JsonName → List Char
  | .text name => stringText name
  | .unpaired | .absent => []

mutual

/-- The written form of a value; what is not whole has none. -/
def chars : JsonValue → List Char
  | .null => ['n', 'u', 'l', 'l']
  | .boolean true => ['t', 'r', 'u', 'e']
  | .boolean false => ['f', 'a', 'l', 's', 'e']
  | .number numeral => numeral.text.toList
  | .string text => stringText text
  | .array items _ => '[' :: itemChars items ++ [']']
  | .object members _ => '\x7b' :: memberChars members ++ ['\x7d']
  | .unpaired | .malformed => []

/-- The written form of items, with commas between them. -/
def itemChars : List JsonValue → List Char
  | [] => []
  | [item] => chars item
  | item :: rest => chars item ++ ',' :: itemChars rest

/-- The written form of members, with commas between them. -/
def memberChars : List (JsonName × JsonValue) → List Char
  | [] => []
  | [(name, value)] => nameText name ++ ':' :: chars value
  | (name, value) :: rest => nameText name ++ ':' :: (chars value ++ ',' :: memberChars rest)

end

/-- The text of a value. -/
def text (value : JsonValue) : String := String.ofList value.chars

/-- A list of values. -/
def ofList (items : List JsonValue) : JsonValue := .array items true

/-- An object with named members. -/
def ofMembers (members : List (String × JsonValue)) : JsonValue :=
  .object (members.map fun (name, value) => (.text name, value)) true

/-- An integer. -/
def ofInt (n : Int) : JsonValue :=
  .number ⟨decide (n < 0), Nat.toDigits 10 n.natAbs, none, none⟩

/-- A double. -/
def ofReal (x : Binary64) : JsonValue :=
  if x.isFinite then .number (NumberStyle.document.numeral x) else .null

/-- A 32-bit natural number. -/
def ofUInt32 (n : UInt32) : JsonValue := ofInt n.toNat

/-- A 32-bit integer. -/
def ofInt32 (n : Int32) : JsonValue := ofInt n.toInt

end JsonValue

open JsonValue

/-- A coordinate as JSON. -/
def Coordinate.toJson (c : Coordinate) : JsonValue := ofMembers [("x", ofInt32 c.x), ("y", ofInt32 c.y)]

/-- A share as JSON. -/
def DescribedShare.toJson (s : DescribedShare) : JsonValue :=
  ofMembers [("behavior", ofUInt32 s.behavior), ("percentage", ofReal s.percentage)]

/-- A behavior as JSON. -/
def DescribedBehavior.toJson (b : DescribedBehavior) : JsonValue :=
  ofMembers [
    ("id", ofUInt32 b.id),
    ("kind", .string b.kind.name),
    ("core_interest_points", ofList (b.core.map Coordinate.toJson)),
    ("optional_interest_points", ofList (b.optional.map Coordinate.toJson))]

/-- A node as JSON. -/
def DescribedNode.toJson (n : DescribedNode) : JsonValue :=
  ofMembers [
    ("kind", .string n.kind.name),
    ("x", ofInt32 n.geometry.position.x),
    ("y", ofInt32 n.geometry.position.y),
    ("width", ofInt32 n.geometry.width),
    ("height", ofInt32 n.geometry.height),
    ("radius", ofInt32 n.geometry.radius),
    ("speed", ofReal n.geometry.speed),
    ("rate", ofReal n.rate),
    ("limit", ofUInt32 n.limit),
    ("percentages", ofList (n.percentages.map DescribedShare.toJson))]

/-- A street as JSON. -/
def DescribedEdge.toJson (e : DescribedEdge) : JsonValue :=
  ofMembers [
    ("source", e.source.toJson),
    ("target", e.target.toJson),
    ("width", ofInt32 e.width),
    ("weight", ofReal e.weight),
    ("directed", .boolean e.directed)]

/-- A description as JSON. -/
def Description.toJson (d : Description) : JsonValue :=
  ofMembers [
    ("behaviors", ofList (d.behaviors.map DescribedBehavior.toJson)),
    ("nodes", ofList (d.nodes.map DescribedNode.toJson)),
    ("edges", ofList (d.edges.map DescribedEdge.toJson))]

end BeaconMap
