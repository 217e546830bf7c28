import BeaconMap.Document.NetworkSchema
import BeaconMap.Json.Number
import BeaconMap.Json.Reader
/-!
# Descriptions from JSON

Values are looked at in the order of the text, and the first problem counts. What is read has to be well formed up to
that problem; a value of the wrong kind is refused by its first character, a member with a known name by its name
alone. Members with unknown names may hold anything that is well formed. A record may be written as the list of its
fields in their order; a variant as its name, or as an object that gives the name the value `null`.
-/

namespace BeaconMap

namespace JsonValue

variable {α : Type} (convert : Numeral → Option Binary64)

/-- What a value is found to be. -/
def found : JsonValue → Except Problem Found
  | .null => .ok .null
  | .boolean value => .ok (.boolean value)
  | .number numeral => JsonNumber.found convert numeral
  | .string text => .ok (.string text)
  | .array _ _ => .ok .sequence
  | .object _ _ => .ok .map
  | .unpaired | .malformed => .error .malformed

/-- The problem of a value of the wrong kind. -/
def mismatch (value : JsonValue) (expected : Expected) : Except Problem α := do
  throw (.invalidType (← found convert value) expected)

/-- Passes when the text is closed. -/
def requireClosed : Bool → Except Problem Unit
  | true => .ok ()
  | false => .error .malformed

/-- Reads a list. -/
def list (read : JsonValue → Except Problem α) : JsonValue → Except Problem (List α)
  | .array items closed => do
    let values ← items.mapM read
    requireClosed closed
    return values
  | value => mismatch convert value .sequence

/-- Reads one of several named values. -/
def variant (known : List (String × α)) : JsonValue → Except Problem α
  | .string name => variantNamed known name
  | .object ((.text name, content) :: rest) closed => do
    let value ← variantNamed known name
    match content with
    | .null => if rest.isEmpty && closed then return value else throw .malformed
    | _ => mismatch convert content .unit
  | _ => .error .malformed

/-- Reads the members of an object into a record; also the names of the fields that were read. -/
def readMembers (record : Record JsonValue α) :
    List (JsonName × JsonValue) → List String → α → Except Problem (α × List String)
  | [], seen, target => .ok (target, seen)
  | (.text name, content) :: rest, seen, target =>
    match record.field? name with
    | none => if content.isWhole then readMembers record rest seen target else .error .malformed
    | some field =>
      if seen.contains name then .error (.duplicateField name)
      else do readMembers record rest (name :: seen) (← field.store content target)
  | _ :: _, _, _ => .error .malformed

/-- Reads the items of a list into the fields of a record. -/
def readItems (record : Record JsonValue α) (closed : Bool) (count : Nat) :
    List (Field JsonValue α) → List JsonValue → α → Except Problem α
  | [], items, target => if items.isEmpty && closed then .ok target else .error .malformed
  | fields, [], target => do
    requireClosed closed
    record.requireRest count fields
    return target
  | field :: fields, item :: items, target => do
    readItems record closed (count + 1) fields items (← field.store item target)

/-- Reads a record. -/
def record (record : Record JsonValue α) : JsonValue → Except Problem α
  | .object members closed => do
    let (target, seen) ← readMembers record members [] record.blank
    requireClosed closed
    record.requireAll seen
    return target
  | .array items closed => readItems record closed 0 record.fields items record.blank
  | value => mismatch convert value (.record record.name)

/-- JSON documents under a conversion of numbers to doubles. -/
def format : Format JsonValue where
  found := found convert
  list := list convert
  variant := variant convert
  record := record convert

end JsonValue

/-- Reads a value and then passes when nothing follows it. -/
def JsonText.decode {α : Type} (text : JsonText) (read : JsonValue → Except Problem α) : Except Problem α := do
  let value ← read text.value
  if text.ended then return value else throw .malformed

/-- Reads a description from a JSON text under a conversion of numbers to doubles. -/
def Description.ofJsonWith (convert : Numeral → Option Binary64) (text : String) : Except Problem Description :=
  let format := JsonValue.format convert
  (JsonText.ofText text).decode (format.record (NetworkSchema.description format))

/-- Reads a description from a JSON text. -/
def Description.ofJson (text : String) : Except Problem Description :=
  Description.ofJsonWith JsonNumber.quickConversion text

end BeaconMap
