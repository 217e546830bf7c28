import BeaconMap.Document.NetworkSchema
import BeaconMap.Toml.Reader
/-!
# Structures from TOML

The whole text is read before any value is looked at. The entries of a table are looked at in their order, and the
first problem counts; entries with unknown names are passed over. A record may be written as the list of its fields
in their order; what follows the last field is passed over. A variant is its name, or a table that gives the name
an empty list or table. A date is a table without known names.
-/

namespace BeaconMap

namespace TomlValue

variable {α : Type}

/-- What a value is found to be. -/
def found : TomlValue → Found
  | .string text => .string text
  | .integer value => .integer value
  | .real value => .real value
  | .boolean value => .boolean value
  | .array _ | .tables _ => .sequence
  | .datetime | .table _ _ => .map

/-- The problem of a value of the wrong kind. -/
def mismatch (value : TomlValue) (expected : Expected) : Problem := .invalidType value.found expected

/-- Reads a list. -/
def list (read : TomlValue → Except Problem α) : TomlValue → Except Problem (List α)
  | .array items | .tables items => items.mapM read
  | value => .error (value.mismatch .sequence)

/--
Passes when a value says nothing, as the content of a variant has to. A list in brackets stands in the place of a
table; a list that grew by headers is called what it is.
-/
def requireEmpty : TomlValue → Except Problem Unit
  | .tables items => if items.isEmpty then .ok () else .error (.notEmpty "array")
  | .array items => if items.isEmpty then .ok () else .error (.notEmpty "table")
  | .table _ entries => if entries.isEmpty then .ok () else .error (.notEmpty "table")
  | .string _ => .error (.notTable "string")
  | .integer _ => .error (.notTable "integer")
  | .real _ => .error (.notTable "float")
  | .boolean _ => .error (.notTable "boolean")
  | .datetime => .error (.notTable "datetime")

/-- Reads one of several named values. -/
def variant (known : List (String × α)) : TomlValue → Except Problem α
  | .string name => variantNamed known name
  | .table _ [(name, content)] => do
    let value ← variantNamed known name
    requireEmpty content
    return value
  | .table _ [] => .error .noKey
  | .table _ _ => .error .severalKeys
  | _ => .error .noVariant

/-- Reads the entries of a table into a record. -/
def readEntries (record : Record TomlValue α) (entries : TomlEntries) : Except Problem α := do
  let target ← entries.foldlM (fun target (name, content) =>
    match record.field? name with
    | none => .ok target
    | some field => field.store content target) record.blank
  record.requireAll (entries.map Prod.fst)
  return target

/-- Reads the items of a list into the fields of a record. -/
def readItems (record : Record TomlValue α) (count : Nat) :
    List (Field TomlValue α) → List TomlValue → α → Except Problem α
  | [], _, target => .ok target
  | fields, [], target => do
    record.requireRest count fields
    return target
  | field :: fields, item :: items, target => do
    readItems record (count + 1) fields items (← field.store item target)

/-- Reads a record. -/
def record (record : Record TomlValue α) : TomlValue → Except Problem α
  | .table _ entries => readEntries record entries
  | .datetime => readEntries record []
  | .array items | .tables items => readItems record 0 record.fields items record.blank
  | value => .error (value.mismatch (.record record.name))

/-- TOML documents. -/
def format : Format TomlValue where
  found value := .ok value.found
  list := list
  variant := variant
  record := record

end TomlValue

/-- Reads a structure from a TOML text. -/
def Record.ofToml {α : Type} (record : Record TomlValue α) (text : String) : Except Problem α :=
  match TomlEntries.ofText? text with
  | none => .error .malformed
  | some entries => TomlValue.readEntries record entries

/-- Reads a description from a TOML text. -/
def Description.ofToml (text : String) : Except Problem Description :=
  (NetworkSchema.description TomlValue.format).ofToml text

end BeaconMap
