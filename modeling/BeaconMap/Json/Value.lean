import BeaconMap.Number.Numeral
/-!
# JSON values, whole and broken off

A `JsonValue` is what a JSON text says as far as it can be read. A text that breaks off leaves a `malformed` value
in the place where it does, or a list or an object that is not `closed`; everything before that place is kept,
because a reader that stops earlier never gets there. Numbers keep their written form, and members their order.
-/

namespace BeaconMap

/-- What stands in the place of a member's name. -/
inductive JsonName where
  | text (name : String)
  /-- A string whose escapes name half a surrogate pair. -/
  | unpaired
  /-- Something that is no string. -/
  | absent
deriving DecidableEq, Repr

/-- What a JSON text says, as far as it can be read. -/
inductive JsonValue where
  | null
  | boolean (value : Bool)
  | number (numeral : Numeral)
  | string (text : String)
  /-- A string whose escapes name half a surrogate pair. -/
  | unpaired
  | array (items : List JsonValue) (closed : Bool)
  | object (members : List (JsonName × JsonValue)) (closed : Bool)
  | malformed
deriving Repr, Inhabited

namespace JsonValue

mutual

/-- The text of the value is well formed; half a surrogate pair does no harm in a value that nobody reads. -/
def isWhole : JsonValue → Bool
  | .null | .boolean _ | .number _ | .string _ | .unpaired => true
  | .array items closed => closed && areWhole items
  | .object members closed => closed && areWholeMembers members
  | .malformed => false

/-- The texts of all items are well formed. -/
def areWhole : List JsonValue → Bool
  | [] => true
  | item :: rest => isWhole item && areWhole rest

/-- The texts of all members are well formed. -/
def areWholeMembers : List (JsonName × JsonValue) → Bool
  | [] => true
  | (name, value) :: rest => name != .absent && isWhole value && areWholeMembers rest

end

end JsonValue

end BeaconMap
