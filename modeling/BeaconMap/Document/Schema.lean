import BeaconMap.Document.Problem
/-!
# Shapes of documents

A `Record` lists the fields of a structure in the order of their declaration, each with a reader for its value and
a way to store it. A `Format` says how values of a kind of document are looked at: what they are found to be, and
how lists, variants and records are read from them. A shape written against an arbitrary format can be read from
every kind of document.
-/

namespace BeaconMap

/-- One field of a structure `α`, read from values `V`. -/
structure Field (V α : Type) where
  name : String
  /-- The field has no default. -/
  required : Bool
  {β : Type}
  read : V → Except Problem β
  put : β → α → α

/-- Reads the value of a field and stores it. -/
def Field.store {V α : Type} (f : Field V α) (value : V) (target : α) : Except Problem α :=
  (f.read value).map (f.put · target)

/-- A structure `α` as it is read from values `V`. -/
structure Record (V α : Type) where
  name : String
  /-- The structure with all defaults; what it holds in a required field is never seen. -/
  blank : α
  fields : List (Field V α)

namespace Record

variable {V α : Type}

/-- The field with a name. -/
def field? (r : Record V α) (name : String) : Option (Field V α) := r.fields.find? (·.name == name)

/-- Passes when no required field is left out. -/
def requireAll (r : Record V α) (seen : List String) : Except Problem Unit :=
  match r.fields.find? (fun f => f.required && !seen.contains f.name) with
  | some f => .error (.missingField f.name)
  | none => .ok ()

/-- Passes when the fields from the place `count` on, which a list leaves out, all have defaults. -/
def requireRest (r : Record V α) (count : Nat) : List (Field V α) → Except Problem Unit
  | [] => .ok ()
  | f :: rest =>
    if f.required then .error (.invalidLength count r.name r.fields.length) else r.requireRest (count + 1) rest

end Record

/-- How the values of a kind of document are read. -/
structure Format (V : Type) where
  /-- What a value is found to be. -/
  found : V → Except Problem Found
  list : {α : Type} → (V → Except Problem α) → V → Except Problem (List α)
  /-- Reads one of several named values that carry nothing else. -/
  variant : {α : Type} → List (String × α) → V → Except Problem α
  record : {α : Type} → Record V α → V → Except Problem α

/-- The value with a name among several. -/
def variantNamed {α : Type} (known : List (String × α)) (name : String) : Except Problem α :=
  match known.lookup name with
  | some value => .ok value
  | none => .error (.unknownVariant name (known.map Prod.fst))

namespace Format

variable {V : Type} (F : Format V)

/-- Reads a 32-bit signed integer. -/
def int32 (value : V) : Except Problem Int32 := do
  match ← F.found value with
  | .integer n =>
    if Int32.minValue.toInt ≤ n ∧ n ≤ Int32.maxValue.toInt then return .ofInt n
    else throw (.invalidValue n .int32)
  | found => throw (.invalidType found .int32)

/-- Reads a 32-bit natural number. -/
def uint32 (value : V) : Except Problem UInt32 := do
  match ← F.found value with
  | .integer n =>
    if 0 ≤ n ∧ n < UInt32.size then return .ofNat n.toNat else throw (.invalidValue n .uint32)
  | found => throw (.invalidType found .uint32)

/-- Reads a number; an integer is rounded to the nearest double. -/
def real (value : V) : Except Problem Binary64 := do
  match ← F.found value with
  | .integer n => return .ofInt n
  | .real x => return x
  | found => throw (.invalidType found .real)

/-- Reads a truth value. -/
def boolean (value : V) : Except Problem Bool := do
  match ← F.found value with
  | .boolean b => return b
  | found => throw (.invalidType found .boolean)

/-- Reads a text that is expected to be a string or a path. -/
def text (expected : Expected) (value : V) : Except Problem String := do
  match ← F.found value with
  | .string s => return s
  | found => throw (.invalidType found expected)

end Format

end BeaconMap
