import BeaconMap.Json.Decoder
import BeaconMap.Toml.Decoder
import Mathlib
/-!
# What documents say

A `DataTree` is what a document says apart from the language it is written in. A `View` takes the values of a language
apart, and a value says a tree when it falls apart in the same way, the entries of tables in any order (`View.Says`).
`DataTree.FitsDescription` keeps lists out of the places where a description has a record, and tables out of those where
it has a kind.
-/

namespace BeaconMap

/-- What a document says, apart from the language it is written in. -/
inductive DataTree where
  | string (text : String)
  | boolean (value : Bool)
  | integer (value : Int)
  | real (value : Binary64)
  | array (items : List DataTree)
  | table (entries : List (String × DataTree))

namespace DataTree

/-- What a value is found to be that says the tree. -/
def found : DataTree → Found
  | .string text => .string text
  | .boolean value => .boolean value
  | .integer value => .integer value
  | .real value => .real value
  | .array _ => .sequence
  | .table _ => .map

mutual

/-- No table of the tree has two entries with one key. -/
def Distinct : DataTree → Prop
  | .string _ | .boolean _ | .integer _ | .real _ => True
  | .array items => DistinctItems items
  | .table entries => (entries.map Prod.fst).Nodup ∧ DistinctEntries entries

/-- No table of these trees has two entries with one key. -/
def DistinctItems : List DataTree → Prop
  | [] => True
  | item :: rest => Distinct item ∧ DistinctItems rest

/-- No table of the trees under these keys has two entries with one key. -/
def DistinctEntries : List (String × DataTree) → Prop
  | [] => True
  | (_, tree) :: rest => Distinct tree ∧ DistinctEntries rest

end

theorem distinctItems_iff (items : List DataTree) : DistinctItems items ↔ ∀ t ∈ items, t.Distinct := by
  induction items with
  | nil => simp [DistinctItems]
  | cons item rest ih => simp [DistinctItems, ih]

theorem distinctEntries_iff (entries : List (String × DataTree)) :
    DistinctEntries entries ↔ ∀ e ∈ entries, e.2.Distinct := by
  induction entries with
  | nil => simp [DistinctEntries]
  | cons e rest ih => simp [DistinctEntries, ih]

/-! ## Places of a description -/

/-- What is expected of the trees in some places of a record, by the names of the fields. -/
abbrev Places := List (String × (DataTree → Prop))

/-- The place of a kind: no table stands there. -/
def FitsKind : DataTree → Prop
  | .table _ => False
  | _ => True

/-- The place of a list whose items have to fit. -/
def FitsList (fits : DataTree → Prop) : DataTree → Prop
  | .array items => ∀ item ∈ items, fits item
  | _ => True

/-- The place of a record: no list stands there, and what a table has in the places of the record fits them. -/
def FitsRecord (places : Places) : DataTree → Prop
  | .array _ => False
  | .table entries => ∀ e ∈ entries, ∀ place ∈ places, place.1 = e.1 → place.2 e.2
  | _ => True

/-- The places of a behavior. -/
def behaviorPlaces : Places :=
  [("kind", FitsKind), ("core_interest_points", FitsList (FitsRecord [])),
    ("optional_interest_points", FitsList (FitsRecord []))]

/-- The places of a node. -/
def nodePlaces : Places := [("kind", FitsKind), ("percentages", FitsList (FitsRecord []))]

/-- The places of a street. -/
def edgePlaces : Places := [("source", FitsRecord []), ("target", FitsRecord [])]

/-- The places of a description. -/
def descriptionPlaces : Places :=
  [("behaviors", FitsList (FitsRecord behaviorPlaces)), ("nodes", FitsList (FitsRecord nodePlaces)),
    ("edges", FitsList (FitsRecord edgePlaces))]

/-- Where a description has a record the tree has no list, and where a description has a kind it has no table. -/
def FitsDescription : DataTree → Prop := FitsRecord descriptionPlaces

end DataTree

/-! ## What values say -/

/-- How the values of a language are taken apart. -/
structure View (V : Type) where
  found : V → Except Problem Found
  /-- The items of a list. -/
  items? : V → Option (List V)
  /-- The entries of a table. -/
  entries? : V → Option (List (String × V))

namespace View

variable {V : Type}

mutual

/-- A value says a tree: they are the same scalar, or fall apart into the same items or the same entries in some order. -/
inductive Says (L : View V) : V → DataTree → Prop
  | string {v : V} {text : String} : L.found v = .ok (.string text) → Says L v (.string text)
  | boolean {v : V} {value : Bool} : L.found v = .ok (.boolean value) → Says L v (.boolean value)
  | integer {v : V} {value : Int} : L.found v = .ok (.integer value) → Says L v (.integer value)
  | real {v : V} {value : Binary64} : L.found v = .ok (.real value) → Says L v (.real value)
  | array {v : V} {items : List V} {trees : List DataTree} :
    L.items? v = some items → SaysAll L items trees → Says L v (.array trees)
  | table {v : V} {entries ordered : List (String × V)} {trees : List (String × DataTree)} :
    L.entries? v = some entries → entries.Perm ordered → ordered.map Prod.fst = trees.map Prod.fst →
    SaysAll L (ordered.map Prod.snd) (trees.map Prod.snd) → Says L v (.table trees)

/-- Values say trees, one each. -/
inductive SaysAll (L : View V) : List V → List DataTree → Prop
  | nil : SaysAll L [] []
  | cons {v : V} {t : DataTree} {values : List V} {trees : List DataTree} :
    Says L v t → SaysAll L values trees → SaysAll L (v :: values) (t :: trees)

end

theorem saysAll_iff {L : View V} {values : List V} {trees : List DataTree} :
    L.SaysAll values trees ↔ List.Forall₂ L.Says values trees := by
  constructor
  · intro h
    induction values generalizing trees with
    | nil => cases h; exact .nil
    | cons v rest ih =>
      cases h with
      | cons hv hrest => exact .cons hv (ih hrest)
  · intro h
    induction h with
    | nil => exact .nil
    | cons hv _ ih => exact .cons hv ih

end View

/-- JSON values under a conversion of numbers to doubles. -/
def JsonValue.view (convert : Numeral → Option Binary64) : View JsonValue where
  found := found convert
  items?
    | .array items true => some items
    | _ => none
  entries?
    | .object members true => members.mapM fun (name, value) =>
      match name with
      | .text name => some (name, value)
      | _ => none
    | _ => none

/-- TOML values. -/
def TomlValue.view : View TomlValue where
  found value := .ok value.found
  items?
    | .array items | .tables items => some items
    | _ => none
  entries?
    | .table _ entries => some entries
    | _ => none

/-- A JSON text says a tree, and nothing follows. -/
def JsonText.Says (convert : Numeral → Option Binary64) (text : String) (t : DataTree) : Prop :=
  (JsonText.ofText text).ended = true ∧ (JsonValue.view convert).Says (JsonText.ofText text).value t

/-- A TOML text says a tree. -/
def TomlEntries.Says (text : String) (t : DataTree) : Prop :=
  ∃ entries, TomlEntries.ofText? text = some entries ∧ TomlValue.view.Says (.table .header entries) t

end BeaconMap
