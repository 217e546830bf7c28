import BeaconMap.Number.Binary64
/-!
# TOML values and how tables grow

A `TomlValue` keeps the keys of a table in the order they came up. A table also knows its origin, because that
decides what may still be added to it: a header names a table once and may complete one that longer headers
implied, a dotted key only goes through tables that no header defined, and what stands between braces is complete.
-/

namespace BeaconMap

/-- What made a table. -/
inductive TableOrigin where
  /-- A header of its own; the top of the document counts as one. -/
  | header
  /-- A header that goes on past it. -/
  | implied
  /-- A dotted key that goes on past it. -/
  | dotted
  /-- Braces. -/
  | braces
deriving DecidableEq, Repr

/-- What a TOML text says. -/
inductive TomlValue where
  | string (text : String)
  | integer (value : Int)
  | real (value : Binary64)
  | boolean (value : Bool)
  | datetime
  | array (items : List TomlValue)
  /-- A list that grows by one table with each header in double brackets. -/
  | tables (items : List TomlValue)
  | table (origin : TableOrigin) (entries : List (String × TomlValue))
deriving Repr, Inhabited

/-- The keys of a table with their values. -/
abbrev TomlEntries := List (String × TomlValue)

namespace TomlEntries

/-- Gives a key that is there another value. -/
def replace (entries : TomlEntries) (key : String) (value : TomlValue) : TomlEntries :=
  entries.map fun (k, v) => if k = key then (k, value) else (k, v)

/-- Adds a key at the end, unless it is there. -/
def addNew (entries : TomlEntries) (key : String) (value : TomlValue) : Option TomlEntries :=
  if (entries.lookup key).isSome then none else some (entries ++ [(key, value)])

/--
Adds a key under a path of dotted keys. The tables on the way may be dotted, implied, or the last of a list of
tables; the table that gets the key has to be dotted, unless it is the one the path starts from.
-/
def addDotted (entries : TomlEntries) (path : List String) (key : String) (value : TomlValue) : Option TomlEntries :=
  match path with
  | [] => entries.addNew key value
  | step :: rest =>
    match entries.lookup step with
    | none => do
      let inner ← addDotted [] rest key value
      return entries ++ [(step, .table .dotted inner)]
    | some (.table .dotted inner) => do
      let inner ← addDotted inner rest key value
      return entries.replace step (.table .dotted inner)
    | some (.table .implied inner) => do
      if rest.isEmpty then none
      else
        let inner ← addDotted inner rest key value
        return entries.replace step (.table .implied inner)
    | some (.tables items) =>
      match rest, items.getLast? with
      | _ :: _, some (.table origin inner) => do
        let inner ← addDotted inner rest key value
        return entries.replace step (.tables (items.dropLast ++ [.table origin inner]))
      | _, _ => none
    | some _ => none

/--
Changes the entries of the table at the end of a path of headers. Missing tables on the way are implied; a list of
tables leads into its last one.
-/
def changeAt (change : TomlEntries → Option TomlEntries) (entries : TomlEntries) (path : List String) :
    Option TomlEntries :=
  match path with
  | [] => change entries
  | step :: rest =>
    match entries.lookup step with
    | none => do
      let inner ← changeAt change [] rest
      return entries ++ [(step, .table .implied inner)]
    | some (.table .braces _) => none
    | some (.table origin inner) => do
      let inner ← changeAt change inner rest
      return entries.replace step (.table origin inner)
    | some (.tables items) =>
      match items.getLast? with
      | some (.table origin inner) => do
        let inner ← changeAt change inner rest
        return entries.replace step (.tables (items.dropLast ++ [.table origin inner]))
      | _ => none
    | some _ => none

/-- Defines the table of a header. One that was implied is taken up, and moves to the end. -/
def defineTable (key : String) (entries : TomlEntries) : Option TomlEntries :=
  match entries.lookup key with
  | none => some (entries ++ [(key, .table .header [])])
  | some (.table .implied inner) => some (entries.filter (fun (k, _) => k ≠ key) ++ [(key, .table .header inner)])
  | some _ => none

/-- Adds a table to the list of a header in double brackets. -/
def extendTables (key : String) (entries : TomlEntries) : Option TomlEntries :=
  match entries.lookup key with
  | none => some (entries ++ [(key, .tables [.table .header []])])
  | some (.tables items) => some (entries.replace key (.tables (items ++ [.table .header []])))
  | some _ => none

end TomlEntries

end BeaconMap
