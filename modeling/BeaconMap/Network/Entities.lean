import BeaconMap.Network.IdTable
import BeaconMap.Number.Binary64
import Std.Data.TreeMap
/-!
# Nodes, edges and behaviors

A node is a beacon on the grid. Every node has a geometry; entry points and exit points also have a rate
and a table of percentages, the share of the agents of each behavior that appear or vanish there.

An edge is a street between two nodes of a network, known by their ids. A directed edge is walked from its
source to its target only; the two ends of an undirected one are listed in the order they were given.

A behavior is a profile that agents follow, with the nodes that matter to it: the core ones, which it always
seeks, and the optional ones. The two sets may overlap.
-/

namespace BeaconMap

/-! ## Nodes -/

/-- The number by which a network knows a node. -/
abbrev NodeId := UInt32

/-- The number by which a network knows a behavior. -/
abbrev BehaviorId := UInt32

/-- The share of the agents of each behavior, from 0 to 100. -/
abbrev Percentages := IdTable Binary64

/-- A position on the grid. -/
structure Coordinate where
  x : Int32
  y : Int32
deriving DecidableEq, Repr, Inhabited

/-- Coordinates are ordered from west to east, then from south to north. -/
instance : Ord Coordinate := ⟨compareLex (compareOn Coordinate.x) (compareOn Coordinate.y)⟩

/-- Where a node stands, its extent, and the speed of the agents that pass it. -/
structure Geometry where
  position : Coordinate
  width : Int32
  height : Int32
  radius : Int32
  speed : Binary64
deriving DecidableEq, Repr, Inhabited

/-- How agents appear at an entry point: a rate, and a limit on their number, 0 standing for none. -/
structure EntryFlow where
  rate : Binary64
  limit : UInt32
deriving DecidableEq, Repr, Inhabited

namespace EntryFlow

/-- There is no limit on the number of agents. -/
def unlimited (flow : EntryFlow) : Bool := flow.limit == 0

end EntryFlow

/-- What a node does with agents. -/
inductive NodeKind where
  /-- Agents pass. -/
  | regular
  /-- Agents appear. -/
  | entryPoint (flow : EntryFlow) (generated : Percentages)
  /-- Agents vanish. -/
  | exitPoint (rate : Binary64) (absorbed : Percentages)
deriving DecidableEq, Inhabited

/-- The kind as it is named in messages. -/
def NodeKind.name : NodeKind → String
  | .regular => "regular node"
  | .entryPoint _ _ => "entry point"
  | .exitPoint _ _ => "exit point"

/-- A beacon of a network. -/
structure Node where
  id : NodeId
  geometry : Geometry
  kind : NodeKind
deriving DecidableEq, Inhabited

namespace Node

/-- Where the node stands. -/
def position (n : Node) : Coordinate := n.geometry.position

end Node

/-! ## Edges -/

/-- A street between two nodes. -/
structure Edge where
  directed : Bool
  source : NodeId
  target : NodeId
  width : Int32
  weight : Binary64
deriving DecidableEq, Repr, Inhabited

/-! ## Behaviors -/

/-- What the agents of a behavior are after. -/
inductive BehaviorKind where
  | visit
  | evacuate
deriving DecidableEq, Repr, Inhabited

/-- The kind as it is named in documents. -/
def BehaviorKind.name : BehaviorKind → String
  | .visit => "visit"
  | .evacuate => "evacuate"

/-- A profile that agents follow. -/
structure Behavior where
  id : BehaviorId
  kind : BehaviorKind
  core : IdSet
  optional : IdSet
deriving DecidableEq, Inhabited

namespace Behavior

/-- A behavior without interest points. -/
def new (id : BehaviorId) (kind : BehaviorKind) : Behavior := ⟨id, kind, .empty, .empty⟩

/-- The behavior with one more interest point, optional or core. -/
def addInterestPoint (b : Behavior) (optional : Bool) (node : NodeId) : Behavior :=
  if optional then { b with optional := b.optional.add node } else { b with core := b.core.add node }

end Behavior

end BeaconMap
