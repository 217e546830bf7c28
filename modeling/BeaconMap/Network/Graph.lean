import BeaconMap.Network.Validation
/-!
# Graphs

A graph holds the nodes and edges of a network in the order they were added, and its behaviors by id. Two
indexes lead from an id and from a coordinate to the place of a node in the list. The operations that add
something refuse what would break the graph: a second node at a coordinate or with an id, an edge whose end
is missing, a second behavior with an id.

To tell whether a graph is connected, every node starts with its own id as label, and every edge gives the label of
its target's part to its source's: two nodes then carry one label just when a chain of edges leads from one to the
other, whatever the direction of the edges. A graph is connected when at most one label is left.
-/

namespace BeaconMap

/-- A network: its nodes and edges in order, its behaviors, and the places of its nodes by id and coordinate. -/
structure Graph where
  nodes : Array Node := #[]
  placeById : Std.TreeMap NodeId Nat := ∅
  placeByCoordinate : Std.TreeMap Coordinate Nat := ∅
  edges : Array Edge := #[]
  behaviors : IdTable Behavior := .empty

namespace Graph

/-- The graph without nodes, edges and behaviors. -/
def empty : Graph := {}

instance : Inhabited Graph := ⟨empty⟩

/-! ## Looking things up -/

/-- The node at a coordinate. -/
def nodeAt (g : Graph) (position : Coordinate) : Except NetworkError Node :=
  match g.placeByCoordinate[position]?.bind (g.nodes[·]?) with
  | some node => .ok node
  | none => .error (.noSuchNode position)

/-- The node with an id. -/
def node (g : Graph) (id : NodeId) : Except NetworkError Node :=
  match g.placeById[id]?.bind (g.nodes[·]?) with
  | some node => .ok node
  | none => .error (.noSuchNodeId id)

/-- The behavior with an id. -/
def behavior (g : Graph) (id : BehaviorId) : Except NetworkError Behavior :=
  match g.behaviors.find? id with
  | some behavior => .ok behavior
  | none => .error (.noSuchBehavior id)

/-- The largest `x` of a node, 0 when there is none. -/
def maxEast (g : Graph) : Int32 := (g.nodes.toList.map (·.position.x)).max?.getD 0

/-- The largest `y` of a node, 0 when there is none. -/
def maxNorth (g : Graph) : Int32 := (g.nodes.toList.map (·.position.y)).max?.getD 0

/-! ## Adding things -/

/-- The graph with one more node. -/
def addNode (g : Graph) (node : Node) : Except NetworkError Graph :=
  if g.placeByCoordinate.contains node.position then .error (.duplicateCoordinate node.position)
  else if g.placeById.contains node.id then .error (.duplicateId .node node.id)
  else .ok { g with
    nodes := g.nodes.push node
    placeById := g.placeById.insert node.id g.nodes.size
    placeByCoordinate := g.placeByCoordinate.insert node.position g.nodes.size }

/-- The graph with one more edge. -/
def addEdge (g : Graph) (edge : Edge) : Except NetworkError Graph :=
  if !g.placeById.contains edge.source then .error (.noSuchNodeId edge.source)
  else if !g.placeById.contains edge.target then .error (.noSuchNodeId edge.target)
  else .ok { g with edges := g.edges.push edge }

/-- The graph with one more behavior. -/
def addBehavior (g : Graph) (behavior : Behavior) : Except NetworkError Graph :=
  if g.behaviors.contains behavior.id then .error (.duplicateId .behavior behavior.id)
  else .ok { g with behaviors := g.behaviors.insert behavior.id behavior }

/-- The graph with one more interest point of a behavior: the node at a coordinate. -/
def addInterestPoint (g : Graph) (position : Coordinate) (behavior : BehaviorId) (optional : Bool) :
    Except NetworkError Graph := do
  let node ← g.nodeAt position
  let found ← g.behavior behavior
  return { g with behaviors := g.behaviors.insert behavior (found.addInterestPoint optional node.id) }

/-- The graph with the node at a coordinate changed; its id and coordinate have to stay. -/
def changeNodeAt (g : Graph) (position : Coordinate) (change : Node → Except NetworkError Node) :
    Except NetworkError Graph := do
  match g.placeByCoordinate[position]? with
  | none => throw (.noSuchNode position)
  | some place =>
    let changed ← change (← g.nodeAt position)
    return { g with nodes := g.nodes.setIfInBounds place changed }

end Graph

/-! ## Connected graphs -/

namespace Connectivity

/-- The label of each node. -/
abbrev Labels := List (NodeId × NodeId)

/-- The labels before any edge: each node is alone. -/
def alone (ids : List NodeId) : Labels := ids.map fun id => (id, id)

/-- Gives every node labelled `old` the label `new`. -/
def relabel (labels : Labels) (old new : NodeId) : Labels :=
  labels.map fun (id, label) => (id, if label = old then new else label)

/-- The labels with the parts of two nodes made one; an edge to a missing node joins nothing. -/
def join (labels : Labels) (edge : Edge) : Labels :=
  match labels.lookup edge.source, labels.lookup edge.target with
  | some source, some target => relabel labels target source
  | _, _ => labels

/-- At most one label is left. -/
def isOne : Labels → Bool
  | [] => true
  | (_, label) :: rest => rest.all fun (_, other) => other == label

end Connectivity

open Connectivity in
/-- Every node is reached from every other along edges taken in either direction. -/
def Graph.isConnected (g : Graph) : Bool :=
  isOne (g.edges.foldl join (alone (g.nodes.toList.map Node.id)))

end BeaconMap
