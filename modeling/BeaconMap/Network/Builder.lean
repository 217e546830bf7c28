import BeaconMap.Network.Graph
/-!
# Building a graph call by call

A builder holds at most one graph under construction, its product, and the id of the next node. `start` begins
a new product, `finalize` hands it over once it is connected; every other call changes the product or fails and
leaves the builder as it was. Nodes are numbered from 0 in the order they are placed, whatever their kind. Edges,
interest points and percentages name nodes by coordinate.
-/

namespace BeaconMap

/-- The graph under construction, if any, and the id of the next node. -/
structure Builder where
  product : Option Graph := none
  nextId : NodeId := 0

instance : Inhabited Builder := ⟨{}⟩

/-- A call on a builder: it answers or fails, and the builder goes on from there. -/
abbrev Build (α : Type) := EStateM NetworkError Builder α

namespace Builder

/-- Begins a new product, over the one there was. -/
def start : Build Unit := set { product := some .empty, nextId := 0 : Builder }

/-- The graph under construction. -/
def graph : Build Graph := do
  match (← get).product with
  | some graph => return graph
  | none => throw .builderNotStarted

/-- Makes `change` of the product the product, if it succeeds. -/
def update (change : Graph → Except NetworkError Graph) : Build Unit := do
  let changed ← ofExcept (change (← graph))
  modify fun b => { b with product := some changed }

/-- Adds a node that was checked, and answers its id. -/
def place (checked : Except NetworkError Node) : Build NodeId := do
  let node ← ofExcept checked
  update (·.addNode node)
  modify fun b => { b with nextId := b.nextId + 1 }
  return node.id

/-- Places a regular node. -/
def regularNode (geometry : Geometry) : Build NodeId := do
  place (Node.regular (← get).nextId geometry)

/-- Places an entry point. -/
def entryPoint (geometry : Geometry) (flow : EntryFlow) : Build NodeId := do
  place (Node.entryPoint (← get).nextId geometry flow)

/-- Places an exit point. -/
def exitPoint (geometry : Geometry) (rate : Binary64) : Build NodeId := do
  place (Node.exitPoint (← get).nextId geometry rate)

/-- Joins the nodes at two coordinates by a street. -/
def street (directed : Bool) (source target : Coordinate) (width : Int32) (weight : Binary64) : Build Unit :=
  update fun graph => do
    let source ← graph.nodeAt source
    let target ← graph.nodeAt target
    graph.addEdge (← Edge.new directed source.id target.id width weight)

/-- Registers a behavior. -/
def behavior (id : BehaviorId) (kind : BehaviorKind) : Build Unit :=
  update (·.addBehavior (.new id kind))

/-- Adds the node at a coordinate to the interest points of a behavior. -/
def interestPoint (position : Coordinate) (behavior : BehaviorId) (optional : Bool) : Build Unit :=
  update (·.addInterestPoint position behavior optional)

/-- Sets the share of a behavior among the agents that appear at a coordinate. -/
def generated (position : Coordinate) (behavior : BehaviorId) (percentage : Binary64) : Build Unit :=
  update fun graph => do
    let _ ← graph.behavior behavior
    graph.changeNodeAt position (·.setGenerated behavior percentage)

/-- Sets the share of a behavior among the agents that vanish at a coordinate. -/
def absorbed (position : Coordinate) (behavior : BehaviorId) (percentage : Binary64) : Build Unit :=
  update fun graph => do
    let _ ← graph.behavior behavior
    graph.changeNodeAt position (·.setAbsorbed behavior percentage)

/-- Hands the product over if it is connected; otherwise it stays, so that streets can be added. -/
def finalize : Build Graph := do
  let product ← graph
  if product.isConnected then
    modify fun b => { b with product := none }
    return product
  else
    throw .incompleteGraph

end Builder

end BeaconMap
