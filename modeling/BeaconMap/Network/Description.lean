import BeaconMap.Network.Call
/-!
# Networks described as a whole

A description lists the behaviors, nodes and edges of a network. `apply` starts a new product and places the
items of the description (`items`) in a fixed order, up to the first that fails: behaviors, nodes, the
percentages of each node, the interest points of each behavior, edges. What was placed before a failure stays
in the builder. At the end the product has to be connected.
-/

namespace BeaconMap

/-- The kind of a described node. -/
inductive DescribedKind where
  | regular
  | entry
  | exit
deriving DecidableEq, Repr, Inhabited

/-- The kind as it is named in documents. -/
def DescribedKind.name : DescribedKind → String
  | .regular => "regular"
  | .entry => "entry"
  | .exit => "exit"

/-- The share of a behavior at a described node. -/
structure DescribedShare where
  behavior : BehaviorId
  percentage : Binary64
deriving DecidableEq, Repr, Inhabited

/-- A described node; entry points have a rate and a limit, exit points a rate. -/
structure DescribedNode where
  kind : DescribedKind
  geometry : Geometry
  rate : Binary64
  limit : UInt32
  percentages : List DescribedShare
deriving DecidableEq, Repr, Inhabited

/-- A described behavior with its interest points. -/
structure DescribedBehavior where
  id : BehaviorId
  kind : BehaviorKind
  core : List Coordinate
  optional : List Coordinate
deriving DecidableEq, Repr, Inhabited

/-- A described street. -/
structure DescribedEdge where
  source : Coordinate
  target : Coordinate
  width : Int32
  weight : Binary64
  directed : Bool
deriving DecidableEq, Repr, Inhabited

/-- A whole network. -/
structure Description where
  behaviors : List DescribedBehavior
  nodes : List DescribedNode
  edges : List DescribedEdge
deriving DecidableEq, Repr, Inhabited

namespace DescribedNode

/-- The kind that would have a use for a rate or limit which the described kind has no use for. -/
def misplacedField? (n : DescribedNode) : Option WantedKind :=
  match n.kind with
  | .regular =>
    if !n.rate.isZero then some .entryOrExitPoint
    else if n.limit != 0 then some .entryPoint
    else none
  | .exit => if n.limit != 0 then some .entryPoint else none
  | .entry => none

end DescribedNode

/-- One thing that a description asks for. -/
inductive Item where
  | behavior (behavior : DescribedBehavior)
  | node (node : DescribedNode)
  | share (node : DescribedNode) (share : DescribedShare)
  | interestPoint (id : BehaviorId) (position : Coordinate) (optional : Bool)
  | edge (edge : DescribedEdge)
deriving DecidableEq, Repr

namespace Item

/-- The call that places an item. The percentages of a regular node go the way of an entry point's, which refuses it. -/
def call : Item → Call
  | .behavior b => .behavior b.id b.kind
  | .node n =>
    match n.kind with
    | .regular => .regularNode n.geometry
    | .entry => .entryPoint n.geometry ⟨n.rate, n.limit⟩
    | .exit => .exitPoint n.geometry n.rate
  | .share n s =>
    match n.kind with
    | .exit => .absorbed n.geometry.position s.behavior s.percentage
    | _ => .generated n.geometry.position s.behavior s.percentage
  | .interestPoint id position optional => .interestPoint position id optional
  | .edge e => .street e.directed e.source e.target e.width e.weight

/-- The error of an item that asks for what its own kind has no use for. -/
def misfit? : Item → Option NetworkError
  | .node n => n.misplacedField?.map (.wrongNodeKind n.geometry.position ·)
  | _ => none

/-- Places an item. -/
def place (item : Item) : Build Unit := do
  if let some error := item.misfit? then throw error
  let _ ← item.call.run

end Item

namespace Description

/-- The items of a description in the order they are placed. -/
def items (d : Description) : List Item :=
  d.behaviors.map .behavior ++
  d.nodes.map .node ++
  d.nodes.flatMap (fun node => node.percentages.map (.share node)) ++
  d.behaviors.flatMap (fun behavior =>
    behavior.core.map (.interestPoint behavior.id · false) ++
    behavior.optional.map (.interestPoint behavior.id · true)) ++
  d.edges.map .edge

/-- Builds the described network as a new product and hands it over. -/
def apply (d : Description) : Build Graph := do
  Builder.start
  d.items.forM Item.place
  Builder.finalize

/-- What `apply` gives on a builder, and the builder after it. -/
def applyTo (d : Description) (builder : Builder) : Except NetworkError Graph × Builder :=
  match d.apply builder with
  | .ok graph builder => (.ok graph, builder)
  | .error error builder => (.error error, builder)

end Description

end BeaconMap
