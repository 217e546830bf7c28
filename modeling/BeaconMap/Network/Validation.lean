import BeaconMap.Network.Entities
import BeaconMap.Network.Error
/-!
# Arguments that are right in themselves

A fault is looked for field by field, in a fixed order, and the first one counts: the dimensions of a node
before its speed, its geometry before its rate, the width of an edge before its weight. Dimensions are positive,
other quantities finite and not negative (`-0` passes), percentages from 0 to 100.
-/

namespace BeaconMap

/-- The fault of a dimension that is not positive. -/
def Dimension.fault? (what : Dimension) (value : Int32) : Option Fault :=
  if value ≤ 0 then some (.notPositive what value) else none

/-- The fault of a quantity that is negative, infinite or a NaN. -/
def Quantity.fault? (what : Quantity) (value : Binary64) : Option Fault :=
  if value.isNonNegative then none else some (.notFiniteNonNegative what value)

/-- The fault of a percentage outside 0 to 100. -/
def percentageFault? (value : Binary64) : Option Fault :=
  if value.isPercentage then none else some (.notPercentage value)

/-- The first fault of a geometry: width, height, radius, speed. -/
def Geometry.fault? (g : Geometry) : Option Fault :=
  (Dimension.nodeWidth.fault? g.width).or <|
  (Dimension.nodeHeight.fault? g.height).or <|
  (Dimension.nodeRadius.fault? g.radius).or <|
  Quantity.nodeSpeed.fault? g.speed

/-- The fault of an entry flow: its rate. -/
def EntryFlow.fault? (flow : EntryFlow) : Option Fault := Quantity.entryRate.fault? flow.rate

/-- The first fault of a street: width, weight. -/
def streetFault? (width : Int32) (weight : Binary64) : Option Fault :=
  (Dimension.edgeWidth.fault? width).or (Quantity.edgeWeight.fault? weight)

/-- Passes when there is no fault. -/
def noFault : Option Fault → Except NetworkError Unit
  | none => .ok ()
  | some fault => .error (.validation fault)

namespace Node

/-- A regular node. -/
def regular (id : NodeId) (geometry : Geometry) : Except NetworkError Node := do
  noFault geometry.fault?
  return ⟨id, geometry, .regular⟩

/-- An entry point where no behavior has a share yet. -/
def entryPoint (id : NodeId) (geometry : Geometry) (flow : EntryFlow) : Except NetworkError Node := do
  noFault (geometry.fault?.or flow.fault?)
  return ⟨id, geometry, .entryPoint flow .empty⟩

/-- An exit point where no behavior has a share yet. -/
def exitPoint (id : NodeId) (geometry : Geometry) (rate : Binary64) : Except NetworkError Node := do
  noFault (geometry.fault?.or (Quantity.exitRate.fault? rate))
  return ⟨id, geometry, .exitPoint rate .empty⟩

/-- The node with the share of a behavior among its new agents; only entry points have one. -/
def setGenerated (n : Node) (behavior : BehaviorId) (percentage : Binary64) : Except NetworkError Node := do
  noFault (percentageFault? percentage)
  match n.kind with
  | .entryPoint flow generated => return { n with kind := .entryPoint flow (generated.insert behavior percentage) }
  | _ => throw (.wrongNodeKind n.position .entryPoint)

/-- The node with the share of a behavior among the agents it absorbs; only exit points have one. -/
def setAbsorbed (n : Node) (behavior : BehaviorId) (percentage : Binary64) : Except NetworkError Node := do
  noFault (percentageFault? percentage)
  match n.kind with
  | .exitPoint rate absorbed => return { n with kind := .exitPoint rate (absorbed.insert behavior percentage) }
  | _ => throw (.wrongNodeKind n.position .exitPoint)

end Node

namespace Edge

/-- A street between two nodes, of positive width and with a weight that is finite and not negative. -/
def new (directed : Bool) (source target : NodeId) (width : Int32) (weight : Binary64) : Except NetworkError Edge := do
  noFault (streetFault? width weight)
  return ⟨directed, source, target, width, weight⟩

end Edge

end BeaconMap
