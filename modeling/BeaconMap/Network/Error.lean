import BeaconMap.Network.Entities
import BeaconMap.Number.NumberStyle
/-!
# Why a network is refused

`NetworkError` names the causes and `NetworkError.message` words them. Arguments that are wrong in themselves
are faults (`Fault`); the other causes concern what the network already holds.
-/

namespace BeaconMap

/-- A whole number that has to be positive. -/
inductive Dimension where
  | nodeWidth
  | nodeHeight
  | nodeRadius
  | edgeWidth
deriving DecidableEq, Repr

/-- A dimension as it is named in messages. -/
def Dimension.name : Dimension → String
  | .nodeWidth => "node width"
  | .nodeHeight => "node height"
  | .nodeRadius => "node radius"
  | .edgeWidth => "edge width"

/-- A number that has to be finite and not negative. -/
inductive Quantity where
  | nodeSpeed
  | entryRate
  | exitRate
  | edgeWeight
deriving DecidableEq, Repr

/-- A quantity as it is named in messages. -/
def Quantity.name : Quantity → String
  | .nodeSpeed => "node speed"
  | .entryRate => "entry rate"
  | .exitRate => "exit rate"
  | .edgeWeight => "edge weight"

/-- An argument that is wrong in itself. -/
inductive Fault where
  | notPositive (what : Dimension) (value : Int32)
  | notFiniteNonNegative (what : Quantity) (value : Binary64)
  | notPercentage (value : Binary64)
deriving DecidableEq, Repr

/-- A fault as it is worded in messages. -/
def Fault.reason : Fault → String
  | .notPositive what value => what.name ++ " must be positive, got " ++ value.toInt.repr
  | .notFiniteNonNegative what value =>
    what.name ++ " must be a finite non-negative number, got " ++ value.text
  | .notPercentage value => "percentage must be within [0, 100], got " ++ value.text

/-- The kinds of node that a call asks for. -/
inductive WantedKind where
  | entryPoint
  | exitPoint
  | entryOrExitPoint
deriving DecidableEq, Repr

/-- The wanted kinds as they are named in messages. -/
def WantedKind.name : WantedKind → String
  | .entryPoint => "entry point"
  | .exitPoint => "exit point"
  | .entryOrExitPoint => "entry point or exit point"

/-- What an id belongs to. -/
inductive IdOwner where
  | node
  | behavior
deriving DecidableEq, Repr

/-- The owner of an id as it is named in messages. -/
def IdOwner.name : IdOwner → String
  | .node => "node"
  | .behavior => "behavior"

/-- Why a call on a network or a builder fails. -/
inductive NetworkError where
  | validation (fault : Fault)
  | duplicateCoordinate (position : Coordinate)
  | duplicateId (owner : IdOwner) (id : UInt32)
  | noSuchNode (position : Coordinate)
  | noSuchNodeId (id : NodeId)
  | noSuchBehavior (id : BehaviorId)
  | wrongNodeKind (position : Coordinate) (wanted : WantedKind)
  | incompleteGraph
  | builderNotStarted
deriving DecidableEq, Repr

/-- A coordinate as it is written in messages. -/
def Coordinate.text (c : Coordinate) : String := "(" ++ c.x.toInt.repr ++ ", " ++ c.y.toInt.repr ++ ")"

/-- The text of a network error. -/
def NetworkError.message : NetworkError → String
  | .validation fault => "Invalid parameters: " ++ fault.reason
  | .duplicateCoordinate position => "A node already occupies " ++ position.text
  | .duplicateId owner id => "Duplicate " ++ owner.name ++ " id: " ++ id.toNat.repr
  | .noSuchNode position => "No node at " ++ position.text
  | .noSuchNodeId id => "No node with id " ++ id.toNat.repr
  | .noSuchBehavior id => "No behavior with id " ++ id.toNat.repr
  | .wrongNodeKind position wanted => "Node at " ++ position.text ++ " is not an " ++ wanted.name
  | .incompleteGraph => "graph incomplete: some nodes are not linked"
  | .builderNotStarted => "build_graph must be called before building entities"

end BeaconMap
