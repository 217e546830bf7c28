import BeaconMap.Network.Builder
/-!
# Calls as data

A `Call` is one request to a builder, with its arguments. `Call.run` answers it, and `Call.runAll` a sequence of
them, one answer each; a call that fails does not end the sequence.
-/

namespace BeaconMap

/-- A request to a builder. -/
inductive Call where
  | start
  | regularNode (geometry : Geometry)
  | entryPoint (geometry : Geometry) (flow : EntryFlow)
  | exitPoint (geometry : Geometry) (rate : Binary64)
  | street (directed : Bool) (source target : Coordinate) (width : Int32) (weight : Binary64)
  | behavior (id : BehaviorId) (kind : BehaviorKind)
  | interestPoint (position : Coordinate) (behavior : BehaviorId) (optional : Bool)
  | generated (position : Coordinate) (behavior : BehaviorId) (percentage : Binary64)
  | absorbed (position : Coordinate) (behavior : BehaviorId) (percentage : Binary64)
  | finalize
deriving DecidableEq, Repr

/-- What a call that succeeds gives back. -/
inductive Answer where
  /-- Nothing. -/
  | done
  /-- The id of the node it placed. -/
  | node (id : NodeId)
  /-- The graph it handed over. -/
  | graph (graph : Graph)

namespace Call

/-- Makes a call on a builder. -/
def run : Call → Build Answer
  | .start => do Builder.start; return .done
  | .regularNode geometry => return .node (← Builder.regularNode geometry)
  | .entryPoint geometry flow => return .node (← Builder.entryPoint geometry flow)
  | .exitPoint geometry rate => return .node (← Builder.exitPoint geometry rate)
  | .street directed source target width weight => do
    Builder.street directed source target width weight; return .done
  | .behavior id kind => do Builder.behavior id kind; return .done
  | .interestPoint position id optional => do Builder.interestPoint position id optional; return .done
  | .generated position id percentage => do Builder.generated position id percentage; return .done
  | .absorbed position id percentage => do Builder.absorbed position id percentage; return .done
  | .finalize => return .graph (← Builder.finalize)

/-- The outcome of a call on a builder and the builder after it. -/
def step (call : Call) (builder : Builder) : Except NetworkError Answer × Builder :=
  match call.run builder with
  | .ok answer builder => (.ok answer, builder)
  | .error error builder => (.error error, builder)

/-- The outcomes of calls made one after the other and the builder after the last. -/
def runAll : List Call → Builder → List (Except NetworkError Answer) × Builder
  | [], builder => ([], builder)
  | call :: rest, builder =>
    let (outcome, next) := call.step builder
    let (outcomes, last) := runAll rest next
    (outcome :: outcomes, last)

end Call

end BeaconMap
