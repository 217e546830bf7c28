import BeaconMap.Document.Schema
import BeaconMap.Network.Description
/-!
# The shape of a network description

The records of a description, their fields in the order of their declaration. Where a field may be left out the
blank record holds its default: an empty list, zero, `regular`, undirected.
-/

namespace BeaconMap

namespace NetworkSchema

variable {V : Type} (F : Format V)

/-- A coordinate. -/
def coordinate : Record V Coordinate where
  name := "Coordinate"
  blank := default
  fields := [
    ⟨"x", true, F.int32, fun x c => { c with x }⟩,
    ⟨"y", true, F.int32, fun y c => { c with y }⟩]

/-- The share of a behavior. -/
def share : Record V DescribedShare where
  name := "PercentageDescription"
  blank := default
  fields := [
    ⟨"behavior", true, F.uint32, fun behavior s => { s with behavior }⟩,
    ⟨"percentage", true, F.real, fun percentage s => { s with percentage }⟩]

/-- The kinds of behavior by name. -/
def behaviorKinds : List (String × BehaviorKind) := [BehaviorKind.visit, .evacuate].map fun k => (k.name, k)

/-- The kinds of node by name. -/
def nodeKinds : List (String × DescribedKind) := [DescribedKind.regular, .entry, .exit].map fun k => (k.name, k)

/-- A behavior. -/
def behavior : Record V DescribedBehavior where
  name := "BehaviorDescription"
  blank := default
  fields := [
    ⟨"id", true, F.uint32, fun id b => { b with id }⟩,
    ⟨"kind", true, F.variant behaviorKinds, fun kind b => { b with kind }⟩,
    ⟨"core_interest_points", false, F.list (F.record (coordinate F)), fun core b => { b with core }⟩,
    ⟨"optional_interest_points", false, F.list (F.record (coordinate F)), fun optional b => { b with optional }⟩]

/-- A node. -/
def node : Record V DescribedNode where
  name := "NodeDescription"
  blank := ⟨.regular, default, .zero false, 0, []⟩
  fields := [
    ⟨"kind", false, F.variant nodeKinds, fun kind n => { n with kind }⟩,
    ⟨"x", true, F.int32, fun x n => { n with geometry.position.x := x }⟩,
    ⟨"y", true, F.int32, fun y n => { n with geometry.position.y := y }⟩,
    ⟨"width", true, F.int32, fun width n => { n with geometry.width := width }⟩,
    ⟨"height", true, F.int32, fun height n => { n with geometry.height := height }⟩,
    ⟨"radius", true, F.int32, fun radius n => { n with geometry.radius := radius }⟩,
    ⟨"speed", false, F.real, fun speed n => { n with geometry.speed := speed }⟩,
    ⟨"rate", false, F.real, fun rate n => { n with rate }⟩,
    ⟨"limit", false, F.uint32, fun limit n => { n with limit }⟩,
    ⟨"percentages", false, F.list (F.record (share F)), fun percentages n => { n with percentages }⟩]

/-- A street. -/
def edge : Record V DescribedEdge where
  name := "EdgeDescription"
  blank := ⟨default, default, 0, .zero false, false⟩
  fields := [
    ⟨"source", true, F.record (coordinate F), fun source e => { e with source }⟩,
    ⟨"target", true, F.record (coordinate F), fun target e => { e with target }⟩,
    ⟨"width", true, F.int32, fun width e => { e with width }⟩,
    ⟨"weight", false, F.real, fun weight e => { e with weight }⟩,
    ⟨"directed", false, F.boolean, fun directed e => { e with directed }⟩]

/-- A whole description. -/
def description : Record V Description where
  name := "NetworkDescription"
  blank := ⟨[], [], []⟩
  fields := [
    ⟨"behaviors", false, F.list (F.record (behavior F)), fun behaviors d => { d with behaviors }⟩,
    ⟨"nodes", false, F.list (F.record (node F)), fun nodes d => { d with nodes }⟩,
    ⟨"edges", false, F.list (F.record (edge F)), fun edges d => { d with edges }⟩]

end NetworkSchema

end BeaconMap
