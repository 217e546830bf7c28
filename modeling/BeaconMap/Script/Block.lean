import BeaconMap.Network.Graph
/-!
# The generated procedures

`mapBlock` writes a graph as three procedures, one line a string: `generate-map` sizes the world and calls the
others, `generate-beacons` makes a beacon of every node and `connect-beacons` a street of every edge. Patches are
named relative to `world-offset`. Speeds, behaviors and interest points do not show.
-/

namespace BeaconMap

namespace Script

/-- The expression for the patch of a coordinate. -/
def patch (c : Coordinate) : String :=
  "patch (world-offset + " ++ c.x.toInt.repr ++ ") (world-offset + " ++ c.y.toInt.repr ++ ")"

/-- The command that gives a beacon its kind. -/
def marker : NodeKind → String
  | .regular => "make-beacon-normal"
  | .entryPoint _ _ => "make-beacon-entry"
  | .exitPoint _ _ => "make-beacon-exit"

/-- The lines that fill one of a beacon's lists of percentages. -/
def percentageLines (list : String) (percentages : Percentages) : List String :=
  percentages.entries.map fun (behavior, share) =>
    "    set " ++ list ++ " lput [" ++ behavior.toNat.repr ++ " " ++ share.text ++ "] " ++ list

/-- The lines for the limit of an entry point. -/
def limitLines (flow : EntryFlow) : List String :=
  if flow.unlimited then ["    set entry-limit 0", "    set entry-infinity? true"]
  else ["    set entry-limit " ++ flow.limit.toNat.repr, "    set entry-infinity? false"]

/-- The lines that a beacon owes to its kind. -/
def kindLines : NodeKind → List String
  | .regular => []
  | .entryPoint flow generated =>
    percentageLines "entry-percentages" generated ++ ["    set entry-rate " ++ flow.rate.text] ++ limitLines flow
  | .exitPoint rate absorbed =>
    percentageLines "exit-percentages" absorbed ++ ["    set exit-rate " ++ rate.text]

/-- The lines that make a beacon of a node. -/
def nodeLines (n : Node) : List String :=
  ["  ask " ++ patch n.position ++ " [sprout-beacons 1 [",
   "    " ++ marker n.kind,
   "    set intersection-width " ++ n.geometry.width.toInt.repr,
   "    set intersection-height " ++ n.geometry.height.toInt.repr,
   "    set intersection-radius " ++ n.geometry.radius.toInt.repr] ++
  kindLines n.kind ++
  ["  ]]"]

/-- The command that makes a street. -/
def streetCommand (directed : Bool) : String :=
  if directed then "create-directed-streets-to" else "create-streets-with"

/-- The lines that make a street between two coordinates. -/
def streetLines (edge : Edge) (source target : Coordinate) : List String :=
  ["  ask beacons-on " ++ patch source ++ " [",
   "    " ++ streetCommand edge.directed ++ " beacons-on " ++ patch target ++ " [",
   "      set weight " ++ edge.weight.text,
   "      set street-width " ++ edge.width.toInt.repr ++ "]]"]

/-- The lines that make a street of an edge of a graph. -/
def edgeLines (g : Graph) (edge : Edge) : Except NetworkError (List String) := do
  let source ← g.node edge.source
  let target ← g.node edge.target
  return streetLines edge source.position target.position

/-- The first procedure. -/
def worldLines (g : Graph) : List String :=
  ["to generate-map",
   "  let new-world-width 2 * world-offset + " ++ g.maxEast.toInt.repr,
   "  let new-world-height 2 * world-offset + " ++ g.maxNorth.toInt.repr,
   "  resize-world 0 new-world-width 0 new-world-height",
   "  generate-beacons",
   "  generate-interest-points",
   "  connect-beacons",
   "  draw-squares",
   "  draw-streets",
   "  make-patches-non-wall",
   "end "]

/-- The second procedure. -/
def beaconLines (g : Graph) : List String :=
  ["to generate-beacons"] ++ g.nodes.toList.flatMap nodeLines ++ ["end"]

/-- The third procedure. -/
def connectionLines (g : Graph) : Except NetworkError (List String) := do
  let streets ← g.edges.toList.mapM (edgeLines g)
  return ["to connect-beacons"] ++ streets.flatten ++ ["end"]

end Script

/-- The three procedures of a graph, with an empty line after the first. -/
def Graph.mapBlock (g : Graph) : Except NetworkError (List String) := do
  let connections ← Script.connectionLines g
  return Script.worldLines g ++ [""] ++ Script.beaconLines g ++ connections

end BeaconMap
