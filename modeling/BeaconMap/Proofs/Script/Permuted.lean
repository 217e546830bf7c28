import BeaconMap.Proofs.Network.Determined
import BeaconMap.Proofs.Network.Permuted
import BeaconMap.Proofs.Script.Coherence
/-!
# The block of a description

The block of a graph that a description has built can be read off the description: one beacon for each described node
and one street for each described edge, in their order, whatever ids the nodes got (`Description.mapBlock_of_applyTo`).
So a permuted description has the same block with its beacons and streets permuted (`blocks_permuted`).
-/

namespace BeaconMap

open Script

namespace DescribedNode

/-- The table of the shares of a described node, the last entry for a behavior counting. -/
def shareTable (n : DescribedNode) : Percentages :=
  n.percentages.foldl (fun table s => table.insert s.behavior s.percentage) .empty

/-- The lines for a described node. -/
def lines (n : DescribedNode) : List String := nodeLines ⟨0, n.geometry, n.kindWith n.shareTable⟩

theorem find?_foldl_insert (l : List DescribedShare) (table : Percentages) (id : BehaviorId) :
    (l.foldl (fun t s => t.insert s.behavior s.percentage) table).find? id =
      ((l.filter fun s => s.behavior = id).getLast?.map DescribedShare.percentage).or (table.find? id) := by
  induction l generalizing table with
  | nil => rfl
  | cons s rest ih =>
    rw [List.foldl_cons, ih, IdTable.find?_insert, List.filter_cons]
    by_cases h : s.behavior = id
    · simp only [h, decide_true, if_true, List.getLast?_cons]
      cases (rest.filter fun s => s.behavior = id).getLast? <;> rfl
    · simp only [h, Ne.symm h, decide_false, if_false, Bool.false_eq_true]

theorem find?_shareTable (n : DescribedNode) (id : BehaviorId) : n.shareTable.find? id = n.lastShare id := by
  rw [shareTable, find?_foldl_insert, IdTable.find?_empty, Option.or_none, lastShare]

/-- The node that a described node becomes has the lines of the described node; its id makes no difference. -/
theorem Becomes.nodeLines_eq {n : DescribedNode} {i : Nat} {node : Node} (h : n.Becomes i node) :
    nodeLines node = n.lines := by
  have hshares : node.kind.shares = n.shareTable := by
    refine IdTable.ext_find? fun id => Option.ext fun v => ?_
    rw [find?_shareTable]
    exact h.shares id v
  have hkind : node.kind = n.kindWith n.shareTable := hshares ▸ h.kind
  simp only [lines, nodeLines, Node.position, h.geometry, hkind]

end DescribedNode

/-- The lines for a described edge. -/
def DescribedEdge.lines (e : DescribedEdge) : List String :=
  streetLines ⟨e.directed, 0, 0, e.width, e.weight⟩ e.source e.target

namespace Graph

variable {g : Graph} {d : Description}

/-- The lines of the nodes are those of the description, in order. -/
theorem Records.map_nodeLines (h : g.Records d.calls) (hf : d.Fits) (hx : g.Indexed) :
    g.nodes.toList.map nodeLines = d.nodes.map DescribedNode.lines := by
  have hsize := h.described_size
  apply List.ext_getElem
  · simpa using hsize
  · intro i hi hi'
    rw [List.length_map, Array.length_toList] at hi
    rw [List.length_map] at hi'
    have hnode : g.nodes[i]? = some g.nodes[i] := Array.getElem?_eq_getElem hi
    have hn : d.nodes[i]? = some d.nodes[i] := List.getElem?_eq_getElem hi'
    simpa using (h.becomes hf hx hn hnode).nodeLines_eq

theorem Joins.edgeLines_eq (hx : g.Indexed) {asked : DescribedEdge} {e : Edge} (h : g.Joins asked e) :
    edgeLines g e = .ok asked.lines := by
  obtain ⟨m, hm, hme, hmp⟩ := h.source
  obtain ⟨n, hn, hne, hnp⟩ := h.target
  unfold edgeLines
  rw [(hx.node_eq_ok_iff _ _).2 ⟨hm, hme⟩, (hx.node_eq_ok_iff _ _).2 ⟨hn, hne⟩, DescribedEdge.lines, ← hmp, ← hnp]
  simp only [bind, Except.bind, pure, Except.pure, streetLines, h.directed, h.width, h.weight]

/-- The lines of the edges are those of the description, in order. -/
theorem Records.mapM_edgeLines (h : g.Records d.calls) (hx : g.Indexed) :
    g.edges.toList.mapM (edgeLines g) = .ok (d.edges.map DescribedEdge.lines) := by
  have hedges := h.edges
  rw [d.edges_calls] at hedges
  generalize d.edges = asked, g.edges.toList = edges at hedges ⊢
  induction hedges with
  | nil => rfl
  | cons hj _ ih =>
    rw [List.mapM_cons, hj.edgeLines_eq hx, ih]
    rfl

end Graph

namespace Description

/-- The procedure that makes the streets of the description. -/
def connectionLines (d : Description) : List String :=
  ["to connect-beacons"] ++ (d.edges.map DescribedEdge.lines).flatten ++ ["end"]

/-- The block of the description behind the header lines `world`. -/
def block (d : Description) (world : List String) : List String :=
  world ++ [""] ++ (["to generate-beacons"] ++ (d.nodes.map DescribedNode.lines).flatten ++ ["end"]) ++ d.connectionLines

section
variable {d : Description} {b : Builder} {g : Graph} (h : (d.applyTo b).1 = .ok g)
include h

/-- The block of the graph that a description builds is made of the lines of the description. -/
theorem mapBlock_of_applyTo :
    g.nodes.toList.map nodeLines = d.nodes.map DescribedNode.lines ∧
      g.edges.toList.mapM (edgeLines g) = .ok (d.edges.map DescribedEdge.lines) ∧
      Script.connectionLines g = .ok d.connectionLines ∧ g.mapBlock = .ok (d.block (worldLines g)) := by
  obtain ⟨hf, -, -, b', hh⟩ := holds_of_applyTo h
  have hnodes := hh.records.map_nodeLines hf hh.indexed
  have hedges := hh.records.mapM_edgeLines hh.indexed
  have hconnections : Script.connectionLines g = .ok d.connectionLines := by
    unfold Script.connectionLines
    rw [hedges]
    rfl
  refine ⟨hnodes, hedges, hconnections, ?_⟩
  unfold Graph.mapBlock
  rw [hconnections, block, beaconLines, List.flatMap_def, hnodes]
  rfl

theorem positions_of_applyTo : g.nodes.toList.map Node.position = d.positions := by
  obtain ⟨-, -, -, b', hh⟩ := holds_of_applyTo h
  rw [← d.positions_calls, History.positions, ← hh.records.nodes, List.map_map]
  rfl

end

/-- The largest of some numbers does not depend on their order. -/
theorem getD_max?_perm {l l' : List Int32} (h : l.Perm l') : l.max?.getD 0 = l'.max?.getD 0 := by
  obtain ⟨hle, hmem⟩ := getD_max?_spec l
  obtain ⟨hle', hmem'⟩ := getD_max?_spec l'
  rcases hmem with hmem | rfl
  · rcases hmem' with hmem' | rfl
    · exact Int32.le_antisymm (hle' _ (h.mem_iff.1 hmem)) (hle _ (h.mem_iff.2 hmem'))
    · rw [List.perm_nil.1 h]
  · rw [List.nil_perm.1 h]

theorem worldLines_perm {g g' : Graph}
    (h : (g.nodes.toList.map Node.position).Perm (g'.nodes.toList.map Node.position)) :
    worldLines g = worldLines g' := by
  have heast : g.maxEast = g'.maxEast := by
    have hx := h.map Coordinate.x
    rw [List.map_map, List.map_map] at hx
    exact getD_max?_perm hx
  have hnorth : g.maxNorth = g'.maxNorth := by
    have hy := h.map Coordinate.y
    rw [List.map_map, List.map_map] at hy
    exact getD_max?_perm hy
  rw [worldLines, worldLines, heast, hnorth]

/-- A permuted description is accepted exactly when the description is. The blocks of the two graphs then have one header,
the lines of the described nodes and of the described edges stand in them in the order of either description, and if the
edges have kept their order the last procedure is the same. -/
theorem blocks_permuted {d d' : Description} (h : d.Permuted d') (b b' : Builder) :
    ((∃ g, (d.applyTo b).1 = .ok g) ↔ ∃ g', (d'.applyTo b').1 = .ok g') ∧
      ∀ g g', (d.applyTo b).1 = .ok g → (d'.applyTo b').1 = .ok g' →
        (g.mapBlock = .ok (d.block (worldLines g)) ∧ g'.mapBlock = .ok (d'.block (worldLines g'))) ∧
        worldLines g = worldLines g' ∧
        (g.nodes.toList.map nodeLines = d.nodes.map DescribedNode.lines ∧
          g'.nodes.toList.map nodeLines = d'.nodes.map DescribedNode.lines) ∧
        (g.edges.toList.mapM (edgeLines g) = .ok (d.edges.map DescribedEdge.lines) ∧
          g'.edges.toList.mapM (edgeLines g') = .ok (d'.edges.map DescribedEdge.lines)) ∧
        (d.edges = d'.edges → Script.connectionLines g = Script.connectionLines g') := by
  refine ⟨h.accepts_iff b b', fun g g' hg hg' => ?_⟩
  obtain ⟨hnodes, hedges, hconnections, hblock⟩ := mapBlock_of_applyTo hg
  obtain ⟨hnodes', hedges', hconnections', hblock'⟩ := mapBlock_of_applyTo hg'
  have hworld : worldLines g = worldLines g' := by
    apply worldLines_perm
    rw [positions_of_applyTo hg, positions_of_applyTo hg']
    exact h.positions
  refine ⟨⟨hblock, hblock'⟩, hworld, ⟨hnodes, hnodes'⟩, ⟨hedges, hedges'⟩, fun he => ?_⟩
  rw [hconnections, hconnections', connectionLines, connectionLines, he]

/-- The description with its nodes, behaviors and interest points listed from the last to the first. -/
def reversed (d : Description) : Description where
  behaviors := (d.behaviors.map fun b => { b with core := b.core.reverse, optional := b.optional.reverse }).reverse
  nodes := d.nodes.reverse
  edges := d.edges

theorem permuted_reversed (d : Description) : d.Permuted d.reversed where
  nodes := d.nodes.reverse_perm.symm
  edges := .refl d.edges
  behaviors := by
    refine ⟨d.behaviors.reverse, d.behaviors.reverse_perm.symm, ?_⟩
    rw [reversed, ← List.map_reverse, List.forall₂_map_right_iff, List.forall₂_same]
    exact fun b _ => ⟨rfl, rfl, b.core.reverse_perm.symm, b.optional.reverse_perm.symm⟩

/-- Reversed, the junction is built with other ids for the ends of its streets, and is written with the same header and the
same streets. -/
theorem blocks_permuted_junction :
    ∃ g g' : Graph, (junction.applyTo {}).1 = .ok g ∧ (junction.reversed.applyTo {}).1 = .ok g' ∧ g.edges ≠ g'.edges ∧
      worldLines g = worldLines g' ∧ Script.connectionLines g = Script.connectionLines g' := by
  obtain ⟨haccepts, hblocks⟩ := blocks_permuted junction.permuted_reversed {} {}
  have hok : (junction.applyTo {}).1.toBool = true := by decide +kernel
  obtain ⟨g, hg⟩ := (applyTo_toBool_iff _ _).1 hok
  obtain ⟨g', hg'⟩ := haccepts.1 ⟨g, hg⟩
  have hids : (junction.applyTo {}).1.map Graph.edges ≠ (junction.reversed.applyTo {}).1.map Graph.edges := by
    decide +kernel
  obtain ⟨-, hworld, -, -, hconnections⟩ := hblocks g g' hg hg'
  refine ⟨g, g', hg, hg', fun he => hids ?_, hworld, hconnections rfl⟩
  rw [hg, hg', Except.map, Except.map, he]

end Description

end BeaconMap
