import BeaconMap.Proofs.Network.Connected
import BeaconMap.Proofs.Script.Lines
/-!
# What a block tells

Every graph that a builder makes has a block (`Made.mapBlock_eq`). Two such graphs have the same block exactly when
their nodes show as the same beacons and their edges are the same (`mapBlock_eq_iff`): nothing that a script is meant
to carry is lost, and the speeds, the kinds of the behaviors and the interest points make no difference.
-/

namespace BeaconMap

open Script

namespace Graph

variable {g g' : Graph}

/-- Where the node with an id stands, when ids count the nodes. -/
def positionOf (g : Graph) (id : NodeId) : Coordinate := (g.nodes.toList.map Node.position)[id.toNat]?.getD ⟨0, 0⟩

/-- The lines of all the streets. -/
def streets (g : Graph) : List String :=
  g.edges.toList.flatMap fun e => streetLines e (g.positionOf e.source) (g.positionOf e.target)

theorem Indexed.positionOf_id (h : g.Indexed) {n : Node} (hn : n ∈ g.nodes) : g.positionOf n.id = n.position := by
  obtain ⟨i, hi⟩ := Array.mem_iff_getElem?.1 hn
  rw [positionOf, h.ids i n hi, List.getElem?_map, Array.getElem?_toList, hi]
  rfl

theorem Indexed.positionOf_inj (h : g.Indexed) {m n : Node} (hm : m ∈ g.nodes) (hn : n ∈ g.nodes) :
    g.positionOf m.id = g.positionOf n.id ↔ m.id = n.id := by
  rw [h.positionOf_id hm, h.positionOf_id hn]
  constructor
  · intro he
    rw [h.byCoordinate.node_unique hm hn he]
  · intro he
    rw [h.byId.node_unique hm hn he]

/-! ## The block of a graph that was made -/

theorem Made.indexed (h : g.Made) : g.Indexed := by
  obtain ⟨b, past, hp⟩ := h.holds
  exact hp.indexed

theorem mapM_eq_ok {α β ε : Type} {f : α → Except ε β} {k : α → β} {l : List α} (h : ∀ a ∈ l, f a = .ok (k a)) :
    l.mapM f = .ok (l.map k) := by
  induction l with
  | nil => rfl
  | cons a l ih =>
    rw [List.mapM_cons, h a List.mem_cons_self, ih fun b hb => h b (List.mem_cons_of_mem _ hb)]
    rfl

theorem Made.edgeLines_eq (h : g.Made) {e : Edge} (he : e ∈ g.edges) :
    edgeLines g e = .ok (streetLines e (g.positionOf e.source) (g.positionOf e.target)) := by
  obtain ⟨⟨m, hm, hsource⟩, ⟨n, hn, htarget⟩⟩ := h.sound.ends e he
  unfold edgeLines
  rw [(h.indexed.node_eq_ok_iff _ _).2 ⟨hm, hsource⟩, (h.indexed.node_eq_ok_iff _ _).2 ⟨hn, htarget⟩, ← hsource,
    ← htarget, h.indexed.positionOf_id hm, h.indexed.positionOf_id hn]
  rfl

/-- No street of such a graph lacks an end, so the block never fails. -/
theorem Made.mapBlock_eq (h : g.Made) :
    g.mapBlock = .ok (worldLines g ++ [""] ++ beaconLines g ++ (["to connect-beacons"] ++ g.streets ++ ["end"])) := by
  have hstreets := mapM_eq_ok fun e he => h.edgeLines_eq (Array.mem_toList_iff.1 he)
  unfold mapBlock connectionLines
  rw [hstreets, streets, List.flatMap_def]
  rfl

/-- Every number that a script shows of such a graph is finite. -/
theorem Made.finiteNumbers (h : g.Made) {n : Node} (hn : n ∈ g.nodes) : n.kind.FiniteNumbers where
  rate r hr := (h.sound.rates n hn r hr).1
  shares e he := (h.sound.shares n hn e he).2.1

/-! ## Reading a block -/

theorem length_worldLines (g : Graph) : (worldLines g).length = 11 := rfl

theorem end_not_mem_nodeLines (l : List Node) : "end" ∉ l.flatMap nodeLines := by
  intro h
  obtain ⟨n, -, hn⟩ := List.mem_flatMap.1 h
  rw [nodeLines_eq] at hn
  rcases List.mem_append.1 hn with hn | hn
  · exact absurd (prefix_openLines n _ hn) (by decide)
  · exact absurd hn (by decide)

theorem beacons_of_lines (h : g.Made) (h' : g'.Made)
    (hlines : g.nodes.toList.flatMap nodeLines = g'.nodes.toList.flatMap nodeLines) :
    g.nodes.toList.map Node.beacon = g'.nodes.toList.map Node.beacon := by
  refine map_eq_of_flatMap_eq nodeLines_ne_nil nodeLines_ne_nil ?_ hlines
  intro m hm n hn r r' heq
  have hfinite := h.finiteNumbers (Array.mem_toList_iff.1 hm)
  have hfinite' := h'.finiteNumbers (Array.mem_toList_iff.1 hn)
  exact nodeLines_append_inj hfinite hfinite' heq

theorem positions_congr (h : g.nodes.toList.map Node.beacon = g'.nodes.toList.map Node.beacon) :
    g.nodes.toList.map Node.position = g'.nodes.toList.map Node.position := by
  have hpositions := congrArg (List.map Beacon.position) h
  rw [List.map_map, List.map_map] at hpositions
  exact hpositions

theorem positionOf_congr (h : g.nodes.toList.map Node.beacon = g'.nodes.toList.map Node.beacon) :
    g.positionOf = g'.positionOf := by
  funext id
  rw [positionOf, positionOf, positions_congr h]

/-- A node of one graph and a node of the other that stand at one place have one id. -/
theorem Indexed.id_eq_of_positionOf_eq (h : g.Indexed) (h' : g'.Indexed) (hsize : g.nodes.size = g'.nodes.size)
    (hpositions : g.positionOf = g'.positionOf) {m n : Node} (hm : m ∈ g.nodes) (hn : n ∈ g'.nodes)
    (heq : g.positionOf m.id = g'.positionOf n.id) : m.id = n.id := by
  have hlt : n.id.toNat < g.nodes.size := hsize ▸ h'.id_lt hn
  have hget : g.nodes[n.id.toNat]? = some g.nodes[n.id.toNat] := Array.getElem?_eq_getElem hlt
  have hid : g.nodes[n.id.toNat].id = n.id := UInt32.toNat_inj.1 (h.ids _ _ hget)
  rw [← hpositions, ← hid, h.positionOf_inj hm (Array.mem_of_getElem? hget)] at heq
  exact heq.trans hid

theorem edges_of_lines (h : g.Made) (h' : g'.Made)
    (hbeacons : g.nodes.toList.map Node.beacon = g'.nodes.toList.map Node.beacon) (hlines : g.streets = g'.streets) :
    g.edges = g'.edges := by
  have hsize : g.nodes.size = g'.nodes.size := by simpa using congrArg List.length hbeacons
  have hpositions := positionOf_congr hbeacons
  have hmap : g.edges.toList.map id = g'.edges.toList.map id := by
    refine map_eq_of_flatMap_eq (fun _ => streetLines_ne_nil _ _ _) (fun _ => streetLines_ne_nil _ _ _) ?_ hlines
    intro e he e' he' r r' heq
    have hmem := Array.mem_toList_iff.1 he
    have hmem' := Array.mem_toList_iff.1 he'
    obtain ⟨hstreet, hrest⟩ := List.append_inj heq (by rw [length_streetLines, length_streetLines])
    rw [streetLines_inj (h.sound.streets e hmem).2.1 (h'.sound.streets e' hmem').2.1] at hstreet
    obtain ⟨⟨hsource, htarget⟩, hdirected, hwidth, hweight⟩ := hstreet
    -- The ends are told by where they stand, and no two nodes stand at one place.
    obtain ⟨⟨m, hm, hms⟩, ⟨n, hn, hnt⟩⟩ := h.sound.ends e hmem
    obtain ⟨⟨m', hm', hms'⟩, ⟨n', hn', hnt'⟩⟩ := h'.sound.ends e' hmem'
    have hs : e.source = e'.source := by
      rw [← hms, ← hms'] at hsource ⊢
      exact h.indexed.id_eq_of_positionOf_eq h'.indexed hsize hpositions hm hm' hsource
    have ht : e.target = e'.target := by
      rw [← hnt, ← hnt'] at htarget ⊢
      exact h.indexed.id_eq_of_positionOf_eq h'.indexed hsize hpositions hn hn' htarget
    obtain ⟨d, s, t, w, v⟩ := e
    rw [id, id, Edge.mk.injEq]
    exact ⟨⟨hdirected, hs, ht, hwidth, hweight⟩, hrest⟩
  rw [List.map_id, List.map_id] at hmap
  exact Array.toList_inj.1 hmap

/-- What shows of the nodes makes up their lines. -/
theorem flatMap_nodeLines_eq (l : List Node) :
    l.flatMap nodeLines = (l.map Node.beacon).flatMap fun b => nodeLines b.node := by
  rw [List.flatMap_map]
  exact List.flatMap_congr fun n _ => (nodeLines_beacon n).symm

theorem worldLines_congr (h : g.nodes.toList.map Node.beacon = g'.nodes.toList.map Node.beacon) :
    worldLines g = worldLines g' := by
  have heast : g.maxEast = g'.maxEast := by
    have hxs := congrArg (List.map Coordinate.x) (positions_congr h)
    rw [List.map_map, List.map_map] at hxs
    exact congrArg (fun l => l.max?.getD 0) hxs
  have hnorth : g.maxNorth = g'.maxNorth := by
    have hys := congrArg (List.map Coordinate.y) (positions_congr h)
    rw [List.map_map, List.map_map] at hys
    exact congrArg (fun l => l.max?.getD 0) hys
  rw [worldLines, worldLines, heast, hnorth]

/-- Two graphs that builders made have a block each, and it is the same block exactly when the nodes, in order, show
as the same beacons and the edges, in order, are the same. -/
theorem mapBlock_eq_iff (hg : g.Made) (hg' : g'.Made) :
    ((∃ block, g.mapBlock = .ok block) ∧ ∃ block, g'.mapBlock = .ok block) ∧
      (g.mapBlock = g'.mapBlock ↔
        g.nodes.toList.map Node.beacon = g'.nodes.toList.map Node.beacon ∧ g.edges = g'.edges) := by
  refine ⟨⟨⟨_, hg.mapBlock_eq⟩, ⟨_, hg'.mapBlock_eq⟩⟩, ?_⟩
  rw [hg.mapBlock_eq, hg'.mapBlock_eq, Except.ok.injEq]
  constructor
  · intro h
    simp only [beaconLines, List.append_assoc] at h
    have hsize : (worldLines g).length = (worldLines g').length := by rw [length_worldLines, length_worldLines]
    have hrest := (List.append_inj h hsize).2
    rw [List.append_right_inj, List.append_right_inj] at hrest
    obtain ⟨hnodes, hconnections⟩ := append_mark_inj (end_not_mem_nodeLines _) (end_not_mem_nodeLines _) hrest
    have hbeacons := beacons_of_lines hg hg' hnodes
    -- Behind the nodes stand the header of the last procedure, the streets and one more line.
    have hstreets : g.streets = g'.streets := List.append_cancel_right (List.cons.inj hconnections).2
    exact ⟨hbeacons, edges_of_lines hg hg' hbeacons hstreets⟩
  · rintro ⟨hbeacons, hedges⟩
    rw [worldLines_congr hbeacons, beaconLines, beaconLines, flatMap_nodeLines_eq, flatMap_nodeLines_eq, hbeacons,
      streets, streets, positionOf_congr hbeacons, hedges]

/-- The calls for an entry and an exit with a street between them. -/
def lane (speed weight : Binary64) (kind : BehaviorKind) (optional : Bool) : List Call :=
  [.start, .behavior 1 kind, .entryPoint ⟨⟨0, 0⟩, 2, 2, 1, speed⟩ ⟨.ofNat 2, 0⟩, .exitPoint (.at 4 0) (.ofNat 1),
    .generated ⟨0, 0⟩ 1 (.ofNat 40), .interestPoint ⟨4, 0⟩ 1 optional, .street false ⟨0, 0⟩ ⟨4, 0⟩ 1 weight]

/-- Two lanes that differ in a speed, in the kind of a behavior and in an interest point have one block; another weight
of the street makes it another block. -/
theorem mapBlock_eq_iff_lane :
    ∃ g g' g'' : Graph, (g.Made ∧ g'.Made ∧ g''.Made) ∧ (g.nodes ≠ g'.nodes ∧ g.behaviors ≠ g'.behaviors) ∧
      g.mapBlock = g'.mapBlock ∧ g.mapBlock ≠ g''.mapBlock := by
  have made (speed weight : Binary64) (kind : BehaviorKind) (optional : Bool)
      (hsome : (Call.runAll (lane speed weight kind optional) {}).2.product.isSome = true) :
      ∃ g : Graph, (Call.runAll (lane speed weight kind optional) {}).2.product = some g ∧ g.Made := by
    obtain ⟨g, hg⟩ := Option.isSome_iff_exists.1 hsome
    exact ⟨g, hg, _, .inl hg⟩
  obtain ⟨g, hg, hm⟩ := made (.ofNat 1) (.ofNat 4) .visit false (by decide +kernel)
  obtain ⟨g', hg', hm'⟩ := made (.ofNat 3) (.ofNat 4) .evacuate true (by decide +kernel)
  obtain ⟨g'', hg'', hm''⟩ := made (.ofNat 1) (.ofNat 5) .visit false (by decide +kernel)
  obtain ⟨⟨hnodes, hbehaviors⟩, ⟨hbeacons, hedges⟩, hweights⟩ :
      ((some g).map nodes ≠ (some g').map nodes ∧ (some g).map behaviors ≠ (some g').map behaviors) ∧
        ((some g).map (·.nodes.toList.map Node.beacon) = (some g').map (·.nodes.toList.map Node.beacon) ∧
          (some g).map edges = (some g').map edges) ∧ (some g).map edges ≠ (some g'').map edges := by
    rw [← hg, ← hg', ← hg'']
    decide +kernel
  refine ⟨g, g', g'', ⟨hm, hm', hm''⟩, ⟨?_, ?_⟩, ?_, ?_⟩
  · exact fun he => hnodes (congrArg some he)
  · exact fun he => hbehaviors (congrArg some he)
  · exact (mapBlock_eq_iff hm hm').2.2 ⟨Option.some.inj hbeacons, Option.some.inj hedges⟩
  · exact fun he => hweights (congrArg some ((mapBlock_eq_iff hm hm'').2.1 he).2)

end Graph

end BeaconMap
