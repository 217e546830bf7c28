import BeaconMap.Proofs.Network.Connected
import BeaconMap.Proofs.Network.Determined
/-!
# Networks up to the ids of their nodes

Ids tell in which order the nodes of a network were placed, and nothing else. When two lists of calls ask for the same
things (`History.Alike`), their graphs are the same once the nodes that stand at one coordinate are given one id
(`Graph.matching`, `Graph.Renamed`), and they are connected both or neither.
-/

namespace BeaconMap

open History

/-! ## Renaming ids -/

/-- The node with its id renamed. -/
def Node.rename (ρ : NodeId → NodeId) (n : Node) : Node := { n with id := ρ n.id }

@[simp] theorem Node.rename_position (ρ : NodeId → NodeId) (n : Node) : (n.rename ρ).position = n.position := rfl

/-- The edge between the renamed nodes. -/
def Edge.rename (ρ : NodeId → NodeId) (e : Edge) : Edge := { e with source := ρ e.source, target := ρ e.target }

/-- The second behavior is the first one with its interest points renamed. -/
structure Behavior.Renamed (ρ : NodeId → NodeId) (b b' : Behavior) : Prop where
  id : b'.id = b.id
  kind : b'.kind = b.kind
  interests : ∀ optional k', k' ∈ (b'.interests optional).ids ↔ ∃ k ∈ (b.interests optional).ids, ρ k = k'

theorem Edge.Links.rename {e : Edge} {a b : NodeId} (h : e.Links a b) (ρ : NodeId → NodeId) :
    (e.rename ρ).Links (ρ a) (ρ b) := by
  rcases h with ⟨rfl, rfl⟩ | ⟨rfl, rfl⟩
  · exact .inl ⟨rfl, rfl⟩
  · exact .inr ⟨rfl, rfl⟩

namespace Graph

/-- The id that the second graph has for a node at the coordinate where the first one has the node with this id. -/
def matching (g g' : Graph) (id : NodeId) : NodeId :=
  match g.node id with
  | .error _ => id
  | .ok n =>
    match g'.nodeAt n.position with
    | .error _ => id
    | .ok n' => n'.id

theorem nodeAt_cases (g : Graph) (c : Coordinate) :
    (∃ n, g.nodeAt c = .ok n) ∨ g.nodeAt c = .error (.noSuchNode c) := by
  unfold nodeAt
  split
  · exact .inl ⟨_, rfl⟩
  · exact .inr rfl

/-- The second graph is the first one with the ids of its nodes renamed; nodes and edges may come in another order. -/
structure Renamed (ρ : NodeId → NodeId) (g g' : Graph) : Prop where
  injective : ∀ m ∈ g.nodes, ∀ n ∈ g.nodes, ρ m.id = ρ n.id → m = n
  nodes : (g.nodes.toList.map (Node.rename ρ)).Perm g'.nodes.toList
  nodeAt : ∀ c, g'.nodeAt c = (g.nodeAt c).map (Node.rename ρ)
  edges : (g.edges.toList.map (Edge.rename ρ)).Perm g'.edges.toList
  behaviors : ∀ id, Option.Rel (Behavior.Renamed ρ) (g.behaviors.find? id) (g'.behaviors.find? id)

theorem Renamed.connected {ρ : NodeId → NodeId} {g g' : Graph} (h : Renamed ρ g g') (hc : g.Connected) :
    g'.Connected := by
  -- A chain is renamed link by link.
  have hlink (a b : NodeId) (hl : Connectivity.Linked g.edges.toList a b) :
      Connectivity.Linked g'.edges.toList (ρ a) (ρ b) := by
    obtain ⟨e, he, hl⟩ := hl
    exact ⟨e.rename ρ, h.edges.subset (List.mem_map_of_mem he), hl.rename ρ⟩
  have hnode (n' : Node) (hn' : n' ∈ g'.nodes) : ∃ n ∈ g.nodes, n.rename ρ = n' := by
    simpa using h.nodes.symm.subset (Array.mem_toList_iff.2 hn')
  intro m' hm' n' hn'
  obtain ⟨m, hm, rfl⟩ := hnode m' hm'
  obtain ⟨n, hn, rfl⟩ := hnode n' hn'
  exact Relation.ReflTransGen.lift ρ hlink _ _ (hc m hm n hn)

end Graph

/-! ## Records of the same things -/

/-- The two lists ask for the same things, and for the same share last of a behavior at a coordinate. -/
structure History.Alike (past past' : List Call) : Prop where
  nodes : (nodes past).Perm (nodes past')
  edges : (edges past).Perm (edges past')
  behaviors : (behaviors past).Perm (behaviors past')
  interests : (interests past).Perm (interests past')
  shareOf : ∀ c id, shareOf past c id = shareOf past' c id

theorem History.Alike.symm {past past' : List Call} (h : Alike past past') : Alike past' past :=
  ⟨h.nodes.symm, h.edges.symm, h.behaviors.symm, h.interests.symm, fun c id => (h.shareOf c id).symm⟩

namespace Graph

section
variable {g g' : Graph} {past past' : List Call} (h : g.Records past) (h' : g'.Records past') (hx : g.Indexed)
  (hx' : g'.Indexed) (ha : Alike past past')
include h h' hx hx' ha

/-- A node of the first graph has its place in the second under the new id. -/
theorem Records.standsAt_matching {id : NodeId} {c : Coordinate} (hs : g.StandsAt id c) :
    g'.StandsAt (g.matching g' id) c := by
  obtain ⟨n, hn, rfl, rfl⟩ := hs
  have hposition : n.position ∈ positions past' :=
    (ha.nodes.map _).subset ((h.mem_positions n.position).2 ⟨n, hn, rfl⟩)
  obtain ⟨n', hn', hp⟩ := (h'.mem_positions n.position).1 hposition
  rw [matching, (hx.node_eq_ok_iff n.id n).2 ⟨hn, rfl⟩]
  dsimp only
  rw [(hx'.nodeAt_eq_ok_iff n.position n').2 ⟨hn', hp⟩]
  exact ⟨n', hn', rfl, hp⟩

/-- A node that stands in both graphs is the same in both but for its id. -/
theorem Records.rename_eq {n n' : Node} (hn : n ∈ g.nodes) (hn' : n' ∈ g'.nodes)
    (hasked : (n.geometry, n.kind.bare) = (n'.geometry, n'.kind.bare)) : n.rename (g.matching g') = n' := by
  obtain ⟨hgeometry, hbare⟩ := Prod.mk.inj hasked
  have hposition : n'.position = n.position := congrArg Geometry.position hgeometry.symm
  have hid : g.matching g' n.id = n'.id :=
    hx'.id_unique (h.standsAt_matching h' hx hx' ha ⟨n, hn, rfl, rfl⟩) ⟨n', hn', rfl, hposition⟩
  have hkind : n.kind = n'.kind := by
    refine NodeKind.ext_bare hbare (IdTable.ext_find? fun id => ?_)
    rw [h.shares n hn, h'.shares n' hn', ha.shareOf, hposition]
  exact (Node.mk.injEq ..).mpr ⟨hid, hgeometry, hkind⟩

theorem Records.mem_nodes_rename (n' : Node) : (∃ n ∈ g.nodes, n.rename (g.matching g') = n') ↔ n' ∈ g'.nodes := by
  have hasked (x : Geometry × NodeKind) :
      (∃ n ∈ g.nodes, (n.geometry, n.kind.bare) = x) ↔ ∃ n ∈ g'.nodes, (n.geometry, n.kind.bare) = x := by
    have hmem : x ∈ History.nodes past ↔ x ∈ History.nodes past' := ha.nodes.mem_iff
    rw [← h.nodes, ← h'.nodes] at hmem
    simpa using hmem
  constructor
  · rintro ⟨n, hn, rfl⟩
    obtain ⟨m, hm, he⟩ := (hasked _).1 ⟨n, hn, rfl⟩
    rwa [h.rename_eq h' hx hx' ha hn hm he.symm]
  · intro hn'
    obtain ⟨n, hn, he⟩ := (hasked _).2 ⟨n', hn', rfl⟩
    exact ⟨n, hn, h.rename_eq h' hx hx' ha hn hn' he⟩

/-- The second graph has at a coordinate what the first one has there. -/
theorem Records.nodeAt_rename (c : Coordinate) : g'.nodeAt c = (g.nodeAt c).map (Node.rename (g.matching g')) := by
  rcases g.nodeAt_cases c with ⟨n, hn⟩ | hnone
  · obtain ⟨hmem, rfl⟩ := (hx.nodeAt_eq_ok_iff c n).1 hn
    rw [hn, Except.map, hx'.nodeAt_eq_ok_iff]
    exact ⟨(h.mem_nodes_rename h' hx hx' ha _).1 ⟨n, hmem, rfl⟩, rfl⟩
  · rcases g'.nodeAt_cases c with ⟨n', hn'⟩ | hnone'
    · obtain ⟨hmem', hp⟩ := (hx'.nodeAt_eq_ok_iff c n').1 hn'
      obtain ⟨n, hmem, rfl⟩ := (h.mem_nodes_rename h' hx hx' ha n').2 hmem'
      have hn := (hx.nodeAt_eq_ok_iff c n).2 ⟨hmem, hp⟩
      rw [hnone] at hn
      cases hn
    · rw [hnone, hnone', Except.map]

theorem Records.nodes_rename :
    (g.nodes.toList.map (Node.rename (g.matching g'))).Perm g'.nodes.toList := by
  have hposition : (g.nodes.toList.map (Node.rename (g.matching g'))).map Node.position =
      g.nodes.toList.map Node.position := by
    simp [Function.comp_def]
  have hnd : (g.nodes.toList.map (Node.rename (g.matching g'))).Nodup :=
    .of_map Node.position (hposition ▸ hx.positions_nodup)
  refine (List.perm_ext_iff_of_nodup hnd (.of_map Node.position hx'.positions_nodup)).2 fun n' => ?_
  simpa using h.mem_nodes_rename h' hx hx' ha n'

theorem Records.matching_injective {m n : Node} (hm : m ∈ g.nodes) (hn : n ∈ g.nodes)
    (he : g.matching g' m.id = g.matching g' n.id) : m = n := by
  have hm' := (h.mem_nodes_rename h' hx hx' ha _).1 ⟨m, hm, rfl⟩
  have hn' := (h.mem_nodes_rename h' hx hx' ha _).1 ⟨n, hn, rfl⟩
  have hsame : m.rename (g.matching g') = n.rename (g.matching g') := hx'.byId.node_unique hm' hn' he
  have hposition : m.position = n.position := by simpa using congrArg Node.position hsame
  exact hx.byCoordinate.node_unique hm hn hposition

/-- The renamed edges are the streets that the first list asks for, in the second graph. -/
theorem Records.joins_rename :
    List.Forall₂ g'.Joins (History.edges past) (g.edges.toList.map (Edge.rename (g.matching g'))) := by
  rw [List.forall₂_map_right_iff]
  exact h.edges.imp fun _ _ hj => ⟨hj.directed, hj.width, hj.weight, h.standsAt_matching h' hx hx' ha hj.source,
    h.standsAt_matching h' hx hx' ha hj.target⟩

theorem Records.edges_rename : (g.edges.toList.map (Edge.rename (g.matching g'))).Perm g'.edges.toList := by
  obtain ⟨edges, hjoins, hperm⟩ :=
    List.perm_comp_forall₂ ha.edges.symm (h.joins_rename h' hx hx' ha)
  rw [List.right_unique_forall₂' hx'.joins_rightUnique hjoins h'.edges] at hperm
  exact hperm.symm

/-- Streets that were asked for in the same order come in the same order. -/
theorem Records.edges_rename_eq (he : History.edges past = History.edges past') :
    g.edges.toList.map (Edge.rename (g.matching g')) = g'.edges.toList :=
  List.right_unique_forall₂' hx'.joins_rightUnique (he ▸ h.joins_rename h' hx hx' ha) h'.edges

/-- A behavior of both graphs has the same kind in both, and matching interest points. -/
theorem Records.behavior_renamed (hl : Legal [] past) {id : BehaviorId} {b b' : Behavior}
    (hb : g.behaviors.find? id = some b) (hb' : g'.behaviors.find? id = some b') (hkind : b'.kind = b.kind) :
    Behavior.Renamed (g.matching g') b b' := by
  refine ⟨(h'.keys id b' hb').trans (h.keys id b hb).symm, hkind, fun optional k' => ?_⟩
  rw [h'.interests id b' hb']
  simp only [h.interests id b hb, ← ha.interests.mem_iff]
  -- Both sets were asked for at the same coordinates, and at each of them a node stands in both graphs.
  constructor
  · rintro ⟨c, hc, hs'⟩
    obtain ⟨n, hn, rfl⟩ := (h.mem_positions c).1 (hl.interest hc).1
    have hs : g.StandsAt n.id n.position := ⟨n, hn, rfl, rfl⟩
    exact ⟨n.id, ⟨n.position, hc, hs⟩, hx'.id_unique (h.standsAt_matching h' hx hx' ha hs) hs'⟩
  · rintro ⟨k, ⟨c, hc, hs⟩, rfl⟩
    exact ⟨c, hc, h.standsAt_matching h' hx hx' ha hs⟩

theorem Records.behaviors_rename (hl : Legal [] past) (id : BehaviorId) :
    Option.Rel (Behavior.Renamed (g.matching g')) (g.behaviors.find? id) (g'.behaviors.find? id) := by
  cases hb : g.behaviors.find? id with
  | some b =>
    obtain ⟨b', hb', hkind⟩ :=
      (h'.behaviors id b.kind).2 (ha.behaviors.subset ((h.behaviors id b.kind).1 ⟨b, hb, rfl⟩))
    rw [hb']
    exact .some (h.behavior_renamed h' hx hx' ha hl hb hb' hkind)
  | none =>
    cases hb' : g'.behaviors.find? id with
    | none => exact .none
    | some b' =>
      obtain ⟨b, hb'', -⟩ :=
        (h.behaviors id b'.kind).2 (ha.behaviors.symm.subset ((h'.behaviors id b'.kind).1 ⟨b', hb', rfl⟩))
      rw [hb] at hb''
      cases hb''

end

end Graph

section
variable {b b' : Builder} {g g' : Graph} {past past' : List Call} (h : b.Holds g past) (h' : b'.Holds g' past')
  (ha : History.Alike past past')
include h h' ha

/-- What is made of the same things is the same up to the ids of the nodes. -/
theorem Builder.Holds.renamed : Graph.Renamed (g.matching g') g g' where
  injective _ hm _ hn := h.records.matching_injective h'.records h.indexed h'.indexed ha hm hn
  nodes := h.records.nodes_rename h'.records h.indexed h'.indexed ha
  nodeAt := h.records.nodeAt_rename h'.records h.indexed h'.indexed ha
  edges := h.records.edges_rename h'.records h.indexed h'.indexed ha
  behaviors := h.records.behaviors_rename h'.records h.indexed h'.indexed ha h.legal

theorem Builder.Holds.isConnected_eq : g.isConnected = g'.isConnected := by
  rw [Bool.eq_iff_iff, h.sound.isConnected_iff, h'.sound.isConnected_iff]
  exact ⟨(h.renamed h' ha).connected, (h'.renamed h ha.symm).connected⟩

end

end BeaconMap
