import BeaconMap.Proofs.Network.Acceptable
/-!
# A graph is what its description says

`Description.Describes` compares a graph with a description, node by node, edge by edge and behavior by behavior.
A graph that `apply` hands over is described in this way (`applyTo_describes`), since it is the record of the calls
of the description.
-/

namespace BeaconMap

open History

/-- The share of the last entry for a behavior. -/
def DescribedNode.lastShare (n : DescribedNode) (id : BehaviorId) : Option Binary64 :=
  (n.percentages.filter fun s => s.behavior = id).getLast?.map DescribedShare.percentage

/-- The node is the one that is described at place `i`. -/
structure DescribedNode.Becomes (n : DescribedNode) (i : Nat) (node : Node) : Prop where
  id : node.id.toNat = i
  geometry : node.geometry = n.geometry
  /-- The rate and limit are those that are described. -/
  kind : node.kind = n.kindWith node.kind.shares
  /-- What the kind has no place for is described as 0. -/
  rest : (n.kind = .regular → n.rate.Zero) ∧ (n.kind ≠ .entry → n.limit = 0)
  shares : ∀ b v, node.kind.shares.find? b = some v ↔ n.lastShare b = some v

namespace Description

/-- The node with this id is described at this coordinate. -/
def Declares (d : Description) (id : NodeId) (c : Coordinate) : Prop :=
  ∃ n, d.nodes[id.toNat]? = some n ∧ n.position = c

/-- The edge is the one that is described. -/
structure BecomesEdge (d : Description) (asked : DescribedEdge) (e : Edge) : Prop where
  directed : e.directed = asked.directed
  width : e.width = asked.width
  weight : e.weight = asked.weight
  source : d.Declares e.source asked.source
  target : d.Declares e.target asked.target

/-- The behavior is the one that is described. -/
structure BecomesBehavior (d : Description) (asked : DescribedBehavior) (b : Behavior) : Prop where
  id : b.id = asked.id
  kind : b.kind = asked.kind
  core : ∀ id, id ∈ b.core.ids ↔ ∃ c ∈ asked.core, d.Declares id c
  optional : ∀ id, id ∈ b.optional.ids ↔ ∃ c ∈ asked.optional, d.Declares id c

/-- The graph has the nodes, edges and behaviors of the description, and no others. -/
structure Describes (d : Description) (g : Graph) : Prop where
  nodeCount : g.nodes.size = d.nodes.length
  nodes : ∀ (i : Nat) n node, d.nodes[i]? = some n → g.nodes[i]? = some node → n.Becomes i node
  /-- One node at most is described at a coordinate. -/
  declared : ∀ id id' c, d.Declares id c → d.Declares id' c → id = id'
  edgeCount : g.edges.size = d.edges.length
  edges : ∀ (j : Nat) asked e, d.edges[j]? = some asked → g.edges[j]? = some e → d.BecomesEdge asked e
  behaviorIds : g.behaviors.ids.Perm (d.behaviors.map DescribedBehavior.id)
  behaviors : ∀ asked ∈ d.behaviors, ∃ b, g.behaviors.find? asked.id = some b ∧ d.BecomesBehavior asked b

end Description

/-! ## Shares -/

theorem flatMap_eq_of_unique {α β : Type} {l : List α} (hnd : l.Nodup) {a : α} (ha : a ∈ l) {f : α → List β}
    (hf : ∀ x ∈ l, x ≠ a → f x = []) : l.flatMap f = f a := by
  induction l with
  | nil => cases ha
  | cons x rest ih =>
    obtain ⟨hx, hrest⟩ := List.nodup_cons.1 hnd
    rw [List.flatMap_cons]
    rcases List.mem_cons.1 ha with rfl | ha
    · have hnil : rest.flatMap f = [] := List.flatMap_eq_nil_iff.2 fun y hy =>
        hf y (List.mem_cons_of_mem _ hy) fun he => hx (he ▸ hy)
      rw [hnil, List.append_nil]
    · rw [hf x List.mem_cons_self fun he => hx (he ▸ ha), List.nil_append]
      exact ih hrest ha fun y hy => hf y (List.mem_cons_of_mem _ hy)

namespace Description

variable {d : Description}

/-- The shares that a description asks for at the coordinate of a node are those of the node. -/
theorem shareOf_calls (hnd : d.positions.Nodup) {n : DescribedNode} (hn : n ∈ d.nodes) (id : BehaviorId) :
    shareOf d.calls n.position id = n.lastShare id := by
  have hone : (shares d.calls).filter (fun s => s.position = n.position ∧ s.behavior = id) =
      (n.percentages.filter fun s => s.behavior = id).map
        fun s => ⟨n.generates, n.position, s.behavior, s.percentage⟩ := by
    -- Only the block of the node itself is left: the other nodes stand elsewhere.
    rw [shares_calls, List.filter_flatMap, flatMap_eq_of_unique hnd.of_map hn]
    · simp [List.filter_map, Function.comp_def]
    · intro m hm hne
      have hp : m.position ≠ n.position := fun he => hne (node_unique hnd hm hn he)
      simp [List.filter_eq_nil_iff, hp]
  rw [shareOf, hone, DescribedNode.lastShare, List.getLast?_map, Option.map_map]
  rfl

/-- Behaviors that can be registered one after the other have different ids. -/
theorem behaviorIds_nodup (h : Legal [] d.calls) : d.behaviorIds.Nodup := by
  rw [calls_eq, legal_append, legal_append, behaviorCalls, legal_behaviors] at h
  exact h.1.1.1

theorem behavior_unique (h : d.behaviorIds.Nodup) {a b : DescribedBehavior} (ha : a ∈ d.behaviors)
    (hb : b ∈ d.behaviors) (he : a.id = b.id) : a = b :=
  List.inj_on_of_nodup_map h ha hb he

end Description

theorem DescribedNode.kind_of_bare {n : DescribedNode} {k : NodeKind} (h : k.bare = n.kindWith .empty) :
    k = n.kindWith k.shares := by
  unfold DescribedNode.kindWith at h ⊢
  cases k <;> cases hk : n.kind <;> simp only [hk, NodeKind.bare, reduceCtorEq] at h ⊢
  · rw [NodeKind.entryPoint.injEq] at h
    rw [h.1]
    rfl
  · rw [NodeKind.exitPoint.injEq] at h
    rw [h.1]
    rfl

/-! ## The record of a description -/

namespace Graph

variable {g : Graph} {d : Description}

section
variable (h : g.Records d.calls)
include h

theorem Records.described_size : g.nodes.size = d.nodes.length := by
  rw [h.size_eq, Description.nodes_calls, List.length_map]

/-- The nodes of the graph and of the description agree place by place. -/
theorem Records.node_at {i : Nat} {n : DescribedNode} {node : Node} (hn : d.nodes[i]? = some n)
    (hnode : g.nodes[i]? = some node) : node.geometry = n.geometry ∧ node.kind.bare = n.kindWith .empty := by
  have heq := congrArg (·[i]?) (h.nodes.trans d.nodes_calls)
  simpa [hn, hnode] using heq

theorem Records.positions_nodup (hx : g.Indexed) : d.positions.Nodup := by
  have heq : g.nodes.toList.map Node.position = d.positions := by
    rw [← d.positions_calls, positions, ← h.nodes, List.map_map]
    rfl
  exact heq ▸ hx.positions_nodup

theorem Records.standsAt_iff (hx : g.Indexed) (id : NodeId) (c : Coordinate) :
    g.StandsAt id c ↔ d.Declares id c := by
  have hsize := h.described_size
  constructor
  · rintro ⟨node, hnode, rfl, rfl⟩
    obtain ⟨i, hi⟩ := Array.mem_iff_getElem?.1 hnode
    have hlt := (Array.getElem?_eq_some_iff.1 hi).1
    obtain ⟨n, hn⟩ : ∃ n, d.nodes[i]? = some n := ⟨_, List.getElem?_eq_getElem (by omega)⟩
    refine ⟨n, by rw [hx.ids i node hi, hn], ?_⟩
    exact congrArg Geometry.position (h.node_at hn hi).1.symm
  · rintro ⟨n, hn, rfl⟩
    have hlt := (List.getElem?_eq_some_iff.1 hn).1
    obtain ⟨node, hnode⟩ : ∃ node, g.nodes[id.toNat]? = some node := ⟨_, Array.getElem?_eq_getElem (by omega)⟩
    refine ⟨node, Array.mem_of_getElem? hnode, UInt32.toNat_inj.1 (hx.ids _ node hnode), ?_⟩
    exact congrArg Geometry.position (h.node_at hn hnode).1

theorem Records.becomesEdge (hx : g.Indexed) {j : Nat} {asked : DescribedEdge} {e : Edge}
    (ha : d.edges[j]? = some asked) (he : g.edges[j]? = some e) : d.BecomesEdge asked e := by
  have hjoins : g.Joins asked e := by
    have hedges := h.edges
    rw [d.edges_calls] at hedges
    obtain ⟨hj, rfl⟩ := List.getElem?_eq_some_iff.1 ha
    obtain ⟨hj', rfl⟩ := Array.getElem?_eq_some_iff.1 he
    exact (List.forall₂_iff_get.1 hedges).2 j hj hj'
  exact ⟨hjoins.directed, hjoins.width, hjoins.weight, (h.standsAt_iff hx _ _).1 hjoins.source,
    (h.standsAt_iff hx _ _).1 hjoins.target⟩

theorem Records.becomes (hf : d.Fits) (hx : g.Indexed) {i : Nat} {n : DescribedNode} {node : Node}
    (hn : d.nodes[i]? = some n) (hnode : g.nodes[i]? = some node) : n.Becomes i node := by
  have hmem : n ∈ d.nodes := List.mem_of_getElem? hn
  obtain ⟨hgeometry, hbare⟩ := h.node_at hn hnode
  have hrest := (n.misplacedField?_eq_none_iff).1 ((d.misfit?_eq_none_iff).1 hf.1 n hmem)
  refine ⟨hx.ids i node hnode, hgeometry, DescribedNode.kind_of_bare hbare, ⟨fun hk => (hrest.1 hk).1, ?_⟩, ?_⟩
  · intro hk
    cases hkind : n.kind with
    | regular => exact (hrest.1 hkind).2
    | entry => exact absurd hkind hk
    | exit => exact hrest.2 hkind
  · intro b v
    have hp : node.position = n.position := congrArg Geometry.position hgeometry
    rw [h.shares node (Array.mem_of_getElem? hnode), hp, Description.shareOf_calls (h.positions_nodup hx) hmem]

theorem Records.becomesBehavior (hl : Legal [] d.calls) (hx : g.Indexed) {asked : DescribedBehavior}
    (ha : asked ∈ d.behaviors) : ∃ b, g.behaviors.find? asked.id = some b ∧ d.BecomesBehavior asked b := by
  have hmem : (asked.id, asked.kind) ∈ History.behaviors d.calls := by
    rw [d.behaviors_calls]
    exact List.mem_map_of_mem ha
  obtain ⟨b, hfind, hkind⟩ := (h.behaviors asked.id asked.kind).2 hmem
  have hpoints (optional : Bool) (id : NodeId) :
      id ∈ (b.interests optional).ids ↔ ∃ c ∈ asked.points optional, d.Declares id c := by
    rw [h.interests asked.id b hfind]
    simp only [d.mem_interests_calls, h.standsAt_iff hx]
    -- A behavior with the same id is the same behavior, so no other one adds interest points to it.
    constructor
    · rintro ⟨c, ⟨other, ho, he, hc⟩, hd⟩
      exact ⟨c, Description.behavior_unique (Description.behaviorIds_nodup hl) ho ha he ▸ hc, hd⟩
    · rintro ⟨c, hc, hd⟩
      exact ⟨c, ⟨asked, ha, rfl, hc⟩, hd⟩
  exact ⟨b, hfind, h.keys asked.id b hfind, hkind, hpoints false, hpoints true⟩

/-- The record of a description is described by it. -/
theorem Records.describes (hf : d.Fits) (hx : g.Indexed) : d.Describes g where
  nodeCount := h.described_size
  nodes i n node hn hnode := h.becomes hf hx hn hnode
  declared id id' c hid hid' := hx.id_unique ((h.standsAt_iff hx id c).2 hid) ((h.standsAt_iff hx id' c).2 hid')
  edgeCount := by
    have hlength := h.edges.length_eq
    rw [d.edges_calls] at hlength
    simpa using hlength.symm
  edges j asked e ha he := h.becomesEdge hx ha he
  behaviorIds := by
    refine (List.perm_ext_iff_of_nodup g.behaviors.ids_nodup (Description.behaviorIds_nodup hf.2)).2 fun id => ?_
    rw [← h.mem_registered, d.registered_calls]
  behaviors asked ha := h.becomesBehavior hf.2 hx ha

end

end Graph

namespace Description

/-- A graph that `apply` hands over is the one that is described, and the builder holds no product any more. -/
theorem applyTo_describes {d : Description} {b : Builder} {g : Graph} (h : (d.applyTo b).1 = .ok g) :
    (d.applyTo b).2.product = none ∧ d.Describes g := by
  obtain ⟨hf, -, hnone, b', hh⟩ := holds_of_applyTo h
  exact ⟨hnone, hh.records.describes hf hh.indexed⟩

/-- A builder with another product at hand hands over the junction as it is described. -/
theorem applyTo_describes_junction :
    ∃ g, (junction.applyTo (Call.runAll Call.crossing {}).2).1 = .ok g ∧
      (junction.applyTo (Call.runAll Call.crossing {}).2).2.product = none ∧ junction.Describes g := by
  have hok : (junction.applyTo (Call.runAll Call.crossing {}).2).1.toBool = true := by decide +kernel
  obtain ⟨g, hg⟩ := (applyTo_toBool_iff _ _).1 hok
  exact ⟨g, hg, applyTo_describes hg⟩

end Description

end BeaconMap
