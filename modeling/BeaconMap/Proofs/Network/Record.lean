import BeaconMap.Proofs.Network.History
/-!
# A product is the record of its calls

The calls that were made on a product tell every node, edge, behavior, interest point and share of it
(`Graph.Records`), and whether the next call succeeds: `Builder.Holds.run_of_fits` and
`Builder.Holds.run_of_not_fits` are the step, for a call that neither starts nor ends a product. So a run is
understood by looking at the list of its calls alone.
-/

namespace BeaconMap

open History

/-! ## What the graph holds -/

/-- The core or the optional interest points of a behavior. -/
def Behavior.interests (b : Behavior) (optional : Bool) : IdSet := if optional then b.optional else b.core

theorem Behavior.mem_interests_add (b : Behavior) (added optional : Bool) (n k : NodeId) :
    k ∈ ((b.addInterestPoint added n).interests optional).ids ↔
      optional = added ∧ k = n ∨ k ∈ (b.interests optional).ids := by
  cases added <;> cases optional <;> simp [Behavior.interests, Behavior.addInterestPoint]

@[simp] theorem Behavior.mem_interests_new (id : BehaviorId) (kind : BehaviorKind) (optional : Bool) :
    ((Behavior.new id kind).interests optional).ids = [] := by
  cases optional <;> rfl

@[simp] theorem Behavior.addInterestPoint_id (b : Behavior) (optional : Bool) (n : NodeId) :
    (b.addInterestPoint optional n).id = b.id := by
  cases optional <;> rfl

@[simp] theorem Behavior.addInterestPoint_kind (b : Behavior) (optional : Bool) (n : NodeId) :
    (b.addInterestPoint optional n).kind = b.kind := by
  cases optional <;> rfl

namespace Graph

/-- A node with this id stands at this coordinate. -/
def StandsAt (g : Graph) (id : NodeId) (position : Coordinate) : Prop :=
  ∃ n ∈ g.nodes, n.id = id ∧ n.position = position

theorem Indexed.position_unique {g : Graph} (h : g.Indexed) {id : NodeId} {c c' : Coordinate} (hc : g.StandsAt id c)
    (hc' : g.StandsAt id c') : c = c' := by
  obtain ⟨m, hm, hme, rfl⟩ := hc
  obtain ⟨n, hn, hne, rfl⟩ := hc'
  rw [h.byId.node_unique hm hn (hme.trans hne.symm)]

theorem Indexed.id_unique {g : Graph} (h : g.Indexed) {id id' : NodeId} {c : Coordinate} (hi : g.StandsAt id c)
    (hi' : g.StandsAt id' c) : id = id' := by
  obtain ⟨m, hm, rfl, hmp⟩ := hi
  obtain ⟨n, hn, rfl, hnp⟩ := hi'
  rw [h.byCoordinate.node_unique hm hn (hmp.trans hnp.symm)]

/-- The edge is the street that was asked for, between the nodes at its two coordinates. -/
structure Joins (g : Graph) (asked : DescribedEdge) (e : Edge) : Prop where
  directed : e.directed = asked.directed
  width : e.width = asked.width
  weight : e.weight = asked.weight
  source : g.StandsAt e.source asked.source
  target : g.StandsAt e.target asked.target

/-- The nodes, edges and behaviors of the graph are those that the calls `past` asked for. -/
structure Records (g : Graph) (past : List Call) : Prop where
  nodes : g.nodes.toList.map (fun n => (n.geometry, n.kind.bare)) = History.nodes past
  shares : ∀ n ∈ g.nodes, ∀ id, n.kind.shares.find? id = shareOf past n.position id
  edges : List.Forall₂ g.Joins (History.edges past) g.edges.toList
  behaviors : ∀ id kind, (∃ b, g.behaviors.find? id = some b ∧ b.kind = kind) ↔ (id, kind) ∈ History.behaviors past
  keys : ∀ id b, g.behaviors.find? id = some b → b.id = id
  interests : ∀ id b, g.behaviors.find? id = some b → ∀ optional node,
    node ∈ (b.interests optional).ids ↔ ∃ c, ⟨c, id, optional⟩ ∈ History.interests past ∧ g.StandsAt node c

theorem records_empty : empty.Records [] where
  nodes := rfl
  shares n hn := by simp [empty] at hn
  edges := .nil
  behaviors id kind := by simp [empty, History.behaviors]
  keys id b hb := by simp [empty] at hb
  interests id b hb := by simp [empty] at hb

section
variable {g : Graph} {past : List Call} (h : g.Records past)
include h

theorem Records.size_eq : g.nodes.size = (History.nodes past).length := by
  rw [← h.nodes]
  simp

theorem Records.mem_positions (c : Coordinate) : c ∈ positions past ↔ ∃ n ∈ g.nodes, n.position = c := by
  rw [positions, ← h.nodes, List.map_map]
  simp [Node.position]

theorem Records.mem_registered (id : BehaviorId) : id ∈ registered past ↔ id ∈ g.behaviors.ids := by
  rw [History.mem_registered, IdTable.mem_ids_iff]
  simp only [← h.behaviors]
  exact ⟨fun ⟨_, b, hb, _⟩ => ⟨b, hb⟩, fun ⟨b, hb⟩ => ⟨b.kind, b, hb, rfl⟩⟩

theorem Records.takes_iff (c : Coordinate) (generated : Bool) :
    Takes past c generated ↔ ∃ n ∈ g.nodes, n.position = c ∧ n.kind.Takes generated := by
  rw [Takes, ← h.nodes]
  simp [Node.position]

end

end Graph

/-! ## One more call -/

/-! A call adds to one list only. -/

section
variable {call : Call} (past : List Call)

attribute [local simp] nodes edges behaviors interests shares Call.node? Call.edge? Call.behavior? Call.interest?
  Call.share?

theorem Call.adds_node {x : Geometry × NodeKind} (h : call.node? = some x) :
    nodes (past ++ [call]) = nodes past ++ [x] ∧ edges (past ++ [call]) = edges past ∧
      behaviors (past ++ [call]) = behaviors past ∧ interests (past ++ [call]) = interests past ∧
      shares (past ++ [call]) = shares past := by
  cases call <;> cases h <;> simp

theorem Call.adds_edge {e : DescribedEdge} (h : call.edge? = some e) :
    nodes (past ++ [call]) = nodes past ∧ edges (past ++ [call]) = edges past ++ [e] ∧
      behaviors (past ++ [call]) = behaviors past ∧ interests (past ++ [call]) = interests past ∧
      shares (past ++ [call]) = shares past := by
  cases call <;> cases h
  simp

theorem Call.adds_behavior {x : BehaviorId × BehaviorKind} (h : call.behavior? = some x) :
    nodes (past ++ [call]) = nodes past ∧ edges (past ++ [call]) = edges past ∧
      behaviors (past ++ [call]) = behaviors past ++ [x] ∧ interests (past ++ [call]) = interests past ∧
      shares (past ++ [call]) = shares past := by
  cases call <;> cases h
  simp

theorem Call.adds_interest {i : Interest} (h : call.interest? = some i) :
    nodes (past ++ [call]) = nodes past ∧ edges (past ++ [call]) = edges past ∧
      behaviors (past ++ [call]) = behaviors past ∧ interests (past ++ [call]) = interests past ++ [i] ∧
      shares (past ++ [call]) = shares past := by
  cases call <;> cases h
  simp

theorem Call.adds_share {s : Share} (h : call.share? = some s) :
    nodes (past ++ [call]) = nodes past ∧ edges (past ++ [call]) = edges past ∧
      behaviors (past ++ [call]) = behaviors past ∧ interests (past ++ [call]) = interests past ∧
      shares (past ++ [call]) = shares past ++ [s] := by
  cases call <;> cases h <;> simp

end

namespace Graph

theorem standsAt_withNode (g : Graph) (n : Node) (id : NodeId) (c : Coordinate) :
    (g.withNode n).StandsAt id c ↔ g.StandsAt id c ∨ n.id = id ∧ n.position = c := by
  simp [StandsAt, or_and_right, exists_or]

theorem standsAt_withShare (g : Graph) (position : Coordinate) (b : BehaviorId) (v : Binary64) (id : NodeId)
    (c : Coordinate) : (g.withShare position b v).StandsAt id c ↔ g.StandsAt id c := by
  simp only [StandsAt, withShare, Array.mem_map]
  constructor
  · rintro ⟨_, ⟨n, hn, rfl⟩, hid, hc⟩
    split at hid <;> split at hc <;> exact ⟨n, hn, hid, hc⟩
  · rintro ⟨n, hn, hid, hc⟩
    refine ⟨_, ⟨n, hn, rfl⟩, ?_, ?_⟩ <;> split <;> assumption

section
variable {g : Graph} {past : List Call} (h : g.Records past) (hl : Legal [] past)
include h

/-- The edges join the same coordinates in every graph where the nodes still stand. -/
theorem Records.edges_mono {g' : Graph} (hst : ∀ id c, g.StandsAt id c → g'.StandsAt id c) :
    List.Forall₂ g'.Joins (History.edges past) g.edges.toList :=
  h.edges.imp fun _ _ hj => { hj with source := hst _ _ hj.source, target := hst _ _ hj.target }

include hl in
theorem Records.withNode {call : Call} {geometry : Geometry} {kind : NodeKind} {id : NodeId}
    (asks : call.node? = some (geometry, kind)) (hfree : ∀ n ∈ g.nodes, n.position ≠ geometry.position) :
    (g.withNode ⟨id, geometry, kind⟩).Records (past ++ [call]) := by
  obtain ⟨hn, he, hb, hi, hs⟩ := Call.adds_node past asks
  have hbare : kind.bare = kind ∧ kind.shares = .empty := by
    cases call <;> simp only [Call.node?, Option.some.injEq, Prod.mk.injEq, reduceCtorEq] at asks <;>
      obtain ⟨-, rfl⟩ := asks <;> exact ⟨rfl, rfl⟩
  have hnew : geometry.position ∉ positions past := by
    rw [h.mem_positions]
    rintro ⟨n, hn, hp⟩
    exact hfree n hn hp
  constructor
  · rw [hn, withNode_nodes, Array.toList_push, List.map_append, h.nodes]
    simp [hbare.1]
  · intro n hm b
    rw [shareOf_congr hs]
    rcases Array.mem_push.1 hm with hm | rfl
    · exact h.shares n hm b
    · -- No share was asked for at the new coordinate: it would have needed a node there.
      rw [hbare.2, IdTable.find?_empty, shareOf_eq_none]
      intro s hsp hp
      have hmem := (hl.share hsp).1
      rw [hp] at hmem
      exact absurd hmem hnew
  · rw [he]
    exact h.edges_mono fun _ _ hst => (standsAt_withNode ..).2 (.inl hst)
  · rw [hb]
    exact h.behaviors
  · exact h.keys
  · intro b found hf optional node
    rw [h.interests b found hf, hi]
    refine exists_congr fun c => and_congr_right fun hc => ?_
    rw [standsAt_withNode]
    -- Nor was an interest point asked for there.
    constructor
    · exact .inl
    · rintro (hst | ⟨-, hp⟩)
      · exact hst
      · have hmem := (hl.interest hc).1
        rw [← hp] at hmem
        exact absurd hmem hnew

theorem Records.withEdge {call : Call} {asked : DescribedEdge} {e : Edge} (asks : call.edge? = some asked)
    (hj : g.Joins asked e) : (g.withEdge e).Records (past ++ [call]) := by
  obtain ⟨hn, he, hb, hi, hs⟩ := Call.adds_edge past asks
  constructor
  · rw [hn]
    exact h.nodes
  · intro n hm b
    rw [shareOf_congr hs]
    exact h.shares n hm b
  · rw [he, withEdge_edges, Array.toList_push]
    have hj' : (g.withEdge e).Joins asked e := { hj with source := hj.source, target := hj.target }
    have hold : List.Forall₂ (g.withEdge e).Joins (History.edges past) g.edges.toList :=
      h.edges_mono fun _ _ hst => hst
    exact List.rel_append hold (.cons hj' .nil)
  · rw [hb]
    exact h.behaviors
  · exact h.keys
  · rw [hi]
    exact h.interests

include hl in
theorem Records.withNewBehavior {call : Call} {id : BehaviorId} {kind : BehaviorKind}
    (asks : call.behavior? = some (id, kind)) (hnew : id ∉ g.behaviors.ids) :
    (g.withBehavior id (.new id kind)).Records (past ++ [call]) := by
  obtain ⟨hn, he, hb, hi, hs⟩ := Call.adds_behavior past asks
  have hreg : id ∉ registered past := by rwa [h.mem_registered]
  constructor
  · rw [hn]
    exact h.nodes
  · intro n hm b
    rw [shareOf_congr hs]
    exact h.shares n hm b
  · rw [he]
    exact h.edges_mono fun _ _ hst => hst
  · intro k kind'
    rw [hb, List.mem_append, List.mem_singleton, withBehavior_behaviors, IdTable.find?_insert,
      ← h.behaviors]
    by_cases hk : k = id
    · subst hk
      rw [(g.behaviors.find?_eq_none_iff k).2 hnew]
      simp [Behavior.new, eq_comm]
    · simp [hk]
  · intro k b hf
    rw [withBehavior_behaviors, IdTable.find?_insert] at hf
    split at hf
    · cases hf
      exact Eq.symm ‹_›
    · exact h.keys k b hf
  · intro k b hf optional node
    rw [withBehavior_behaviors, IdTable.find?_insert] at hf
    rw [hi]
    split at hf
    · rename_i hk
      cases hf
      subst hk
      simp only [Behavior.mem_interests_new, List.not_mem_nil, false_iff]
      -- The behavior is new, so that none of its interest points was asked for before.
      rintro ⟨c, hc, -⟩
      exact hreg (hl.interest hc).2
    · exact h.interests k b hf optional node

theorem Records.withInterest (hx : g.Indexed) {call : Call} {n : Node} {id : BehaviorId} {found : Behavior}
    {optional : Bool} (asks : call.interest? = some ⟨n.position, id, optional⟩) (hn : n ∈ g.nodes)
    (hf : g.behaviors.find? id = some found) :
    (g.withBehavior id (found.addInterestPoint optional n.id)).Records (past ++ [call]) := by
  obtain ⟨hno, he, hb, hi, hs⟩ := Call.adds_interest past asks
  have hat : ∀ node, g.StandsAt node n.position ↔ node = n.id := by
    intro node
    have hself : g.StandsAt n.id n.position := ⟨n, hn, rfl, rfl⟩
    constructor
    · exact fun hst => hx.id_unique hst hself
    · rintro rfl
      exact hself
  constructor
  · rw [hno]
    exact h.nodes
  · intro m hm b
    rw [shareOf_congr hs]
    exact h.shares m hm b
  · rw [he]
    exact h.edges_mono fun _ _ hst => hst
  · intro k kind
    rw [hb, ← h.behaviors, withBehavior_behaviors, IdTable.find?_insert]
    by_cases hk : k = id
    · simp [hk, hf]
    · simp [hk]
  · intro k b hb
    rw [withBehavior_behaviors, IdTable.find?_insert] at hb
    split at hb
    · rename_i hk
      cases hb
      rw [Behavior.addInterestPoint_id, h.keys id found hf, hk]
    · exact h.keys k b hb
  · intro k b hb o node
    rw [withBehavior_behaviors, IdTable.find?_insert] at hb
    rw [hi]
    simp only [List.mem_append, List.mem_singleton, Interest.mk.injEq]
    split at hb
    · rename_i hk
      cases hb
      subst hk
      rw [Behavior.mem_interests_add, h.interests k found hf]
      constructor
      · rintro (⟨rfl, rfl⟩ | ⟨c, hc, hst⟩)
        · exact ⟨n.position, .inr ⟨rfl, rfl, rfl⟩, (hat _).2 rfl⟩
        · exact ⟨c, .inl hc, hst⟩
      · rintro ⟨c, hc | ⟨rfl, -, rfl⟩, hst⟩
        · exact .inr ⟨c, hc, hst⟩
        · exact .inl ⟨rfl, (hat _).1 hst⟩
    · rename_i hk
      rw [h.interests k b hb]
      refine exists_congr fun c => and_congr_left fun _ => ?_
      simp [hk]

theorem Records.withShare (hx : g.Indexed) {call : Call} {s : Share} {n : Node} (asks : call.share? = some s)
    (hn : n ∈ g.nodes) (hp : n.position = s.position) (ht : n.kind.Takes s.generated) :
    (g.withShare s.position s.behavior s.percentage).Records (past ++ [call]) := by
  obtain ⟨hno, he, hb, hi, hs⟩ := Call.adds_share past asks
  constructor
  · rw [hno, ← h.nodes, Graph.withShare, Array.toList_map, List.map_map]
    refine List.map_congr_left fun m _ => ?_
    simp only [Function.comp_apply]
    split <;> simp
  · intro m' hm' b
    rw [shareOf_of_shares_append hs]
    obtain ⟨m, hm, rfl⟩ := Array.mem_map.1 hm'
    -- The share goes to the node at the coordinate, and the record of every other node says the same as before.
    by_cases hmp : m.position = s.position
    · obtain rfl := hx.byCoordinate.node_unique hm hn (hmp.trans hp.symm)
      rw [if_pos hmp, Node.withShare_kind, NodeKind.shares_setShare ht, IdTable.find?_insert, h.shares m hm,
        Node.withShare_position]
      simp [hmp, eq_comm]
    · rw [if_neg hmp, if_neg fun hc => hmp hc.1.symm, h.shares m hm]
  · rw [he]
    exact h.edges_mono fun _ _ hst => (standsAt_withShare ..).2 hst
  · rw [hb]
    exact h.behaviors
  · exact h.keys
  · rw [hi]
    simp only [standsAt_withShare]
    exact h.interests

end

end Graph

/-! ## The step -/

/-- The builder's product is `g`, made by the calls `past`, and its counter is the number of nodes, in 32 bits. -/
structure Builder.Holds (b : Builder) (g : Graph) (past : List Call) : Prop where
  product : b.product = some g
  nextId : b.nextId = UInt32.ofNat g.nodes.size
  indexed : g.Indexed
  records : g.Records past
  legal : Legal [] past

/-- The next id is free while there are ids left. -/
theorem Graph.Indexed.fresh_iff {g : Graph} (h : g.Indexed) :
    (∀ n ∈ g.nodes, n.id ≠ UInt32.ofNat g.nodes.size) ↔ g.nodes.size < 2 ^ 32 := by
  constructor
  · intro hfresh
    by_contra hge
    have hsize : g.nodes.size = 2 ^ 32 := by have := h.size_le; omega
    have hn : g.nodes[0]? = some g.nodes[0] := Array.getElem?_eq_getElem (by omega)
    refine hfresh _ (Array.mem_of_getElem? hn) (UInt32.toNat_inj.1 ?_)
    -- The counter has come round to 0, the id of the first node.
    rw [h.ids 0 _ hn, hsize]
    rfl
  · intro hlt n hn he
    have hid := h.id_lt hn
    rw [he, UInt32.toNat_ofNat_of_lt' hlt] at hid
    omega

namespace Builder.Holds

variable {b : Builder} {g : Graph} {past : List Call} (h : b.Holds g past)
include h

theorem product_unique {p : Graph} (holds : b.product = some p) : g = p :=
  Option.some.inj (h.product.symm.trans holds)

theorem indexed_builder : b.Indexed := by
  intro p hp
  obtain rfl := h.product_unique hp
  exact h.indexed

/-- What succeeds on the product fits its record. -/
theorem fits_of_makes {call : Call} {a : Answer} {b' : Builder} (hm : Call.Makes b call a b') (hs : call ≠ .start)
    (hf : call ≠ .finalize) : call.Fits past := by
  cases hm with
  | start => exact absurd rfl hs
  | finalize => exact absurd rfl hf
  | node asks holds valid rate free fresh =>
    obtain rfl := h.product_unique holds
    refine (Call.fits_node_iff past asks).2 ⟨⟨valid, ?_, ?_⟩, rate⟩
    · rw [h.records.mem_positions]
      rintro ⟨n, hn, hp⟩
      exact free n hn hp
    · rw [← h.records.size_eq, ← h.indexed.fresh_iff, ← h.nextId]
      exact fresh
  | edge holds source target wide weighs =>
    obtain rfl := h.product_unique holds
    exact ⟨(h.records.mem_positions _).2 ⟨_, source, rfl⟩, (h.records.mem_positions _).2 ⟨_, target, rfl⟩, wide, weighs⟩
  | behavior holds fresh =>
    obtain rfl := h.product_unique holds
    exact fun hr => fresh ((h.records.mem_registered _).1 hr)
  | interest holds stands registered =>
    obtain rfl := h.product_unique holds
    exact ⟨(h.records.mem_positions _).2 ⟨_, stands, rfl⟩,
      (h.records.mem_registered _).2 ((IdTable.mem_ids_iff _ _).2 ⟨_, registered⟩)⟩
  | share asks holds registered valid stands here takes =>
    obtain rfl := h.product_unique holds
    exact (Call.fits_share_iff past asks).2
      ⟨(h.records.mem_registered _).2 registered, valid, (h.records.takes_iff _ _).2 ⟨_, stands, here, takes⟩⟩

/-- What fits the record succeeds on the product. -/
theorem makes_of_fits {call : Call} (hfits : call.Fits past) : ∃ a b', Call.Makes b call a b' := by
  have hnode {geometry : Geometry} {kind : NodeKind} (asks : call.node? = some (geometry, kind)) :
      ∃ a b', Call.Makes b call a b' := by
    obtain ⟨⟨hv, hfree, hroom⟩, hrate⟩ := (Call.fits_node_iff past asks).1 hfits
    refine ⟨_, _, .node asks h.product hv hrate ?_ ?_⟩
    · intro n hn hp
      exact hfree ((h.records.mem_positions _).2 ⟨n, hn, hp⟩)
    · rw [h.nextId, h.indexed.fresh_iff, h.records.size_eq]
      exact hroom
  have hshare {s : Share} (asks : call.share? = some s) : ∃ a b', Call.Makes b call a b' := by
    obtain ⟨hreg, hv, ht⟩ := (Call.fits_share_iff past asks).1 hfits
    obtain ⟨n, hn, hp, ht⟩ := (h.records.takes_iff _ _).1 ht
    exact ⟨_, _, .share asks h.product ((h.records.mem_registered _).1 hreg) hv hn hp ht⟩
  cases call with
  | start | finalize => exact hfits.elim
  | regularNode _ | entryPoint _ _ | exitPoint _ _ => exact hnode rfl
  | generated _ _ _ | absorbed _ _ _ => exact hshare rfl
  | street directed source target width weight =>
    obtain ⟨hs, ht, hw, hwt⟩ := hfits
    obtain ⟨m, hm, rfl⟩ := (h.records.mem_positions _).1 hs
    obtain ⟨n, hn, rfl⟩ := (h.records.mem_positions _).1 ht
    exact ⟨_, _, .edge h.product hm hn hw hwt⟩
  | behavior id kind => exact ⟨_, _, .behavior h.product (fun hr => hfits ((h.records.mem_registered id).2 hr))⟩
  | interestPoint position id optional =>
    obtain ⟨n, hn, rfl⟩ := (h.records.mem_positions _).1 hfits.1
    obtain ⟨found, hf⟩ := (IdTable.mem_ids_iff _ _).1 ((h.records.mem_registered id).1 hfits.2)
    exact ⟨_, _, .interest h.product hn hf⟩

/-- A call that succeeds is added to the record. -/
theorem after {call : Call} {a : Answer} {b' : Builder} (hm : Call.Makes b call a b') (hs : call ≠ .start)
    (hf : call ≠ .finalize) : ∃ g', b'.Holds g' (past ++ [call]) := by
  have hlegal : Legal [] (past ++ [call]) := by
    rw [legal_append, legal_singleton]
    exact ⟨h.legal, h.fits_of_makes hm hs hf⟩
  cases hm with
  | start => exact absurd rfl hs
  | finalize => exact absurd rfl hf
  | @node _ p geometry kind asks holds valid rate free fresh =>
    obtain rfl := h.product_unique holds
    have hroom : g.nodes.size < 2 ^ 32 := by
      rw [← h.indexed.fresh_iff, ← h.nextId]
      exact fresh
    have hid : b.nextId.toNat = g.nodes.size := by rw [h.nextId, UInt32.toNat_ofNat_of_lt' hroom]
    refine ⟨_, rfl, ?_, h.indexed.withNode hid free, h.records.withNode h.legal asks free, hlegal⟩
    simp [h.nextId]
  | @edge p m n directed width weight holds source target wide weighs =>
    obtain rfl := h.product_unique holds
    exact ⟨_, rfl, h.nextId, h.indexed.withEdge _,
      h.records.withEdge rfl ⟨rfl, rfl, rfl, ⟨m, source, rfl, rfl⟩, ⟨n, target, rfl, rfl⟩⟩, hlegal⟩
  | @behavior p id kind holds fresh =>
    obtain rfl := h.product_unique holds
    exact ⟨_, rfl, h.nextId, h.indexed.withBehavior _ _, h.records.withNewBehavior h.legal rfl fresh, hlegal⟩
  | @interest p n id found optional holds stands registered =>
    obtain rfl := h.product_unique holds
    exact ⟨_, rfl, h.nextId, h.indexed.withBehavior _ _, h.records.withInterest h.indexed rfl stands registered, hlegal⟩
  | @share _ p s n asks holds registered valid stands here takes =>
    obtain rfl := h.product_unique holds
    refine ⟨_, rfl, ?_, h.indexed.withShare _ _ _, h.records.withShare h.indexed asks stands here takes, hlegal⟩
    simp [h.nextId, Graph.withShare]

/-- A call that fits succeeds and is added to the record. -/
theorem run_of_fits {call : Call} (hfits : call.Fits past) :
    ∃ a b' g', call.run b = .ok a b' ∧ b'.Holds g' (past ++ [call]) := by
  obtain ⟨a, b', hm⟩ := h.makes_of_fits hfits
  obtain ⟨g', hg'⟩ := h.after hm (by rintro rfl; exact hfits) (by rintro rfl; exact hfits)
  exact ⟨a, b', g', (Call.run_eq_ok_iff h.indexed_builder _ _ _).2 hm, hg'⟩

/-- A call that does not fit fails and changes nothing. -/
theorem run_of_not_fits {call : Call} (hfits : ¬ call.Fits past) (hs : call ≠ .start) (hf : call ≠ .finalize) :
    ∃ e, call.run b = .error e b := by
  cases hrun : call.run b with
  | ok a b' => exact absurd (h.fits_of_makes ((Call.run_eq_ok_iff h.indexed_builder _ _ _).1 hrun) hs hf) hfits
  | error e b' =>
    rw [Call.run_error call b e b' hrun]
    exact ⟨e, rfl⟩

end Builder.Holds

/-- A new product is the record of no calls. -/
theorem Builder.holds_start : Builder.Holds { product := some .empty, nextId := 0 } .empty [] :=
  ⟨rfl, rfl, Graph.indexed_empty, Graph.records_empty, trivial⟩

end BeaconMap
