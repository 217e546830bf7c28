import BeaconMap.Proofs.Network.Soundness
/-!
# A record leaves nothing open

Two graphs that are records of the same calls have the same nodes, edges and behaviors (`Graph.Records.nodes_eq`,
`edges_eq`, `behaviors_eq`). The indexes of a graph follow from its nodes, since every builder fills them in the order
of the nodes (`Graph.Numbered`, `numbered_runAll`). So a graph is determined by its record, down to its indexes
(`Graph.Records.unique`).
-/

namespace BeaconMap

/-! ## Tables -/

/-- Tables that answer alike are equal. -/
theorem IdTable.ext_find? {α : Type} {s t : IdTable α} (h : ∀ k, s.find? k = t.find? k) : s = t := by
  have hentries : s.entries = t.entries := by
    refine s.sorted.eq_of_mem_iff t.sorted fun e => ?_
    rw [← IdTable.find?_eq_some_iff, ← IdTable.find?_eq_some_iff, h]
  obtain ⟨_, _⟩ := s
  obtain ⟨_, _⟩ := t
  cases hentries
  rfl

/-- Sets with the same ids are equal. -/
theorem IdSet.ext_ids {s t : IdSet} (h : ∀ k, k ∈ s.ids ↔ k ∈ t.ids) : s = t := by
  refine IdTable.ext_find? fun k => Option.ext fun _ => ?_
  have hk := h k
  rw [IdTable.mem_ids_iff, IdTable.mem_ids_iff] at hk
  exact ⟨fun hs => (hk.1 ⟨_, hs⟩).elim fun _ ht => ht, fun ht => (hk.2 ⟨_, ht⟩).elim fun _ hs => hs⟩

/-- A behavior is told by its id, its kind and its interest points. -/
theorem Behavior.ext_interests {a b : Behavior} (id : a.id = b.id) (kind : a.kind = b.kind)
    (interests : ∀ optional k, k ∈ (a.interests optional).ids ↔ k ∈ (b.interests optional).ids) : a = b := by
  have hcore : a.core = b.core := IdSet.ext_ids (interests false)
  have hoptional : a.optional = b.optional := IdSet.ext_ids (interests true)
  obtain ⟨_, _, _, _⟩ := a
  cases id
  cases kind
  cases hcore
  cases hoptional
  rfl

/-- A kind is told by what it is without shares, and by its shares. -/
theorem NodeKind.ext_bare {k k' : NodeKind} (bare : k.bare = k'.bare) (shares : k.shares = k'.shares) : k = k' := by
  cases k <;> cases k' <;> simp_all [NodeKind.bare, NodeKind.shares]

/-! ## Nodes, edges and behaviors -/

namespace Graph

/-- One street only joins two coordinates in the way that was asked for. -/
theorem Indexed.joins_rightUnique {g : Graph} (h : g.Indexed) : Relator.RightUnique g.Joins := by
  intro asked e e' he he'
  obtain ⟨_, _, _, _, _⟩ := e
  obtain ⟨_, _, _, _, _⟩ := e'
  rw [Edge.mk.injEq]
  exact ⟨he.directed.trans he'.directed.symm, h.id_unique he.source he'.source, h.id_unique he.target he'.target,
    he.width.trans he'.width.symm, he.weight.trans he'.weight.symm⟩

section
variable {g g' : Graph} {past : List Call} (h : g.Records past) (h' : g'.Records past) (hx : g.Indexed)
  (hx' : g'.Indexed)
include h h' hx hx'

theorem Records.nodes_eq : g.nodes = g'.nodes := by
  apply Array.ext
  · rw [h.size_eq, h'.size_eq]
  · intro i hi hi'
    have hn : g.nodes[i]? = some g.nodes[i] := Array.getElem?_eq_getElem hi
    have hn' : g'.nodes[i]? = some g'.nodes[i] := Array.getElem?_eq_getElem hi'
    -- Ids count the nodes; everything else of a node but its shares was asked for by one call.
    have hid : g.nodes[i].id = g'.nodes[i].id :=
      UInt32.toNat_inj.1 ((hx.ids i _ hn).trans (hx'.ids i _ hn').symm)
    have hasked : (g.nodes[i].geometry, g.nodes[i].kind.bare) = (g'.nodes[i].geometry, g'.nodes[i].kind.bare) := by
      have hall := congrArg (·[i]?) (h.nodes.trans h'.nodes.symm)
      simpa [hn, hn'] using hall
    obtain ⟨hgeometry, hbare⟩ := Prod.mk.inj hasked
    have hkind : g.nodes[i].kind = g'.nodes[i].kind := by
      refine NodeKind.ext_bare hbare (IdTable.ext_find? fun id => ?_)
      rw [h.shares _ (Array.mem_of_getElem? hn), h'.shares _ (Array.mem_of_getElem? hn'), Node.position, hgeometry]
      rfl
    exact (Node.mk.injEq ..).mpr ⟨hid, hgeometry, hkind⟩

theorem Records.standsAt_iff_of_records (id : NodeId) (c : Coordinate) : g.StandsAt id c ↔ g'.StandsAt id c := by
  rw [StandsAt, StandsAt, h.nodes_eq h' hx hx']

theorem Records.edges_eq : g.edges = g'.edges := by
  have hjoins : List.Forall₂ g.Joins (History.edges past) g'.edges.toList :=
    h'.edges_mono fun id c => (h.standsAt_iff_of_records h' hx hx' id c).2
  exact Array.toList_inj.1 (List.right_unique_forall₂' hx.joins_rightUnique h.edges hjoins)

theorem Records.behaviors_eq : g.behaviors = g'.behaviors := by
  refine IdTable.ext_find? fun id => ?_
  cases hb : g.behaviors.find? id with
  | none =>
    rw [IdTable.find?_eq_none_iff, ← h.mem_registered, h'.mem_registered, ← IdTable.find?_eq_none_iff] at hb
    exact hb.symm
  | some b =>
    obtain ⟨b', hb', hkind⟩ := (h'.behaviors id b.kind).2 ((h.behaviors id b.kind).1 ⟨b, hb, rfl⟩)
    have hsame : b = b' := by
      refine Behavior.ext_interests ((h.keys id b hb).trans (h'.keys id b' hb').symm) hkind.symm fun optional k => ?_
      rw [h.interests id b hb, h'.interests id b' hb']
      simp only [h.standsAt_iff_of_records h' hx hx']
    rw [hb', hsame]

end

/-! ## Indexes -/

/-- The index of a list of nodes, filled in their order. -/
def indexOf {κ : Type} [Ord κ] (key : Node → κ) (nodes : List Node) : Std.TreeMap κ Nat :=
  nodes.zipIdx.foldl (fun index entry => index.insert (key entry.1) entry.2) ∅

theorem indexOf_concat {κ : Type} [Ord κ] (key : Node → κ) (nodes : List Node) (n : Node) :
    indexOf key (nodes ++ [n]) = (indexOf key nodes).insert (key n) nodes.length := by
  rw [indexOf, List.zipIdx_append, List.foldl_append, Nat.zero_add, List.zipIdx_singleton, List.foldl_cons,
    List.foldl_nil, indexOf]

/-- Nodes may change where their key stays. -/
theorem indexOf_map {κ : Type} [Ord κ] {key : Node → κ} {f : Node → Node} (hf : ∀ n, key (f n) = key n)
    (nodes : List Node) : indexOf key (nodes.map f) = indexOf key nodes := by
  rw [indexOf, List.zipIdx_map, List.foldl_map, indexOf]
  simp only [Prod.map_fst, Prod.map_snd, id_eq, hf]

/-- The indexes were filled in the order of the nodes. -/
structure Numbered (g : Graph) : Prop where
  byId : g.placeById = indexOf Node.id g.nodes.toList
  byCoordinate : g.placeByCoordinate = indexOf Node.position g.nodes.toList

theorem numbered_empty : empty.Numbered := ⟨rfl, rfl⟩

section
variable {g : Graph} (h : g.Numbered)
include h

theorem Numbered.withNode (n : Node) : (g.withNode n).Numbered where
  byId := by
    rw [withNode_nodes, Array.toList_push, indexOf_concat, ← h.byId, Array.length_toList]
    rfl
  byCoordinate := by
    rw [withNode_nodes, Array.toList_push, indexOf_concat, ← h.byCoordinate, Array.length_toList]
    rfl

theorem Numbered.withEdge (e : Edge) : (g.withEdge e).Numbered := ⟨h.byId, h.byCoordinate⟩

theorem Numbered.withBehavior (id : BehaviorId) (b : Behavior) : (g.withBehavior id b).Numbered :=
  ⟨h.byId, h.byCoordinate⟩

theorem Numbered.withShare (c : Coordinate) (id : BehaviorId) (v : Binary64) : (g.withShare c id v).Numbered where
  byId := by
    rw [Graph.withShare, Array.toList_map, indexOf_map fun n => by split <;> rfl]
    exact h.byId
  byCoordinate := by
    rw [Graph.withShare, Array.toList_map, indexOf_map fun n => by split <;> rfl]
    exact h.byCoordinate

end

end Graph

/-- The indexes of the product, if there is one, were filled in the order of its nodes. -/
def Builder.Numbered (b : Builder) : Prop := ∀ g, b.product = some g → g.Numbered

namespace Call

theorem numbered_of_makes {b b' : Builder} {call : Call} {a : Answer} (h : b.Numbered) (hm : Makes b call a b') :
    b'.Numbered := by
  intro g' hg'
  cases hm with
  | start => cases hg'; exact Graph.numbered_empty
  | finalize => cases hg'
  | node _ holds => cases hg'; exact (h _ holds).withNode _
  | edge holds => cases hg'; exact (h _ holds).withEdge _
  | behavior holds | interest holds => cases hg'; exact (h _ holds).withBehavior _ _
  | share _ holds => cases hg'; exact (h _ holds).withShare _ _ _

theorem numbered_step {b : Builder} (hr : b.Recorded) (h : b.Numbered) (call : Call) : (call.step b).2.Numbered := by
  rcases step_cases hr call with ⟨e, he⟩ | ⟨a, b', hstep, hm⟩
  · rw [he]; exact h
  · rw [hstep]; exact numbered_of_makes h hm

theorem numbered_runAll (calls : List Call) {b : Builder} (hr : b.Recorded) (h : b.Numbered) :
    (runAll calls b).2.Numbered := by
  induction calls generalizing b with
  | nil => exact h
  | cons call rest ih => exact ih (recorded_step hr call) (numbered_step hr h call)

end Call

/-- A graph is determined by its record. -/
theorem Graph.Records.unique {g g' : Graph} {past : List Call} (h : g.Records past) (h' : g'.Records past)
    (hx : g.Indexed) (hx' : g'.Indexed) (hn : g.Numbered) (hn' : g'.Numbered) : g = g' := by
  have hnodes := h.nodes_eq h' hx hx'
  have hedges := h.edges_eq h' hx hx'
  have hbehaviors := h.behaviors_eq h' hx hx'
  have hbyId : g.placeById = g'.placeById := by rw [hn.byId, hn'.byId, hnodes]
  have hbyCoordinate : g.placeByCoordinate = g'.placeByCoordinate := by rw [hn.byCoordinate, hn'.byCoordinate, hnodes]
  obtain ⟨_, _, _, _, _⟩ := g
  rw [Graph.mk.injEq]
  exact ⟨hnodes, hbyId, hbyCoordinate, hedges, hbehaviors⟩

end BeaconMap
