import BeaconMap.Network.Graph
import BeaconMap.Proofs.Network.Validity
/-!
# The indexes of a graph

The two indexes of a graph lead to the places where a scan of its nodes would find an id or a coordinate
(`Graph.Indexed`). In such a graph each operation succeeds exactly when the nodes, edges and behaviors allow it,
and says so without mentioning an index.
-/

namespace BeaconMap

instance : Std.TransOrd Coordinate :=
  inferInstanceAs (Std.TransCmp (compareLex (compareOn Coordinate.x) (compareOn Coordinate.y)))

instance : Std.LawfulEqOrd Coordinate where
  eq_of_compare {a b} h := by
    obtain ⟨hx, hy⟩ := compareLex_eq_eq.1 h
    obtain ⟨ax, ay⟩ := a
    obtain ⟨bx, by'⟩ := b
    rw [Coordinate.mk.injEq]
    exact ⟨Std.LawfulEqOrd.eq_of_compare hx, Std.LawfulEqOrd.eq_of_compare hy⟩

/-! ## Steps that may fail -/

section
variable {ε α β : Type}

instance exceptDecidableEq [DecidableEq ε] [DecidableEq α] : DecidableEq (Except ε α)
  | .ok a, .ok b => decidable_of_iff (a = b) (by rw [Except.ok.injEq])
  | .error e, .error e' => decidable_of_iff (e = e') (by rw [Except.error.injEq])
  | .ok _, .error _ => isFalse nofun
  | .error _, .ok _ => isFalse nofun

/-- A sequence succeeds exactly when its first part does and what follows does with its answer. -/
theorem bind_eq_ok_iff (x : Except ε α) (f : α → Except ε β) (b : β) :
    (x >>= f) = .ok b ↔ ∃ a, x = .ok a ∧ f a = .ok b := by
  cases x <;> simp [bind, Except.bind]

theorem bind_eq_error_iff (x : Except ε α) (f : α → Except ε β) (e : ε) :
    (x >>= f) = .error e ↔ x = .error e ∨ ∃ a, x = .ok a ∧ f a = .error e := by
  cases x <;> simp [bind, Except.bind]

theorem mapError_eq_ok_iff {ε' : Type} (f : ε → ε') (x : Except ε α) (a : α) :
    x.mapError f = .ok a ↔ x = .ok a := by
  cases x <;> simp [Except.mapError]

theorem mapError_eq_error_iff {ε' : Type} (f : ε → ε') (x : Except ε α) (e' : ε') :
    x.mapError f = .error e' ↔ ∃ e, x = .error e ∧ f e = e' := by
  cases x <;> simp [Except.mapError]

theorem ite_error_eq_ok_iff {p : Prop} [Decidable p] (e : ε) (x : Except ε α) (a : α) :
    (if p then .error e else x) = .ok a ↔ ¬ p ∧ x = .ok a := by
  split <;> simp_all

end

namespace Graph

/-- An index leads from the key of a node to its place, and nowhere from any other key. -/
def Leads {κ : Type} [Ord κ] (index : Std.TreeMap κ Nat) (nodes : Array Node) (key : Node → κ) : Prop :=
  ∀ (k : κ) (i : Nat), index[k]? = some i ↔ ∃ n, nodes[i]? = some n ∧ key n = k

/-- Ids count the nodes in order, and both indexes lead to the places of the nodes. -/
structure Indexed (g : Graph) : Prop where
  ids : ∀ (i : Nat) (n : Node), g.nodes[i]? = some n → n.id.toNat = i
  byId : Leads g.placeById g.nodes Node.id
  byCoordinate : Leads g.placeByCoordinate g.nodes Node.position

theorem indexed_empty : empty.Indexed where
  ids i n h := by simp [empty] at h
  byId id i := by simp [empty]
  byCoordinate c i := by simp [empty]

section
variable {κ : Type} [Ord κ] {index : Std.TreeMap κ Nat} {nodes : Array Node} {key : Node → κ}

theorem Leads.contains_iff [Std.TransOrd κ] (h : Leads index nodes key) (k : κ) :
    index.contains k = true ↔ ∃ n ∈ nodes, key n = k := by
  rw [Std.TreeMap.contains_eq_isSome_getElem?, Option.isSome_iff_exists]
  simp only [h k, Array.mem_iff_getElem?]
  exact ⟨fun ⟨i, n, hn, hk⟩ => ⟨n, ⟨i, hn⟩, hk⟩, fun ⟨n, ⟨i, hn⟩, hk⟩ => ⟨i, n, hn, hk⟩⟩

theorem Leads.place_unique (h : Leads index nodes key) {i j : Nat} {m n : Node} (hm : nodes[i]? = some m)
    (hn : nodes[j]? = some n) (he : key m = key n) : i = j := by
  have hi := (h (key n) i).2 ⟨m, hm, he⟩
  have hj := (h (key n) j).2 ⟨n, hn, rfl⟩
  rw [hi] at hj
  exact Option.some.inj hj

/-- No two nodes share a key. -/
theorem Leads.node_unique (h : Leads index nodes key) {m n : Node} (hm : m ∈ nodes) (hn : n ∈ nodes)
    (he : key m = key n) : m = n := by
  obtain ⟨i, hi⟩ := Array.mem_iff_getElem?.1 hm
  obtain ⟨j, hj⟩ := Array.mem_iff_getElem?.1 hn
  rw [h.place_unique hi hj he, hj] at hi
  exact (Option.some.inj hi).symm

/-- An index answers with the nodes of a key. -/
theorem Leads.lookup_eq_some_iff (h : Leads index nodes key) (k : κ) (n : Node) :
    index[k]?.bind (nodes[·]?) = some n ↔ n ∈ nodes ∧ key n = k := by
  rw [Option.bind_eq_some_iff]
  simp only [h k, Array.mem_iff_getElem?]
  constructor
  · rintro ⟨i, ⟨m, hm, hk⟩, hn⟩
    rw [hm] at hn
    cases hn
    exact ⟨⟨i, hm⟩, hk⟩
  · rintro ⟨⟨i, hn⟩, hk⟩
    exact ⟨i, ⟨n, hn, hk⟩, hn⟩

/-- Adding a node with a new key at the end. -/
theorem Leads.push [Std.TransOrd κ] [Std.LawfulEqOrd κ] (h : Leads index nodes key) {n : Node}
    (hfree : ∀ m ∈ nodes, key m ≠ key n) : Leads (index.insert (key n) nodes.size) (nodes.push n) key := by
  intro k i
  rw [Std.TreeMap.getElem?_insert]
  by_cases hc : compare (key n) k = .eq
  · have he : key n = k := Std.LawfulEqOrd.eq_of_compare hc
    rw [if_pos hc, Option.some.injEq]
    constructor
    · rintro rfl
      exact ⟨n, by simp, he⟩
    · rintro ⟨m, hm, hk⟩
      rw [Array.getElem?_push] at hm
      split at hm
      · rename_i hi
        exact hi.symm
      · exact absurd (hk.trans he.symm) (hfree m (Array.mem_of_getElem? hm))
  · have he : key n ≠ k := fun he => hc (Std.LawfulEqOrd.compare_eq_iff_eq.2 he)
    rw [if_neg hc, h k i]
    constructor
    · rintro ⟨m, hm, hk⟩
      have hi := (Array.getElem?_eq_some_iff.1 hm).1
      exact ⟨m, by rw [Array.getElem?_push, if_neg (by omega), hm], hk⟩
    · rintro ⟨m, hm, hk⟩
      rw [Array.getElem?_push] at hm
      split at hm
      · cases hm
        exact absurd hk he
      · exact ⟨m, hm, hk⟩

/-- Changing nodes in place, each with its key kept. -/
theorem Leads.map (h : Leads index nodes key) {f : Node → Node} (hf : ∀ n, key (f n) = key n) :
    Leads index (nodes.map f) key := by
  intro k i
  rw [h k i, Array.getElem?_map]
  cases nodes[i]? with
  | none => simp
  | some m => simp [hf]

end

/-! ## What the indexes say -/

section
variable {g : Graph} (h : g.Indexed)
include h

theorem Indexed.id_lt {n : Node} (hn : n ∈ g.nodes) : n.id.toNat < g.nodes.size := by
  obtain ⟨i, hi⟩ := Array.mem_iff_getElem?.1 hn
  rw [h.ids i n hi]
  exact (Array.getElem?_eq_some_iff.1 hi).1

/-- Ids are dense, so there are no more nodes than ids. -/
theorem Indexed.size_le : g.nodes.size ≤ 2 ^ 32 := by
  by_contra hlt
  obtain ⟨n, hn⟩ : ∃ n, g.nodes[2 ^ 32]? = some n := by
    exact ⟨_, Array.getElem?_eq_getElem (by omega)⟩
  have hid := h.ids _ n hn
  have := n.id.toNat_lt
  omega

theorem Indexed.lookup_eq_some_iff (c : Coordinate) (n : Node) :
    g.placeByCoordinate[c]?.bind (g.nodes[·]?) = some n ↔ n ∈ g.nodes ∧ n.position = c :=
  h.byCoordinate.lookup_eq_some_iff c n

theorem Indexed.nodeAt_eq_ok_iff (c : Coordinate) (n : Node) :
    g.nodeAt c = .ok n ↔ n ∈ g.nodes ∧ n.position = c := by
  rw [← h.lookup_eq_some_iff, nodeAt]
  cases g.placeByCoordinate[c]?.bind (g.nodes[·]?) <;> simp

theorem Indexed.node_eq_ok_iff (id : NodeId) (n : Node) : g.node id = .ok n ↔ n ∈ g.nodes ∧ n.id = id := by
  rw [← h.byId.lookup_eq_some_iff, node]
  cases g.placeById[id]?.bind (g.nodes[·]?) <;> simp

end

theorem behavior_eq_ok_iff (g : Graph) (id : BehaviorId) (b : Behavior) :
    g.behavior id = .ok b ↔ g.behaviors.find? id = some b := by
  rw [behavior]
  cases g.behaviors.find? id <;> simp

/-! ## What the operations do -/

/-- The graph with one more node, at the end. -/
def withNode (g : Graph) (node : Node) : Graph :=
  { g with
    nodes := g.nodes.push node
    placeById := g.placeById.insert node.id g.nodes.size
    placeByCoordinate := g.placeByCoordinate.insert node.position g.nodes.size }

/-- The graph with one more edge, at the end. -/
def withEdge (g : Graph) (edge : Edge) : Graph := { g with edges := g.edges.push edge }

/-- The graph with a behavior under an id, over the one it had there. -/
def withBehavior (g : Graph) (id : BehaviorId) (behavior : Behavior) : Graph :=
  { g with behaviors := g.behaviors.insert id behavior }

/-- The graph with a share set at a node, which is told by its coordinate. -/
def withShare (g : Graph) (position : Coordinate) (id : BehaviorId) (percentage : Binary64) : Graph :=
  { g with nodes := g.nodes.map fun n => if n.position = position then n.withShare id percentage else n }

section
variable (g : Graph)

@[simp] theorem withNode_nodes (n : Node) : (g.withNode n).nodes = g.nodes.push n := rfl
@[simp] theorem withNode_edges (n : Node) : (g.withNode n).edges = g.edges := rfl
@[simp] theorem withNode_behaviors (n : Node) : (g.withNode n).behaviors = g.behaviors := rfl
@[simp] theorem withEdge_nodes (e : Edge) : (g.withEdge e).nodes = g.nodes := rfl
@[simp] theorem withEdge_edges (e : Edge) : (g.withEdge e).edges = g.edges.push e := rfl
@[simp] theorem withEdge_behaviors (e : Edge) : (g.withEdge e).behaviors = g.behaviors := rfl
@[simp] theorem withBehavior_nodes (id : BehaviorId) (b : Behavior) : (g.withBehavior id b).nodes = g.nodes := rfl
@[simp] theorem withBehavior_edges (id : BehaviorId) (b : Behavior) : (g.withBehavior id b).edges = g.edges := rfl
@[simp] theorem withBehavior_behaviors (id : BehaviorId) (b : Behavior) :
    (g.withBehavior id b).behaviors = g.behaviors.insert id b := rfl
@[simp] theorem withShare_edges (c : Coordinate) (id : BehaviorId) (v : Binary64) :
    (g.withShare c id v).edges = g.edges := rfl
@[simp] theorem withShare_behaviors (c : Coordinate) (id : BehaviorId) (v : Binary64) :
    (g.withShare c id v).behaviors = g.behaviors := rfl
end

theorem addBehavior_eq_ok_iff (g : Graph) (b : Behavior) (g' : Graph) :
    g.addBehavior b = .ok g' ↔ b.id ∉ g.behaviors.ids ∧ g' = g.withBehavior b.id b := by
  rw [addBehavior, ite_error_eq_ok_iff, IdTable.contains_iff, Except.ok.injEq, eq_comm, withBehavior]

section
variable {g : Graph} (h : g.Indexed)
include h

theorem Indexed.addNode_eq_ok_iff (n : Node) (g' : Graph) :
    g.addNode n = .ok g' ↔
      (∀ m ∈ g.nodes, m.position ≠ n.position) ∧ (∀ m ∈ g.nodes, m.id ≠ n.id) ∧ g' = g.withNode n := by
  rw [addNode, ite_error_eq_ok_iff, ite_error_eq_ok_iff, h.byCoordinate.contains_iff, h.byId.contains_iff,
    Except.ok.injEq, eq_comm, withNode]
  simp only [not_exists, not_and, ne_eq]

theorem Indexed.addEdge_eq_ok_iff (e : Edge) (g' : Graph) :
    g.addEdge e = .ok g' ↔
      (∃ n ∈ g.nodes, n.id = e.source) ∧ (∃ n ∈ g.nodes, n.id = e.target) ∧ g' = g.withEdge e := by
  rw [addEdge, ite_error_eq_ok_iff, ite_error_eq_ok_iff, Bool.not_eq_true', Bool.not_eq_false, Bool.not_eq_true',
    Bool.not_eq_false, h.byId.contains_iff, h.byId.contains_iff, Except.ok.injEq, eq_comm, withEdge]

theorem Indexed.addInterestPoint_eq_ok_iff (c : Coordinate) (id : BehaviorId) (optional : Bool) (g' : Graph) :
    g.addInterestPoint c id optional = .ok g' ↔
      ∃ n b, (n ∈ g.nodes ∧ n.position = c) ∧ g.behaviors.find? id = some b ∧
        g' = g.withBehavior id (b.addInterestPoint optional n.id) := by
  simp only [addInterestPoint, bind_eq_ok_iff, h.nodeAt_eq_ok_iff, behavior_eq_ok_iff, pure, Except.pure,
    Except.ok.injEq]
  constructor
  · rintro ⟨n, hn, b, hb, he⟩; exact ⟨n, b, hn, hb, he.symm⟩
  · rintro ⟨n, b, hn, hb, he⟩; exact ⟨n, hn, b, hb, he.symm⟩

/-- Writing at the place of a node is writing wherever its coordinate is. -/
theorem Indexed.setIfInBounds_eq_map {i : Nat} {n : Node} (hn : g.nodes[i]? = some n) (n' : Node) :
    g.nodes.setIfInBounds i n' = g.nodes.map fun m => if m.position = n.position then n' else m := by
  apply Array.ext_getElem?
  intro j
  rw [Array.getElem?_setIfInBounds, Array.getElem?_map]
  by_cases hij : i = j
  · subst hij
    rw [if_pos rfl, if_pos (Array.getElem?_eq_some_iff.1 hn).1, hn]
    simp
  · rw [if_neg hij]
    cases hm : g.nodes[j]? with
    | none => rfl
    | some m =>
      have hne : m.position ≠ n.position := fun he => hij (h.byCoordinate.place_unique hn hm he.symm)
      simp [hne]

/-- A change in place is a change of the node that is found there. -/
theorem Indexed.changeNodeAt_eq (position : Coordinate) (change : Node → Except NetworkError Node) :
    g.changeNodeAt position change = (do
      let changed ← change (← g.nodeAt position)
      return { g with nodes := g.nodes.map fun n => if n.position = position then changed else n }) := by
  unfold changeNodeAt
  split
  · rename_i hnone
    have hmissing : g.nodeAt position = .error (.noSuchNode position) := by rw [nodeAt, hnone]; rfl
    rw [hmissing]
    rfl
  · rename_i i hi
    obtain ⟨n, hn, hposition⟩ := (h.byCoordinate position i).1 hi
    simp only [h.setIfInBounds_eq_map hn, hposition]

theorem Indexed.changeNodeAt_eq_ok_iff (c : Coordinate) (change : Node → Except NetworkError Node) (g' : Graph) :
    g.changeNodeAt c change = .ok g' ↔ ∃ n ∈ g.nodes, n.position = c ∧ ∃ n', change n = .ok n' ∧
      g' = { g with nodes := g.nodes.map fun m => if m.position = c then n' else m } := by
  rw [h.changeNodeAt_eq]
  simp only [bind_eq_ok_iff, h.nodeAt_eq_ok_iff, pure, Except.pure, Except.ok.injEq]
  constructor
  · rintro ⟨n, ⟨hn, hc⟩, n', hok, rfl⟩
    exact ⟨n, hn, hc, n', hok, rfl⟩
  · rintro ⟨n, hn, hc, n', hok, rfl⟩
    exact ⟨n, ⟨hn, hc⟩, n', hok, rfl⟩

/-- Setting a share at a coordinate. `set` stands for what the two kinds of share have in common: it succeeds on
nodes that take the share, and gives the node with it. -/
theorem Indexed.setShare_eq_ok_iff {c : Coordinate} {id : BehaviorId} {v : Binary64} {generated : Bool}
    {set : Node → Except NetworkError Node}
    (hset : ∀ n n', set n = .ok n' ↔ (v.Percentage ∧ n.kind.Takes generated) ∧ n' = n.withShare id v) (g' : Graph) :
    (do let _ ← g.behavior id; g.changeNodeAt c set) = .ok g' ↔
      (id ∈ g.behaviors.ids ∧ v.Percentage ∧ ∃ n ∈ g.nodes, n.position = c ∧ n.kind.Takes generated) ∧
        g' = g.withShare c id v := by
  have hwrite {n : Node} (hn : n ∈ g.nodes) (hc : n.position = c) :
      { g with nodes := g.nodes.map fun m => if m.position = c then n.withShare id v else m } = g.withShare c id v := by
    have hmap : (g.nodes.map fun m => if m.position = c then n.withShare id v else m) =
        g.nodes.map fun m => if m.position = c then m.withShare id v else m := by
      refine Array.map_congr_left fun m hm => ?_
      by_cases hmc : m.position = c
      · rw [h.byCoordinate.node_unique hm hn (hmc.trans hc.symm)]
      · rw [if_neg hmc, if_neg hmc]
    rw [hmap, Graph.withShare]
  simp only [bind_eq_ok_iff, behavior_eq_ok_iff, h.changeNodeAt_eq_ok_iff, hset, IdTable.mem_ids_iff]
  constructor
  · rintro ⟨b, hb, n, hn, hc, n', ⟨⟨hv, ht⟩, rfl⟩, rfl⟩
    exact ⟨⟨⟨b, hb⟩, hv, n, hn, hc, ht⟩, hwrite hn hc⟩
  · rintro ⟨⟨⟨b, hb⟩, hv, n, hn, hc, ht⟩, rfl⟩
    exact ⟨b, hb, n, hn, hc, _, ⟨⟨hv, ht⟩, rfl⟩, (hwrite hn hc).symm⟩

/-! ## The indexes stay right -/

theorem Indexed.withNode {n : Node} (hid : n.id.toNat = g.nodes.size)
    (hfree : ∀ m ∈ g.nodes, m.position ≠ n.position) : (g.withNode n).Indexed where
  ids i m hm := by
    rw [withNode_nodes, Array.getElem?_push] at hm
    split at hm
    · cases hm; omega
    · exact h.ids i m hm
  byId := by
    refine h.byId.push fun m hm he => ?_
    have := h.id_lt hm
    rw [he] at this
    omega
  byCoordinate := h.byCoordinate.push hfree

theorem Indexed.withShare (c : Coordinate) (id : BehaviorId) (v : Binary64) : (g.withShare c id v).Indexed where
  ids i m hm := by
    rw [Graph.withShare, Array.getElem?_map, Option.map_eq_some_iff] at hm
    obtain ⟨n, hn, rfl⟩ := hm
    rw [← h.ids i n hn]
    split <;> rfl
  byId := h.byId.map fun n => by split <;> rfl
  byCoordinate := h.byCoordinate.map fun n => by split <;> rfl

theorem Indexed.withEdge (e : Edge) : (g.withEdge e).Indexed := ⟨h.ids, h.byId, h.byCoordinate⟩

theorem Indexed.withBehavior (id : BehaviorId) (b : Behavior) : (g.withBehavior id b).Indexed :=
  ⟨h.ids, h.byId, h.byCoordinate⟩

end

end Graph

end BeaconMap
