import BeaconMap.Proofs.Network.History
/-!
# What a description asks for

The calls that place a description (`Description.calls`), read kind by kind, and when they fit together
(`Description.legal_calls_iff`): behaviors and nodes must differ among themselves; shares, interest points and edges
are looked at one by one, without regard to their order.
-/

namespace BeaconMap

open History

namespace DescribedNode

/-- Where the node stands. -/
def position (n : DescribedNode) : Coordinate := n.geometry.position

/-- The described kind with these shares; a regular node has none. -/
def kindWith (n : DescribedNode) (shares : Percentages) : NodeKind :=
  match n.kind with
  | .regular => .regular
  | .entry => .entryPoint ⟨n.rate, n.limit⟩ shares
  | .exit => .exitPoint n.rate shares

/-- The shares of the node are of agents that appear; a regular node is taken for an entry point here. -/
def generates (n : DescribedNode) : Bool := n.kind != .exit

/-- A node takes the shares that are asked for it unless it is regular. -/
theorem takes_iff (n : DescribedNode) : (n.kindWith .empty).Takes n.generates ↔ n.kind ≠ .regular := by
  unfold kindWith generates
  cases n.kind <;> simp [NodeKind.Takes]

end DescribedNode

/-! ## The calls of a description -/

namespace Item

section
variable (n : DescribedNode) (s : DescribedShare)

theorem asks_behavior (b : DescribedBehavior) :
    (behavior b).call.node? = none ∧ (behavior b).call.edge? = none ∧
      (behavior b).call.behavior? = some (b.id, b.kind) ∧ (behavior b).call.interest? = none ∧
      (behavior b).call.share? = none :=
  ⟨rfl, rfl, rfl, rfl, rfl⟩

theorem asks_node :
    (node n).call.node? = some (n.geometry, n.kindWith .empty) ∧ (node n).call.edge? = none ∧
      (node n).call.behavior? = none ∧ (node n).call.interest? = none ∧ (node n).call.share? = none := by
  obtain ⟨kind, _, _, _, _⟩ := n
  cases kind <;> exact ⟨rfl, rfl, rfl, rfl, rfl⟩

theorem asks_share :
    (share n s).call.node? = none ∧ (share n s).call.edge? = none ∧ (share n s).call.behavior? = none ∧
      (share n s).call.interest? = none ∧
      (share n s).call.share? = some ⟨n.generates, n.position, s.behavior, s.percentage⟩ := by
  obtain ⟨kind, _, _, _, _⟩ := n
  cases kind <;> exact ⟨rfl, rfl, rfl, rfl, rfl⟩

theorem node?_node : (node n).call.node? = some (n.geometry, n.kindWith .empty) := (asks_node n).1

theorem share?_share : (share n s).call.share? = some ⟨n.generates, n.position, s.behavior, s.percentage⟩ :=
  (asks_share n s).2.2.2.2

theorem asks_interestPoint (id : BehaviorId) (c : Coordinate) (optional : Bool) :
    (interestPoint id c optional).call.node? = none ∧ (interestPoint id c optional).call.edge? = none ∧
      (interestPoint id c optional).call.behavior? = none ∧
      (interestPoint id c optional).call.interest? = some ⟨c, id, optional⟩ ∧
      (interestPoint id c optional).call.share? = none :=
  ⟨rfl, rfl, rfl, rfl, rfl⟩

theorem asks_edge (e : DescribedEdge) :
    (edge e).call.node? = none ∧ (edge e).call.edge? = some e ∧ (edge e).call.behavior? = none ∧
      (edge e).call.interest? = none ∧ (edge e).call.share? = none :=
  ⟨rfl, rfl, rfl, rfl, rfl⟩

end

end Item

/-- The core or the optional interest points of a described behavior. -/
def DescribedBehavior.points (b : DescribedBehavior) (optional : Bool) : List Coordinate :=
  if optional then b.optional else b.core

namespace Description

variable (d : Description)

/-- The calls that place the items of the description. -/
def calls : List Call := d.items.map Item.call

section

theorem flatMap_nil_fun {α β : Type} (l : List α) : l.flatMap (fun _ => ([] : List β)) = [] :=
  List.flatMap_eq_nil_iff.2 fun _ _ => rfl

attribute [local simp] calls items List.filterMap_flatMap Function.comp_def flatMap_nil_fun Item.asks_behavior
  Item.asks_node Item.asks_share Item.asks_interestPoint Item.asks_edge

theorem nodes_calls : History.nodes d.calls = d.nodes.map fun n => (n.geometry, n.kindWith .empty) := by
  simp [History.nodes]

theorem behaviors_calls : History.behaviors d.calls = d.behaviors.map fun b => (b.id, b.kind) := by
  simp [History.behaviors]

theorem edges_calls : History.edges d.calls = d.edges := by
  simp [History.edges]

theorem shares_calls : History.shares d.calls =
    d.nodes.flatMap fun n => n.percentages.map fun s => ⟨n.generates, n.position, s.behavior, s.percentage⟩ := by
  simp [History.shares]

theorem mem_interests_calls (c : Coordinate) (id : BehaviorId) (optional : Bool) :
    ⟨c, id, optional⟩ ∈ History.interests d.calls ↔ ∃ b ∈ d.behaviors, b.id = id ∧ c ∈ b.points optional := by
  cases optional <;> simp [History.interests, DescribedBehavior.points, and_comm]
end

/-- The coordinates of the described nodes. -/
def positions : List Coordinate := d.nodes.map DescribedNode.position

/-- The ids of the described behaviors. -/
def behaviorIds : List BehaviorId := d.behaviors.map DescribedBehavior.id

theorem positions_calls : History.positions d.calls = d.positions := by
  simp [History.positions, nodes_calls, positions, DescribedNode.position]

theorem registered_calls : registered d.calls = d.behaviorIds := by
  simp [registered, behaviors_calls, behaviorIds]

end Description

/-! ## Phases of calls that fit together -/

/-- Whether a call fits depends on the nodes and behaviors that were asked for. -/
theorem Call.fits_congr {past past' : List Call} (hn : nodes past = nodes past')
    (hb : behaviors past = behaviors past') (call : Call) : call.Fits past ↔ call.Fits past' := by
  cases call <;> simp only [Call.Fits, NewNode, Takes, positions, registered, hn, hb]

/-- Calls that ask for no node and no behavior fit together when each of them fits what stands before them all. -/
theorem legal_iff_forall {calls : List Call} (h : ∀ call ∈ calls, call.node? = none ∧ call.behavior? = none)
    (past : List Call) : Legal past calls ↔ ∀ call ∈ calls, call.Fits past := by
  induction calls generalizing past with
  | nil => simp [Legal]
  | cons call rest ih =>
    obtain ⟨⟨hn, hb⟩, hrest⟩ := List.forall_mem_cons.1 h
    have hsame (c : Call) : c.Fits (past ++ [call]) ↔ c.Fits past :=
      Call.fits_congr (by simp [nodes, hn]) (by simp [behaviors, hb]) c
    rw [Legal, ih hrest, List.forall_mem_cons]
    simp only [hsame]

/-- Behaviors fit together when their ids are new and differ. -/
theorem legal_behaviors (past : List Call) (bs : List DescribedBehavior) :
    Legal past (bs.map fun b => (Item.behavior b).call) ↔
      (bs.map DescribedBehavior.id).Nodup ∧ ∀ b ∈ bs, b.id ∉ registered past := by
  induction bs generalizing past with
  | nil => simp [Legal]
  | cons b rest ih =>
    have hone : registered [(Item.behavior b).call] = [b.id] := rfl
    have hfits : (Item.behavior b).call.Fits past ↔ b.id ∉ registered past := Iff.rfl
    rw [List.map_cons, Legal, ih, hfits, List.map_cons, List.nodup_cons, List.forall_mem_cons]
    simp only [registered_append, hone, List.mem_append, List.mem_singleton, not_or, List.mem_map, not_exists, not_and]
    -- A behavior differs from those after it when none of them finds it registered.
    constructor
    · rintro ⟨hnew, hnd, hrest⟩
      exact ⟨⟨fun x hx => (hrest x hx).2, hnd⟩, hnew, fun x hx => (hrest x hx).1⟩
    · rintro ⟨⟨hne, hnd⟩, hnew, hrest⟩
      exact ⟨hnew, hnd, fun x hx => ⟨hrest x hx, hne x hx⟩⟩

/-- Nodes fit together when their coordinates are free and differ, while there are ids for all of them. -/
theorem legal_nodes (past : List Call) (ns : List DescribedNode) (room : (nodes past).length + ns.length ≤ 2 ^ 32) :
    Legal past (ns.map fun n => (Item.node n).call) ↔
      (ns.map DescribedNode.position).Nodup ∧ ∀ n ∈ ns, n.position ∉ positions past ∧
        n.geometry.Valid ∧ ∀ r, (n.kindWith .empty).rate? = some r → r.NonNegative := by
  induction ns generalizing past with
  | nil => simp [Legal]
  | cons n rest ih =>
    have hone : nodes [(Item.node n).call] = [(n.geometry, n.kindWith .empty)] := by simp [nodes, Item.asks_node]
    have hpos : positions [(Item.node n).call] = [n.position] := by rw [positions, hone]; rfl
    rw [List.length_cons] at room
    have hroom : (nodes past).length < 2 ^ 32 := by omega
    have hrest : (nodes (past ++ [(Item.node n).call])).length + rest.length ≤ 2 ^ 32 := by
      rw [nodes_append, hone, List.length_append, List.length_singleton]
      omega
    rw [List.map_cons, Legal, ih _ hrest, Call.fits_node_iff _ (Item.node?_node n), NewNode, List.map_cons,
      List.nodup_cons, List.forall_mem_cons]
    simp only [positions_append, hpos, List.mem_append, List.mem_singleton, not_or, List.mem_map, not_exists, not_and]
    constructor
    · rintro ⟨⟨⟨hv, hfree, -⟩, hr⟩, hnd, hall⟩
      exact ⟨⟨fun x hx => (hall x hx).1.2, hnd⟩, ⟨hfree, hv, hr⟩, fun x hx => ⟨(hall x hx).1.1, (hall x hx).2⟩⟩
    · rintro ⟨⟨hne, hnd⟩, ⟨hfree, hv, hr⟩, hall⟩
      exact ⟨⟨⟨hv, hfree, hroom⟩, hr⟩, hnd, fun x hx => ⟨⟨(hall x hx).1, hne x hx⟩, (hall x hx).2⟩⟩

namespace Description

variable (d : Description)

def behaviorCalls : List Call := d.behaviors.map fun b => (Item.behavior b).call

def nodeCalls : List Call := d.nodes.map fun n => (Item.node n).call

/-- The calls for shares, interest points and edges, which come after those for behaviors and nodes. -/
def laterCalls : List Call :=
  (d.nodes.flatMap fun n => n.percentages.map fun s => (Item.share n s).call) ++
  (d.behaviors.flatMap fun b =>
    b.core.map (fun c => (Item.interestPoint b.id c false).call) ++
    b.optional.map (fun c => (Item.interestPoint b.id c true).call)) ++
  d.edges.map fun e => (Item.edge e).call

theorem calls_eq : d.calls = d.behaviorCalls ++ d.nodeCalls ++ d.laterCalls := by
  simp [calls, items, behaviorCalls, nodeCalls, laterCalls, List.map_flatMap, Function.comp_def]

theorem forall_laterCalls (P : Call → Prop) :
    (∀ call ∈ d.laterCalls, P call) ↔
      (∀ n ∈ d.nodes, ∀ s ∈ n.percentages, P (Item.share n s).call) ∧
        (∀ b ∈ d.behaviors, ∀ optional, ∀ c ∈ b.points optional, P (Item.interestPoint b.id c optional).call) ∧
        ∀ e ∈ d.edges, P (Item.edge e).call := by
  simp only [laterCalls, List.forall_mem_append, List.forall_mem_flatMap, List.forall_mem_map, Bool.forall_bool,
    and_assoc]
  rfl

theorem laterCalls_asks : ∀ call ∈ d.laterCalls, call.node? = none ∧ call.behavior? = none := by
  rw [forall_laterCalls]
  refine ⟨fun n _ s _ => ?_, fun b _ optional c _ => ⟨rfl, rfl⟩, fun e _ => ⟨rfl, rfl⟩⟩
  obtain ⟨hn, -, hb, -, -⟩ := Item.asks_share n s
  exact ⟨hn, hb⟩

/-- The calls of a description fit together when its behaviors and nodes do and every later call fits them all. -/
theorem legal_calls_iff (few : d.nodes.length ≤ 2 ^ 32) :
    Legal [] d.calls ↔ d.behaviorIds.Nodup ∧ d.positions.Nodup ∧
      (∀ n ∈ d.nodes, n.geometry.Valid ∧ ∀ r, (n.kindWith .empty).rate? = some r → r.NonNegative) ∧
      ∀ call ∈ d.laterCalls, call.Fits d.calls := by
  have hlater : History.nodes d.laterCalls = [] ∧ History.behaviors d.laterCalls = [] :=
    ⟨List.filterMap_eq_nil_iff.2 fun c hc => (d.laterCalls_asks c hc).1,
      List.filterMap_eq_nil_iff.2 fun c hc => (d.laterCalls_asks c hc).2⟩
  -- The later calls ask for no node and no behavior, so it makes no difference which of them are past.
  have hsame (call : Call) : call.Fits (d.behaviorCalls ++ d.nodeCalls) ↔ call.Fits d.calls :=
    Call.fits_congr (by rw [calls_eq, nodes_append _ d.laterCalls, hlater.1, List.append_nil])
      (by rw [calls_eq, behaviors_append _ d.laterCalls, hlater.2, List.append_nil]) call
  have hfirst : History.nodes d.behaviorCalls = [] := by
    simp [History.nodes, behaviorCalls, Item.asks_behavior]
  have hbehaviors : Legal [] d.behaviorCalls ↔ d.behaviorIds.Nodup := by
    rw [behaviorCalls, legal_behaviors, behaviorIds]
    simp [registered, History.behaviors]
  have hnodes : Legal d.behaviorCalls d.nodeCalls ↔ d.positions.Nodup ∧
      ∀ n ∈ d.nodes, n.geometry.Valid ∧ ∀ r, (n.kindWith .empty).rate? = some r → r.NonNegative := by
    rw [nodeCalls, legal_nodes _ _ (by rw [hfirst]; simpa using few), History.positions, hfirst, positions]
    simp
  have hthen : Legal (d.behaviorCalls ++ d.nodeCalls) d.laterCalls ↔ ∀ call ∈ d.laterCalls, call.Fits d.calls := by
    rw [legal_iff_forall d.laterCalls_asks]
    exact forall₂_congr fun call _ => hsame call
  have hsplit : Legal [] d.calls ↔ Legal [] d.behaviorCalls ∧ Legal d.behaviorCalls d.nodeCalls ∧
      Legal (d.behaviorCalls ++ d.nodeCalls) d.laterCalls := by
    rw [calls_eq, legal_append, legal_append, List.nil_append, List.nil_append, and_assoc]
  rw [hsplit, hbehaviors, hnodes, hthen, and_assoc]

end Description

end BeaconMap
