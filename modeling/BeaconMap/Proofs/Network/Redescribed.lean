import BeaconMap.Proofs.Network.Described
import BeaconMap.Proofs.Network.Determined
import BeaconMap.Proofs.Network.Succeeded
import BeaconMap.Proofs.Script.Block
/-!
# Calls and descriptions reach the same graphs

Every sound graph has a description (`Graph.description`) that names its nodes by coordinate, and the graph is the record
of the calls of its own description. As a record determines its graph, a graph that calls build and finish is handed
over again when its description is applied (`applyTo_description`). The calls of a description that was applied are in turn a
run that hands over the same graph. So the two ways of building reach the same graphs
(`finished_by_calls_iff_described`).
-/

namespace BeaconMap

/-! ## The description of a graph -/

/-- Shares as they are described, one entry for each behavior. -/
def Percentages.description (table : Percentages) : List DescribedShare := table.entries.map fun e => ⟨e.1, e.2⟩

/-- A node as it is described, with 0 for what its kind has no place for. -/
def Node.description (n : Node) : DescribedNode :=
  match n.kind with
  | .regular => ⟨.regular, n.geometry, .zero false, 0, []⟩
  | .entryPoint flow generated => ⟨.entry, n.geometry, flow.rate, flow.limit, Percentages.description generated⟩
  | .exitPoint rate absorbed => ⟨.exit, n.geometry, rate, 0, Percentages.description absorbed⟩

namespace Graph

variable (g : Graph)

/-- A behavior of the graph as it is described. -/
def describedBehavior (b : Behavior) : DescribedBehavior :=
  ⟨b.id, b.kind, b.core.ids.map g.positionOf, b.optional.ids.map g.positionOf⟩

/-- An edge of the graph as it is described. -/
def describedEdge (e : Edge) : DescribedEdge :=
  ⟨g.positionOf e.source, g.positionOf e.target, e.width, e.weight, e.directed⟩

/-- The description of the graph. -/
def description : Description where
  behaviors := g.behaviors.values.map g.describedBehavior
  nodes := g.nodes.toList.map Node.description
  edges := g.edges.toList.map g.describedEdge

end Graph

namespace Node

variable (n : Node)

@[simp] theorem description_geometry : n.description.geometry = n.geometry := by
  unfold description
  cases n.kind <;> rfl

@[simp] theorem description_position : n.description.position = n.position := by
  rw [DescribedNode.position, description_geometry, position]

theorem description_kindWith : n.description.kindWith .empty = n.kind.bare := by
  unfold description
  cases n.kind <;> rfl

theorem description_percentages : n.description.percentages = Percentages.description n.kind.shares := by
  unfold description
  cases n.kind <;> rfl

end Node

/-- Of entries with different ids the last one for an id is the only one. -/
theorem getLast?_filter_eq_lookup {l : List (UInt32 × Binary64)} (h : (l.map Prod.fst).Nodup) (id : UInt32) :
    (((l.map fun e => (⟨e.1, e.2⟩ : DescribedShare)).filter fun s => s.behavior = id).getLast?.map
      DescribedShare.percentage) = l.lookup id := by
  induction l with
  | nil => rfl
  | cons head rest ih =>
    obtain ⟨k, v⟩ := head
    obtain ⟨hhead, hrest⟩ := List.nodup_cons.1 h
    rw [IdTable.lookup_cons_eq, List.map_cons, List.filter_cons]
    by_cases hk : k = id
    · subst hk
      have hnone : (rest.map fun e => (⟨e.1, e.2⟩ : DescribedShare)).filter (fun s => s.behavior = k) = [] := by
        simp only [List.filter_eq_nil_iff, List.forall_mem_map, decide_eq_true_eq]
        exact fun e he hek => hhead (List.mem_map.2 ⟨e, he, hek⟩)
      simp [hnone]
    · simp only [hk, decide_false, Bool.false_eq_true, if_false, Ne.symm hk]
      exact ih hrest

theorem Node.lastShare_description (n : Node) (id : BehaviorId) :
    n.description.lastShare id = n.kind.shares.find? id := by
  rw [DescribedNode.lastShare, description_percentages]
  exact getLast?_filter_eq_lookup n.kind.shares.ids_nodup id

/-! ## The description can be placed -/

namespace Graph

variable {g : Graph}

/-- A node stands where its id says. -/
theorem Indexed.standsAt_positionOf (h : g.Indexed) {id : NodeId} (hid : ∃ n ∈ g.nodes, n.id = id) :
    g.StandsAt id (g.positionOf id) := by
  obtain ⟨n, hn, rfl⟩ := hid
  exact ⟨n, hn, rfl, (h.positionOf_id hn).symm⟩

theorem Indexed.positionOf_mem (h : g.Indexed) {id : NodeId} (hid : ∃ n ∈ g.nodes, n.id = id) :
    g.positionOf id ∈ g.description.nodes.map DescribedNode.position := by
  obtain ⟨n, hn, -, hp⟩ := h.standsAt_positionOf hid
  rw [← hp, ← n.description_position]
  exact List.mem_map_of_mem (List.mem_map_of_mem (Array.mem_toList_iff.2 hn))

theorem Sound.mem_interests (h : g.Sound) {b : Behavior} (hb : b ∈ g.behaviors.values) {optional : Bool} {id : NodeId}
    (hid : id ∈ (b.interests optional).ids) : ∃ n ∈ g.nodes, n.id = id := by
  refine h.interests b hb id (List.mem_append.2 ?_)
  cases optional with
  | false => exact .inl hid
  | true => exact .inr hid

theorem describedBehavior_points (b : Behavior) (optional : Bool) :
    (g.describedBehavior b).points optional = (b.interests optional).ids.map g.positionOf := by
  cases optional <;> rfl

/-- A behavior stands under its own id. -/
theorem Sound.mem_values_iff (h : g.Sound) (b : Behavior) :
    b ∈ g.behaviors.values ↔ g.behaviors.find? b.id = some b := by
  rw [IdTable.find?_eq_some_iff, IdTable.values, List.mem_map]
  constructor
  · rintro ⟨entry, hentry, rfl⟩
    rw [h.keys entry hentry]
    exact hentry
  · intro hentry
    exact ⟨_, hentry, rfl⟩

theorem Sound.description_behaviorIds (h : g.Sound) : g.description.behaviorIds = g.behaviors.ids := by
  rw [Description.behaviorIds, description, List.map_map, IdTable.values, List.map_map, IdTable.ids]
  exact List.map_congr_left h.keys

theorem description_positions : g.description.positions = g.nodes.toList.map Node.position := by
  rw [Description.positions, description, List.map_map]
  exact List.map_congr_left fun n _ => n.description_position

theorem Sound.proper (h : g.Sound) {n : Node} (hn : n ∈ g.nodes) : n.description.Proper := by
  have hgeometry := h.geometries n hn
  have hrate := h.rates n hn
  obtain ⟨id, geometry, kind⟩ := n
  cases kind with
  | regular => exact ⟨hgeometry, fun _ => ⟨(Binary64.isZero_iff (.zero false)).1 (by decide), rfl, rfl⟩, nofun, nofun⟩
  | entryPoint flow generated => exact ⟨hgeometry, nofun, fun _ => hrate _ rfl, nofun⟩
  | exitPoint rate absorbed => exact ⟨hgeometry, nofun, nofun, fun _ => ⟨hrate _ rfl, rfl⟩⟩

/-- The description of a sound graph can be placed. -/
theorem Sound.description_placeable (h : g.Sound) (hx : g.Indexed) : g.description.Placeable where
  behaviorIds := by
    rw [← Description.behaviorIds, h.description_behaviorIds]
    exact g.behaviors.ids_nodup
  positions := by
    rw [← Description.positions, description_positions]
    exact h.positions
  nodes := by
    rw [description, List.forall_mem_map]
    exact fun n hn => h.proper (Array.mem_toList_iff.1 hn)
  percentages := by
    rw [← Description.behaviorIds, h.description_behaviorIds]
    simp only [description, List.forall_mem_map, Node.description_percentages, Percentages.description]
    exact fun n hn entry hentry => h.shares n (Array.mem_toList_iff.1 hn) entry hentry
  interests := by
    simp only [description, List.forall_mem_map]
    intro b hb c hc
    obtain ⟨id, hid, rfl⟩ : ∃ id ∈ b.core.ids ++ b.optional.ids, g.positionOf id = c := by
      rwa [describedBehavior, ← List.map_append, List.mem_map] at hc
    exact hx.positionOf_mem (h.interests b hb id hid)
  ends := by
    simp only [description, List.forall_mem_map]
    intro e he
    obtain ⟨hsource, htarget⟩ := h.ends e (Array.mem_toList_iff.1 he)
    exact ⟨hx.positionOf_mem hsource, hx.positionOf_mem htarget⟩
  streets := by
    simp only [description, List.forall_mem_map]
    exact fun e he => h.streets e (Array.mem_toList_iff.1 he)

/-! ## The description asks for the graph -/

/-- A sound graph is the record of the calls of its own description. -/
theorem Sound.records_description (h : g.Sound) (hx : g.Indexed) : g.Records g.description.calls where
  nodes := by
    rw [Description.nodes_calls, description, List.map_map]
    refine List.map_congr_left fun n _ => ?_
    rw [Function.comp_apply, n.description_geometry, n.description_kindWith]
  shares n hn id := by
    have hnd : g.description.positions.Nodup := description_positions ▸ h.positions
    have hmem : n.description ∈ g.description.nodes := List.mem_map_of_mem (Array.mem_toList_iff.2 hn)
    rw [← n.description_position, Description.shareOf_calls hnd hmem, n.lastShare_description]
  edges := by
    rw [Description.edges_calls, description, List.forall₂_map_left_iff, List.forall₂_same]
    intro e he
    obtain ⟨hsource, htarget⟩ := h.ends e (Array.mem_toList_iff.1 he)
    exact ⟨rfl, rfl, rfl, hx.standsAt_positionOf hsource, hx.standsAt_positionOf htarget⟩
  behaviors id kind := by
    simp only [Description.behaviors_calls, description, List.map_map, List.mem_map, Function.comp_apply,
      describedBehavior, Prod.mk.injEq]
    constructor
    · rintro ⟨b, hb, hkind⟩
      have hid : b.id = id := h.keys _ ((IdTable.find?_eq_some_iff ..).1 hb)
      exact ⟨b, (h.mem_values_iff b).2 (hid ▸ hb), hid, hkind⟩
    · rintro ⟨b, hb, rfl, hkind⟩
      exact ⟨b, (h.mem_values_iff b).1 hb, hkind⟩
  keys id b hb := h.keys _ ((IdTable.find?_eq_some_iff ..).1 hb)
  interests id b hb optional node := by
    have hid : b.id = id := h.keys _ ((IdTable.find?_eq_some_iff ..).1 hb)
    have hvalue : b ∈ g.behaviors.values := (h.mem_values_iff b).2 (hid ▸ hb)
    simp only [Description.mem_interests_calls]
    constructor
    · intro hnode
      have hpoint : g.positionOf node ∈ (g.describedBehavior b).points optional := by
        rw [describedBehavior_points]
        exact List.mem_map_of_mem hnode
      exact ⟨_, ⟨_, List.mem_map_of_mem hvalue, hid, hpoint⟩,
        hx.standsAt_positionOf (h.mem_interests hvalue hnode)⟩
    · rintro ⟨c, ⟨asked, hasked, hid', hc⟩, hst⟩
      obtain ⟨b', hb', rfl⟩ := List.mem_map.1 hasked
      -- The behavior under an id is the only one with this id.
      obtain rfl : b' = b := by
        rw [h.mem_values_iff, show b'.id = id from hid', hb] at hb'
        exact (Option.some.inj hb').symm
      rw [describedBehavior_points] at hc
      obtain ⟨k, hk, rfl⟩ := List.mem_map.1 hc
      exact hx.id_unique (hx.standsAt_positionOf (h.mem_interests hvalue hk)) hst ▸ hk

end Graph

/-! ## Descriptions as runs -/

/-- The graph that a description hands over is handed over by the calls of the description as well. -/
theorem Description.step_finalize_of_applyTo {d : Description} {b : Builder} {g : Graph}
    (h : (d.applyTo b).1 = .ok g) :
    (Call.finalize.step (Call.runAll (.start :: d.calls) b).2).1 = .ok (.graph g) := by
  rw [applyTo_eq] at h
  rw [Call.runAll_cons]
  have hstart : (Call.start.step b).2 = { product := some .empty, nextId := 0 } := rfl
  rw [hstart]
  cases hforM : d.items.forM Item.place { product := some .empty, nextId := 0 } with
  | error e b' => rw [hforM] at h; cases h
  | ok u b' =>
    rw [hforM] at h
    rw [calls, (Item.runAll_of_forM hforM).1]
    have hrun : Call.finalize.run b' = (do return .graph (← Builder.finalize) : Build Answer) b' := rfl
    rw [Call.step, hrun, Builder.map_run]
    cases hf : Builder.finalize b' with
    | error e b'' => simp [hf] at h
    | ok g' b'' =>
      simp only [hf, Except.ok.injEq] at h
      rw [h]

namespace Graph

variable {g : Graph}

/-- A graph that `finalize` hands over after a run was the product: connected, with its indexes in order, and a record. -/
theorem holds_of_finalize {calls : List Call}
    (h : (Call.finalize.step (Call.runAll calls {}).2).1 = .ok (.graph g)) :
    g.isConnected = true ∧ g.Numbered ∧ ∃ past, Builder.Holds (Call.runAll calls {}).2 g past := by
  have hr := (Call.recorded_runAll calls Builder.recorded_new).1
  obtain ⟨-, hp, hc, -⟩ := Call.step_graph hr (Prod.ext h rfl)
  exact ⟨hc, Call.numbered_runAll calls Builder.recorded_new (fun _ he => by cases he) g hp, hr g hp⟩

/-- A graph that a description hands over is made by a run of calls. -/
theorem made_of_applyTo {d : Description} (h : (d.applyTo {}).1 = .ok g) : g.Made := by
  obtain ⟨-, -, past, hholds⟩ := holds_of_finalize (d.step_finalize_of_applyTo h)
  exact ⟨_, .inl hholds.product⟩

/-- A graph that calls have built and finished is handed over when its description is applied. -/
theorem applyTo_description {calls : List Call}
    (h : (Call.finalize.step (Call.runAll calls {}).2).1 = .ok (.graph g)) :
    (g.description.applyTo {}).1 = .ok g := by
  obtain ⟨hc, hnumbered, past, hholds⟩ := holds_of_finalize h
  have hx := hholds.indexed
  have hrecords := hholds.sound.records_description hx
  have few : g.description.nodes.length ≤ 2 ^ 32 := by
    rw [← hrecords.described_size]
    exact hx.size_le
  have hfits := (Description.fits_iff_placeable _ few).2 (hholds.sound.description_placeable hx)
  obtain ⟨b', g', hh, happly⟩ := Description.applyTo_of_fits hfits {}
  -- `g'` is what the description builds; both graphs are the record of its calls.
  have hc' : g'.isConnected = true := by
    rwa [isConnected, hh.records.nodes_eq hrecords hh.indexed hx, hh.records.edges_eq hrecords hh.indexed hx]
  rw [if_pos hc'] at happly
  have hg' : (g.description.applyTo {}).1 = .ok g' := by rw [happly]
  obtain ⟨-, hnumbered', -⟩ := holds_of_finalize (Description.step_finalize_of_applyTo hg')
  rw [hg', hh.records.unique hrecords hh.indexed hx hnumbered' hnumbered]

theorem getLast?_runAll_finalize (calls : List Call) :
    (Call.runAll (calls ++ [.finalize]) {}).1.getLast? = some (Call.finalize.step (Call.runAll calls {}).2).1 := by
  rw [Call.runAll_append, Call.runAll_cons, Call.runAll, List.getLast?_concat]

/-- Calls and descriptions reach the same graphs: a graph is handed over by the `finalize` at the end of some run from a
new builder exactly when some description hands it over. -/
theorem finished_by_calls_iff_described (g : Graph) :
    (∃ calls, (Call.runAll (calls ++ [.finalize]) {}).1.getLast? = some (.ok (.graph g))) ↔
      ∃ d : Description, (d.applyTo {}).1 = .ok g := by
  simp only [getLast?_runAll_finalize, Option.some.injEq]
  constructor
  · rintro ⟨calls, h⟩
    exact ⟨g.description, applyTo_description h⟩
  · rintro ⟨d, h⟩
    exact ⟨.start :: d.calls, d.step_finalize_of_applyTo h⟩

/-- The crossing, three of whose calls fail, is handed over by a description too. -/
theorem finished_by_calls_iff_described_crossing :
    ∃ g : Graph, (Call.runAll (Call.crossing.take 12 ++ [.finalize]) {}).1.getLast? = some (.ok (.graph g)) ∧
      g.nodes.size = 3 ∧ ∃ d : Description, (d.applyTo {}).1 = .ok g := by
  obtain ⟨g, hlast, hsize⟩ := Call.exists_graph_mem [(Call.finalize.step (Call.runAll (Call.crossing.take 12) {}).2).1]
    (fun g => g.nodes.size == 3) (by decide +kernel)
  have hfinished := (getLast?_runAll_finalize (Call.crossing.take 12)).trans
    (congrArg some (List.mem_singleton.1 hlast).symm)
  exact ⟨g, hfinished, eq_of_beq hsize, (finished_by_calls_iff_described g).1 ⟨_, hfinished⟩⟩

end Graph

end BeaconMap
