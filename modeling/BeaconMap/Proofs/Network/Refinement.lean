import BeaconMap.Proofs.Network.Scans
/-!
# Builders answer as if they had no indexes

Forgetting the indexes and the counter of a builder turns each of its steps into the step of a builder that keeps lists
(`refines_step`), as long as there are ids left; so whole runs give the same answers and the same networks
(`runAll_listing`). The look-ups of a graph answer what a scan of its lists finds.
-/

namespace BeaconMap

open Listing

/-! ## Checks come in the same order -/

theorem noFault_or (a b : Option Fault) : noFault (a.or b) = (do noFault a; noFault b) := by
  cases a <;> rfl

theorem noFault_ite (p : Prop) [Decidable p] (fault : Fault) :
    noFault (if p then none else some fault) = require p (.validation fault) := by
  unfold require
  split <;> rfl

theorem noFault_dimension (what : Dimension) (v : Int32) : noFault (what.fault? v) = requireDimension what v := by
  have hfault : what.fault? v = if 0 < v then none else some (.notPositive what v) := by
    simp only [Dimension.fault?, ← Int32.not_lt, ite_not]
  rw [hfault]
  exact noFault_ite _ _

theorem noFault_quantity (what : Quantity) (v : Binary64) : noFault (what.fault? v) = requireQuantity what v := by
  have hfault : what.fault? v = if v.NonNegative then none else some (.notFiniteNonNegative what v) := by
    simp only [Quantity.fault?, v.isNonNegative_iff]
  rw [hfault]
  exact noFault_ite _ _

theorem noFault_percentage (v : Binary64) :
    noFault (percentageFault? v) = require v.Percentage (.validation (.notPercentage v)) := by
  have hfault : percentageFault? v = if v.Percentage then none else some (.notPercentage v) := by
    simp only [percentageFault?, v.isPercentage_iff]
  rw [hfault]
  exact noFault_ite _ _

theorem noFault_geometry (g : Geometry) : noFault g.fault? = requireGeometry g := by
  rw [Geometry.fault?, noFault_or, noFault_or, noFault_or, noFault_dimension, noFault_dimension, noFault_dimension,
    noFault_quantity]
  rfl

theorem noFault_street (width : Int32) (weight : Binary64) :
    noFault (streetFault? width weight) =
      (do requireDimension .edgeWidth width; requireQuantity .edgeWeight weight) := by
  rw [streetFault?, noFault_or, noFault_dimension, noFault_quantity]

/-- The fault of the rate of a kind. -/
def NodeKind.rateFault? : NodeKind → Option Fault
  | .regular => none
  | .entryPoint flow _ => flow.fault?
  | .exitPoint rate _ => Quantity.exitRate.fault? rate

theorem noFault_rate (kind : NodeKind) : noFault kind.rateFault? = requireRate kind := by
  cases kind with
  | regular => rfl
  | entryPoint flow _ => exact noFault_quantity _ _
  | exitPoint rate _ => exact noFault_quantity _ _

/-! ## Changes -/

namespace Graph

variable {g : Graph}

theorem Indexed.addStreet_listing (h : g.Indexed) (directed : Bool) (source target : Coordinate) (width : Int32)
    (weight : Binary64) :
    g.listing.addStreet directed source target width weight =
      (do
        let source ← g.nodeAt source
        let target ← g.nodeAt target
        g.addEdge (← Edge.new directed source.id target.id width weight)).map listing := by
  unfold Listing.addStreet
  rw [h.nodeAt_listing, h.nodeAt_listing]
  cases hs : g.nodeAt source with
  | error e => rfl
  | ok m =>
    cases ht : g.nodeAt target with
    | error e => rfl
    | ok n =>
      obtain ⟨hm, -⟩ := (h.nodeAt_eq_ok_iff _ _).1 hs
      obtain ⟨hn, -⟩ := (h.nodeAt_eq_ok_iff _ _).1 ht
      have hadd (width : Int32) (weight : Binary64) :
          g.addEdge ⟨directed, m.id, n.id, width, weight⟩ = .ok (g.withEdge ⟨directed, m.id, n.id, width, weight⟩) :=
        (h.addEdge_eq_ok_iff _ _).2 ⟨⟨m, hm, rfl⟩, ⟨n, hn, rfl⟩, rfl⟩
      unfold Edge.new
      rw [noFault_street]
      cases requireDimension .edgeWidth width with
      | error e => rfl
      | ok =>
        cases requireQuantity .edgeWeight weight with
        | error e => rfl
        | ok =>
          simp only [bind, Except.bind, pure, Except.pure, hadd, Except.map, listing, withEdge_edges, Array.toList_push,
            withEdge_nodes, withEdge_behaviors]

theorem addBehavior_listing (h : g.behaviors.Filed) (b : Behavior) :
    g.listing.addBehavior b = (g.addBehavior b).map listing := by
  unfold Listing.addBehavior addBehavior require
  by_cases hold : g.behaviors.contains b.id = true
  · have hnot : ¬ ∀ other ∈ g.listing.behaviors, other.id ≠ b.id := by
      obtain ⟨other, hother, hid⟩ := (h.contains_iff _).1 hold
      exact fun hall => hall other hother hid
    rw [if_neg hnot, if_pos hold]
    rfl
  · have hnew : ∀ other ∈ g.listing.behaviors, other.id ≠ b.id := fun other hother hid =>
      hold ((h.contains_iff _).2 ⟨other, hother, hid⟩)
    rw [if_pos hnew, if_neg hold, file_listing h]
    rfl

theorem Indexed.addInterestPoint_listing (h : g.Indexed) (hf : g.behaviors.Filed) (position : Coordinate)
    (id : BehaviorId) (optional : Bool) :
    g.listing.addInterestPoint position id optional = (g.addInterestPoint position id optional).map listing := by
  unfold Listing.addInterestPoint addInterestPoint
  rw [h.nodeAt_listing, behavior_listing hf]
  cases g.nodeAt position with
  | error e => rfl
  | ok n =>
    cases hb : g.behavior id with
    | error e => rfl
    | ok found =>
      have hid : found.id = id := by
        rw [behavior_eq_ok_iff, IdTable.find?_eq_some_iff] at hb
        exact hf _ hb
      simp only [bind, Except.bind, pure, Except.pure, Except.map, file_listing hf, Behavior.addInterestPoint_id, hid]
      rfl

/-- Setting a share on a node checks its range first and then the kind of the node. -/
theorem setShare_listing {g : Graph} (h : g.Indexed) (hf : g.behaviors.Filed) (s : Share)
    {set : Node → Except NetworkError Node}
    (hset : ∀ n, set n = (do
      require s.percentage.Percentage (.validation (.notPercentage s.percentage))
      require (n.kind.Takes s.generated) (.wrongNodeKind n.position s.wanted)
      return n.withShare s.behavior s.percentage)) :
    g.listing.setShare s = (do let _ ← g.behavior s.behavior; g.changeNodeAt s.position set).map listing := by
  unfold Listing.setShare
  rw [h.nodeAt_listing, behavior_listing hf, h.changeNodeAt_eq]
  cases g.behavior s.behavior with
  | error e => rfl
  | ok b =>
    cases hn : g.nodeAt s.position with
    | error e => rfl
    | ok n =>
      obtain ⟨-, hposition⟩ := (h.nodeAt_eq_ok_iff _ _).1 hn
      simp only [bind, Except.bind, hset, hposition]
      cases require s.percentage.Percentage (.validation (.notPercentage s.percentage)) with
      | error e => rfl
      | ok =>
        cases require (n.kind.Takes s.generated) (.wrongNodeKind s.position s.wanted) with
        | error e => rfl
        | ok => simp only [pure, Except.pure, Except.map, listing, Array.toList_map]

end Graph

theorem Node.setGenerated_eq (n : Node) (id : BehaviorId) (v : Binary64) :
    n.setGenerated id v = (do
      require v.Percentage (.validation (.notPercentage v))
      require (n.kind.Takes true) (.wrongNodeKind n.position .entryPoint)
      return n.withShare id v) := by
  unfold Node.setGenerated
  rw [noFault_percentage]
  obtain ⟨i, geometry, kind⟩ := n
  cases kind <;> rfl

theorem Node.setAbsorbed_eq (n : Node) (id : BehaviorId) (v : Binary64) :
    n.setAbsorbed id v = (do
      require v.Percentage (.validation (.notPercentage v))
      require (n.kind.Takes false) (.wrongNodeKind n.position .exitPoint)
      return n.withShare id v) := by
  unfold Node.setAbsorbed
  rw [noFault_percentage]
  obtain ⟨i, geometry, kind⟩ := n
  cases kind <;> rfl

theorem Graph.listing_withNode (g : Graph) (n : Node) :
    (g.withNode n).listing = { g.listing with nodes := g.listing.nodes ++ [n] } := by
  simp [listing]

/-- While there are ids left, a node is refused for its coordinate only. -/
theorem Graph.Indexed.addNode_next {g : Graph} (h : g.Indexed) (hroom : g.nodes.size < 2 ^ 32) (geometry : Geometry)
    (kind : NodeKind) :
    g.addNode ⟨.ofNat g.nodes.size, geometry, kind⟩ =
      if ∀ n ∈ g.listing.nodes, n.position ≠ geometry.position then
        .ok (g.withNode ⟨.ofNat g.nodes.size, geometry, kind⟩)
      else .error (.duplicateCoordinate geometry.position) := by
  by_cases hfree : ∀ n ∈ g.listing.nodes, n.position ≠ geometry.position
  · rw [if_pos hfree, h.addNode_eq_ok_iff]
    exact ⟨fun n hn => hfree n (Array.mem_toList_iff.2 hn), h.fresh_iff.2 hroom, rfl⟩
  · have hoccupied : g.placeByCoordinate.contains geometry.position = true := by
      rw [h.byCoordinate.contains_iff]
      by_contra hnone
      exact hfree fun n hn hp => hnone ⟨n, Array.mem_toList_iff.1 hn, hp⟩
    rw [if_neg hfree]
    exact if_pos hoccupied

/-! ## Steps -/

namespace Call

variable {call : Call} {b : Builder}

/-- Forgetting before a call or after it comes to the same. -/
def Refines (call : Call) (b : Builder) : Prop :=
  Listing.step call b.listing = ((call.step b).1.map Answer.reply, (call.step b).2.listing)

theorem step_of_update {change : Graph → Except NetworkError Graph}
    (hrun : call.run b = (do Builder.update change; return .done : Build Answer) b) :
    call.step b = match b.changed change with
      | .ok g => (.ok .done, { b with product := some g })
      | .error e => (.error e, b) := by
  unfold step
  rw [hrun.trans (Builder.map_run (Builder.update change) (fun _ => Answer.done) b), Builder.update_run]
  cases b.changed change <;> rfl

theorem refines_of_update {change : Graph → Except NetworkError Graph} {how : Listing → Except NetworkError Listing}
    (hrun : call.run b = (do Builder.update change; return .done : Build Answer) b)
    (hanswer : Listing.answer b.listing call = Listing.change b.listing how)
    (hchange : ∀ g, b.product = some g → how g.listing = (change g).map Graph.listing) : Refines call b := by
  unfold Refines Listing.step
  rw [hanswer, step_of_update hrun]
  unfold Listing.change Builder.changed Builder.listing
  cases hp : b.product with
  | none => simp [started, bind, Except.bind, Except.map, hp]
  | some g =>
    simp only [Option.map_some, started, bind, Except.bind, hchange g hp]
    cases change g with
    | error e => simp [Except.map, hp]
    | ok g' => rfl

theorem step_of_node {geometry : Geometry} {kind : NodeKind} (asks : call.node? = some (geometry, kind)) :
    call.step b = match noFault (geometry.fault?.or kind.rateFault?) with
      | .error e => (.error e, b)
      | .ok () => match b.changed (·.addNode ⟨b.nextId, geometry, kind⟩) with
        | .error e => (.error e, b)
        | .ok g => (.ok (.node b.nextId), { product := some g, nextId := b.nextId + 1 }) := by
  have hrun : call.run b = (do
      return .node (← Builder.place (do
        noFault (geometry.fault?.or kind.rateFault?)
        return ⟨b.nextId, geometry, kind⟩)) : Build Answer) b := by
    cases call <;> cases asks
    · rw [NodeKind.rateFault?, Option.or_none]
      rfl
    · rfl
    · rfl
  unfold step
  rw [hrun, Builder.map_run, Builder.place_run]
  cases noFault (geometry.fault?.or kind.rateFault?) with
  | error e => rfl
  | ok =>
    simp only [bind, Except.bind, pure, Except.pure]
    cases b.changed (·.addNode ⟨b.nextId, geometry, kind⟩) <;> rfl

/-- The next id is the length of the list of nodes. -/
theorem refines_of_node (h : b.Recorded) (hroom : b.size < 2 ^ 32) {geometry : Geometry} {kind : NodeKind}
    (asks : call.node? = some (geometry, kind)) : Refines call b := by
  have hanswer : Listing.answer b.listing call = place b.listing geometry kind := by
    cases call <;> cases asks <;> rfl
  unfold Refines Listing.step
  rw [hanswer, step_of_node asks, noFault_or, noFault_geometry, noFault_rate]
  unfold place Builder.changed
  cases requireGeometry geometry with
  | error e => rfl
  | ok =>
    cases requireRate kind with
    | error e => rfl
    | ok =>
      cases hp : b.product with
      | none => simp [Builder.listing, started, bind, Except.bind, Except.map, hp]
      | some g =>
        obtain ⟨past, hg⟩ := h g hp
        have hsize : g.nodes.size < 2 ^ 32 := by simpa [Builder.size, hp] using hroom
        simp only [Builder.listing, hp, Option.map_some, started, bind, Except.bind, hg.nextId,
          hg.indexed.addNode_next hsize, require]
        by_cases hfree : ∀ n ∈ g.listing.nodes, n.position ≠ geometry.position
        · simp only [if_pos hfree, Except.map, Option.map_some, Graph.listing_withNode]
          rfl
        · simp [if_neg hfree, Except.map, hp]

theorem refines_finalize (h : b.Recorded) : Refines .finalize b := by
  unfold Refines Listing.step
  cases hp : b.product with
  | none =>
    have hstep : step .finalize b = (.error .builderNotStarted, b) := by
      rw [step_eq_error_iff]
      exact (Builder.map_run Builder.finalize Answer.graph b).trans (by rw [Builder.finalize_run, hp])
    rw [hstep, Builder.listing, hp]
    rfl
  | some g =>
    obtain ⟨past, hg⟩ := h g hp
    have hconnected : g.listing.Connected ↔ g.isConnected = true := by
      rw [hg.sound.isConnected_iff]
      simp only [Listing.Connected, Graph.Connected, Graph.listing, Array.mem_toList_iff]
    rw [step_finalize hp, Builder.listing, hp]
    simp only [Option.map_some, Listing.answer, started, bind, Except.bind, require, hconnected]
    by_cases hc : g.isConnected = true
    · rw [if_pos hc, if_pos hc]
      rfl
    · rw [if_neg hc, if_neg hc]
      simp [Except.map, Builder.listing, hp]

/-- While there are ids left, a builder and the lists it stands for answer every call alike and stay alike. -/
theorem refines_step (h : b.Recorded) (hroom : b.size < 2 ^ 32) (call : Call) : Refines call b := by
  have hfiled {g : Graph} (hp : b.product = some g) : g.Indexed ∧ g.behaviors.Filed := by
    obtain ⟨past, hg⟩ := h g hp
    exact ⟨hg.indexed, hg.sound.keys⟩
  cases call with
  | start => rfl
  | regularNode geometry | entryPoint geometry flow | exitPoint geometry rate => exact refines_of_node h hroom rfl
  | street directed source target width weight =>
    exact refines_of_update rfl rfl fun g hp => (hfiled hp).1.addStreet_listing _ _ _ _ _
  | behavior id kind => exact refines_of_update rfl rfl fun g hp => Graph.addBehavior_listing (hfiled hp).2 _
  | interestPoint position id optional =>
    exact refines_of_update rfl rfl fun g hp => (hfiled hp).1.addInterestPoint_listing (hfiled hp).2 _ _ _
  | generated position id percentage =>
    exact refines_of_update rfl rfl fun g hp =>
      Graph.setShare_listing (hfiled hp).1 (hfiled hp).2 _ fun n => n.setGenerated_eq _ _
  | absorbed position id percentage =>
    exact refines_of_update rfl rfl fun g hp =>
      Graph.setShare_listing (hfiled hp).1 (hfiled hp).2 _ fun n => n.setAbsorbed_eq _ _
  | finalize => exact refines_finalize h

/-! ## Runs -/

theorem runAll_refines (calls : List Call) {b : Builder} (h : b.Recorded)
    (room : ∀ before, before <+: calls → (runAll before b).2.size < 2 ^ 32) :
    Listing.runAll calls b.listing =
      ((runAll calls b).1.map (Except.map Answer.reply), (runAll calls b).2.listing) := by
  induction calls generalizing b with
  | nil => rfl
  | cons call rest ih =>
    have hstep : Listing.step call b.listing = ((call.step b).1.map Answer.reply, (call.step b).2.listing) :=
      refines_step h (room [] List.nil_prefix) call
    have hrest := ih (recorded_step h call) fun before hb => room (call :: before) (List.cons_prefix_cons.2 ⟨rfl, hb⟩)
    rw [Listing.runAll, hstep, runAll_cons]
    simp only [hrest, List.map_cons]

/-- As long as no product comes to have `2 ^ 32` nodes, a run has the same outcomes, errors included, and ends with the
same network as with a builder that keeps lists only. After each of its steps, whatever is looked up in the product or
in a graph that was handed over is what a scan of the lists finds. -/
theorem runAll_listing (calls : List Call)
    (room : ∀ before, before <+: calls → (runAll before {}).2.size < 2 ^ 32) :
    Listing.runAll calls none = ((runAll calls {}).1.map (Except.map Answer.reply), (runAll calls {}).2.listing) ∧
      ∀ before, before <+: calls → ∀ g,
        (runAll before {}).2.product = some g ∨ Except.ok (.graph g) ∈ (runAll before {}).1 →
          (∀ position, g.nodeAt position = g.listing.nodeAt position) ∧ (∀ id, g.node id = g.listing.node id) ∧
            ∀ id, g.behavior id = g.listing.behavior id := by
  refine ⟨runAll_refines calls Builder.recorded_new room, fun before _ g hg => ?_⟩
  obtain ⟨b, past, hb⟩ := Graph.Made.holds ⟨before, hg⟩
  refine ⟨fun position => ?_, fun id => ?_, fun id => ?_⟩
  · exact (hb.indexed.nodeAt_listing position).symm
  · exact (hb.indexed.node_listing id).symm
  · exact (Graph.behavior_listing hb.sound.keys id).symm

/-- The run of `crossing`, with its failures and its two networks: the second one has its first node. -/
theorem runAll_listing_crossing :
    (∀ before, before <+: crossing → (runAll before {}).2.size < 2 ^ 32) ∧
      Listing.runAll crossing none =
        ((runAll crossing {}).1.map (Except.map Answer.reply), (runAll crossing {}).2.listing) ∧
      (runAll crossing {}).2.listing = some { nodes := [⟨0, .at 7 (-7), .regular⟩] } := by
  have room : ∀ before, before <+: crossing → (runAll before {}).2.size < 2 ^ 32 := by
    simp only [← List.mem_inits]
    decide +kernel
  exact ⟨room, (runAll_listing crossing room).1, by decide +kernel⟩

end Call

end BeaconMap
