import BeaconMap.Proofs.Network.Refinement
import BeaconMap.Proofs.Network.Succeeded
import BeaconMap.Proofs.Script.Emission
/-!
# What never fails

Some checks guard against what the invariants of a network rule out: a second node with an id, a node looked up by an id
that no node has, a place in an index past the nodes, an edge that lacks an end. A builder that keeps lists only makes no
such check, and a builder with indexes answers as it does, so these checks never fail in a run, and the counter of ids never
wraps around (`Call.runAll_unfailing`). What is left to fail when a script is written is its template, or a file.
-/

namespace BeaconMap

open Connectivity

/-- The error of a check that only a broken network fails. -/
def NetworkError.Defensive : NetworkError → Prop
  | .duplicateId .node _ | .noSuchNodeId _ => True
  | _ => False

/-- The result is not the error of such a check. -/
def Foreseen {α : Type} (x : Except NetworkError α) : Prop := ∀ e, x = .error e → ¬ e.Defensive

namespace Foreseen

variable {α β : Type}

theorem ok (a : α) : Foreseen (.ok a) := nofun

theorem error {e : NetworkError} (h : ¬ e.Defensive) : Foreseen (.error e : Except NetworkError α) := by
  rintro _ ⟨⟩
  exact h

theorem bind {x : Except NetworkError α} {f : α → Except NetworkError β} (hx : Foreseen x) (hf : ∀ a, Foreseen (f a)) :
    Foreseen (x >>= f) := by
  intro e he
  rcases (bind_eq_error_iff x f e).1 he with he | ⟨a, -, he⟩
  · exact hx e he
  · exact hf a e he

end Foreseen

/-! ## A builder that keeps lists

Its answers are told by scans of the lists, which do not ask for ids. -/

namespace Listing

theorem foreseen_require (p : Prop) [Decidable p] {e : NetworkError} (h : ¬ e.Defensive) : Foreseen (require p e) := by
  unfold require
  split
  · exact .ok ()
  · exact .error h

theorem foreseen_requireGeometry (g : Geometry) : Foreseen (requireGeometry g) :=
  .bind (foreseen_require _ nofun) fun _ => .bind (foreseen_require _ nofun) fun _ =>
    .bind (foreseen_require _ nofun) fun _ => foreseen_require _ nofun

theorem foreseen_requireRate (kind : NodeKind) : Foreseen (requireRate kind) := by
  cases kind with
  | regular => exact .ok ()
  | entryPoint _ _ | exitPoint _ _ => exact foreseen_require _ nofun

theorem foreseen_started (held : Option Listing) : Foreseen (started held) := by
  cases held with
  | none => exact .error nofun
  | some l => exact .ok l

section
variable (l : Listing)

theorem foreseen_nodeAt (position : Coordinate) : Foreseen (l.nodeAt position) := by
  unfold nodeAt
  split
  · exact .ok _
  · exact .error nofun

theorem foreseen_behavior (id : BehaviorId) : Foreseen (l.behavior id) := by
  unfold behavior
  split
  · exact .ok _
  · exact .error nofun

theorem foreseen_addStreet (directed : Bool) (source target : Coordinate) (width : Int32) (weight : Binary64) :
    Foreseen (l.addStreet directed source target width weight) :=
  .bind (l.foreseen_nodeAt _) fun _ => .bind (l.foreseen_nodeAt _) fun _ =>
    .bind (foreseen_require _ nofun) fun _ => .bind (foreseen_require _ nofun) fun _ => .ok _

theorem foreseen_addBehavior (b : Behavior) : Foreseen (l.addBehavior b) :=
  .bind (foreseen_require _ nofun) fun _ => .ok _

theorem foreseen_addInterestPoint (position : Coordinate) (id : BehaviorId) (optional : Bool) :
    Foreseen (l.addInterestPoint position id optional) :=
  .bind (l.foreseen_nodeAt _) fun _ => .bind (l.foreseen_behavior _) fun _ => .ok _

theorem foreseen_setShare (s : Share) : Foreseen (l.setShare s) :=
  .bind (l.foreseen_behavior _) fun _ => .bind (l.foreseen_nodeAt _) fun _ =>
    .bind (foreseen_require _ nofun) fun _ => .bind (foreseen_require _ nofun) fun _ => .ok _

end

section
variable (held : Option Listing)

theorem foreseen_place (geometry : Geometry) (kind : NodeKind) : Foreseen (place held geometry kind) :=
  .bind (foreseen_requireGeometry geometry) fun _ => .bind (foreseen_requireRate kind) fun _ =>
    .bind (foreseen_started held) fun _ => .bind (foreseen_require _ nofun) fun _ => .ok _

theorem foreseen_change {how : Listing → Except NetworkError Listing} (h : ∀ l, Foreseen (how l)) :
    Foreseen (change held how) :=
  .bind (foreseen_started held) fun l => .bind (h l) fun _ => .ok _

theorem foreseen_answer (call : Call) : Foreseen (answer held call) := by
  cases call with
  | start => exact .ok _
  | regularNode _ | entryPoint _ _ | exitPoint _ _ => exact foreseen_place held _ _
  | street directed source target width weight => exact foreseen_change held fun l => l.foreseen_addStreet _ _ _ _ _
  | behavior id kind => exact foreseen_change held fun l => l.foreseen_addBehavior _
  | interestPoint position id optional => exact foreseen_change held fun l => l.foreseen_addInterestPoint _ _ _
  | generated _ _ _ | absorbed _ _ _ => exact foreseen_change held fun l => l.foreseen_setShare _
  | finalize =>
    exact .bind (foreseen_started held) fun _ => .bind (foreseen_require _ nofun) fun _ => .ok _

theorem foreseen_step (call : Call) : Foreseen (step call held).1 := by
  have hanswer := foreseen_answer held call
  unfold step
  cases hc : answer held call with
  | ok reply => exact .ok _
  | error e =>
    rw [hc] at hanswer
    exact .error (hanswer e rfl)

end

theorem foreseen_runAll (calls : List Call) (held : Option Listing) :
    ∀ outcome ∈ (runAll calls held).1, Foreseen outcome := by
  induction calls generalizing held with
  | nil => nofun
  | cons call rest ih =>
    intro outcome h
    rcases List.mem_cons.1 h with rfl | h
    · exact foreseen_step held call
    · exact ih _ outcome h

end Listing

/-! ## Scripts -/

namespace Script

theorem preamble_error {sentinel : String} {stream : LineStream} {e : ScriptError}
    (h : preamble sentinel stream = .error e) : e = .malformedTemplate sentinel ∨ ∃ failure, e = .file failure := by
  induction stream with
  | ended =>
    cases h
    exact .inl rfl
  | failed failure =>
    cases h
    exact .inr ⟨failure, rfl⟩
  | line bytes rest ih =>
    rw [preamble] at h
    split at h
    · cases h
    · rcases (bind_eq_error_iff _ _ _).1 h with h | ⟨_, -, h⟩
      · exact ih h
      · cases h

theorem postamble_error {stream : LineStream} {e : ScriptError} (h : postamble stream = .error e) :
    ∃ failure, e = .file failure := by
  induction stream with
  | ended => cases h
  | failed failure =>
    cases h
    exact ⟨failure, rfl⟩
  | line bytes rest ih =>
    rcases (bind_eq_error_iff _ _ _).1 h with h | ⟨_, -, h⟩
    · exact ih h
    · cases h

section
variable {g : Graph} {block : List String} (hblock : g.mapBlock = .ok block) {sentinel : String} {template : Source}
  {e : ScriptError}
include hblock

/-- With a block, only the template can keep a script from being made. -/
theorem render_error (h : render sentinel g template = .error e) :
    e = .malformedTemplate sentinel ∨ ∃ failure, e = .file failure := by
  rcases (bind_eq_error_iff _ _ _).1 h with h | ⟨⟨before, stream⟩, -, h⟩
  · exact preamble_error h
  dsimp only at h
  rw [hblock] at h
  rcases (bind_eq_error_iff _ _ _).1 h with h | ⟨_, -, h⟩
  · cases h
  · rcases (bind_eq_error_iff _ _ _).1 h with h | ⟨_, -, h⟩
    · exact .inr (postamble_error h)
    · cases h

theorem emit_error {sink : Sink} (h : (emit sentinel g template sink).1 = .error e) :
    e = .malformedTemplate sentinel ∨ ∃ failure, e = .file failure := by
  unfold emit at h
  cases hrender : render sentinel g template with
  | error e' =>
    rw [hrender] at h
    cases h
    exact render_error hblock hrender
  | ok script =>
    rw [hrender] at h
    dsimp only at h
    rcases sink.room_or_short script with hroom | ⟨c, hc, hshort⟩
    · rw [(Sink.write_of_le hroom).1] at h
      cases h
    · rw [(Sink.write_of_lt hc hshort).1] at h
      cases h
      exact .inr ⟨_, rfl⟩

end

end Script

/-! ## Graphs -/

/-- Nothing that is looked up in the graph is missing. -/
structure Graph.Intact (g : Graph) : Prop where
  byCoordinate : ∀ (position : Coordinate) (place : Nat), g.placeByCoordinate[position]? = some place →
    place < g.nodes.size
  byId : ∀ (id : NodeId) (place : Nat), g.placeById[id]? = some place → place < g.nodes.size
  /-- When the edges are joined one after the other, both ends of each have a label. -/
  ends : ∀ before e after, g.edges.toList = before ++ e :: after →
    ∃ source target, (before.foldl join (alone (g.nodes.toList.map Node.id))).lookup e.source = some source ∧
      (before.foldl join (alone (g.nodes.toList.map Node.id))).lookup e.target = some target
  block : ∃ lines, g.mapBlock = .ok lines
  render : ∀ sentinel template e, Script.render sentinel g template = .error e →
    e = .malformedTemplate sentinel ∨ ∃ failure, e = .file failure
  emit : ∀ sentinel template sink e, (Script.emit sentinel g template sink).1 = .error e →
    e = .malformedTemplate sentinel ∨ ∃ failure, e = .file failure

theorem Graph.Leads.lt_size {κ : Type} [Ord κ] {index : Std.TreeMap κ Nat} {nodes : Array Node} {key : Node → κ}
    (h : Leads index nodes key) {k : κ} {i : Nat} (hi : index[k]? = some i) : i < nodes.size := by
  obtain ⟨n, hn, -⟩ := (h k i).1 hi
  exact (Array.getElem?_eq_some_iff.1 hn).1

theorem Graph.Made.intact {g : Graph} (h : g.Made) : g.Intact where
  byCoordinate _ _ := h.indexed.byCoordinate.lt_size
  byId _ _ := h.indexed.byId.lt_size
  ends before e after he := by
    obtain ⟨⟨m, hm, hsource⟩, ⟨n, hn, htarget⟩⟩ := h.sound.ends e (Array.mem_toList_iff.1 (by simp [he]))
    have hlabel {k : Node} (hk : k ∈ g.nodes) := exists_label (g.nodes.toList.map Node.id) before
      (List.mem_map_of_mem (f := Node.id) (Array.mem_toList_iff.2 hk))
    obtain ⟨source, hs⟩ := hlabel hm
    obtain ⟨target, ht⟩ := hlabel hn
    exact ⟨source, target, hsource ▸ hs, htarget ▸ ht⟩
  block := ⟨_, h.mapBlock_eq⟩
  render _ _ _ := Script.render_error h.mapBlock_eq
  emit _ _ _ _ := Script.emit_error h.mapBlock_eq

/-! ## Runs -/

namespace Call

theorem placed_append (outcomes more : List (Except NetworkError Answer)) :
    placed (outcomes ++ more) = placed outcomes + placed more := List.countP_append

/-- In a run that places few nodes no product on the way has many. -/
theorem size_lt_of_placed {calls : List Call} (few : placed (runAll calls {}).1 < 2 ^ 32) {before : List Call}
    (hb : before <+: calls) : (runAll before {}).2.size < 2 ^ 32 := by
  obtain ⟨after, rfl⟩ := hb
  have hsize := size_runAll before Builder.recorded_new
  rw [runAll_append, placed_append] at few
  have hnew : Builder.size {} = 0 := rfl
  omega

/-- A node that is placed takes an id from the counter, which goes up by one. -/
theorem nextId_of_placed {b b' : Builder} (h : b.Recorded) {call : Call} {id : NodeId}
    (hstep : call.step b = (.ok (.node id), b')) (hroom : b'.size < 2 ^ 32) :
    b'.nextId.toNat = b.nextId.toNat + 1 := by
  cases (run_eq_ok_iff h.indexed _ _ _).1 ((step_eq_ok_iff ..).1 hstep) with
  | @node _ g _ _ _ holds =>
    obtain ⟨past, hg⟩ := h g holds
    have hsize : g.nodes.size + 1 < 2 ^ 32 := by simpa [Builder.size] using hroom
    rw [hg.nextId, ← UInt32.ofNat_one, ← UInt32.ofNat_add, UInt32.toNat_ofNat_of_lt' hsize,
      UInt32.toNat_ofNat_of_lt' (Nat.lt_of_succ_lt hsize)]

/-- In a run that places fewer than `2 ^ 32` nodes no call reports what only a broken network could show, each node that
is placed moves the counter up by one, and nothing that is looked up in a product or in a graph that was handed over on the
way is missing. -/
theorem runAll_unfailing (calls : List Call) (few : placed (runAll calls {}).1 < 2 ^ 32) :
    (∀ e, .error e ∈ (runAll calls {}).1 → ¬ e.Defensive) ∧
      (∀ before call, before ++ [call] <+: calls → ∀ id b',
        call.step (runAll before {}).2 = (.ok (.node id), b') →
          b'.nextId.toNat = (runAll before {}).2.nextId.toNat + 1) ∧
      ∀ before, before <+: calls → ∀ g,
        (runAll before {}).2.product = some g ∨ Except.ok (.graph g) ∈ (runAll before {}).1 → g.Intact := by
  have room (before : List Call) (hb : before <+: calls) := size_lt_of_placed few hb
  refine ⟨fun e he => ?_, fun before call hb id b' hstep => ?_, fun before _ g hg => Graph.Made.intact ⟨before, hg⟩⟩
  · have hmem := List.mem_map_of_mem (f := Except.map Answer.reply) he
    have hlists : (Listing.runAll calls none).1 = (runAll calls {}).1.map (Except.map Answer.reply) :=
      congrArg Prod.fst (runAll_refines calls Builder.recorded_new room)
    rw [← hlists] at hmem
    exact Listing.foreseen_runAll calls _ _ hmem e rfl
  · have hlast : (runAll (before ++ [call]) {}).2 = b' := by
      rw [runAll_append, runAll_cons, hstep]
      rfl
    exact nextId_of_placed (recorded_runAll before Builder.recorded_new).1 hstep (hlast ▸ room _ hb)

/-- In the run of `crossing` four calls fail, none of them on a defensive check. The second network starts a new count, and
both networks are intact. -/
theorem runAll_unfailing_crossing :
    placed (runAll crossing {}).1 < 2 ^ 32 ∧
      (.error (.duplicateCoordinate ⟨4, 0⟩) ∈ (runAll crossing {}).1 ∧
        ¬ (NetworkError.duplicateCoordinate ⟨4, 0⟩).Defensive) ∧
      (∃ b', (Call.regularNode (.at 7 (-7))).step (runAll (crossing.take 14) {}).2 = (.ok (.node 0), b') ∧
        b'.nextId.toNat = 0 + 1) ∧
      (∃ g, (runAll crossing {}).2.product = some g ∧ g.Intact) ∧
      ∃ g, Except.ok (.graph g) ∈ (runAll crossing {}).1 ∧ g.Intact := by
  have few : placed (runAll crossing {}).1 < 2 ^ 32 := by decide +kernel
  obtain ⟨herrors, hcounter, hgraphs⟩ := runAll_unfailing crossing few
  have hmem : .error (.duplicateCoordinate ⟨4, 0⟩) ∈ (runAll crossing {}).1 := by
    -- Answers cannot be compared by computation, so they are forgotten first.
    have hforgotten : .error (.duplicateCoordinate ⟨4, 0⟩) ∈ (runAll crossing {}).1.map (Except.map fun _ => ()) := by
      decide +kernel
    obtain ⟨outcome, houtcome, he⟩ := List.mem_map.1 hforgotten
    exact error_of_map _ he ▸ houtcome
  have hplaced : ∃ b', (Call.regularNode (.at 7 (-7))).step (runAll (crossing.take 14) {}).2 = (.ok (.node 0), b') := by
    have hreply : ((Call.regularNode (.at 7 (-7))).step (runAll (crossing.take 14) {}).2).1.map Answer.reply =
        .ok (.node 0) := by decide +kernel
    rcases hstep : (Call.regularNode (.at 7 (-7))).step (runAll (crossing.take 14) {}).2 with ⟨outcome, b'⟩
    rw [hstep] at hreply
    cases outcome with
    | error e => cases hreply
    | ok a =>
      cases a with
      | node id => cases hreply; exact ⟨b', rfl⟩
      | done | graph g => cases hreply
  refine ⟨few, ⟨hmem, herrors _ hmem⟩, ?_, ?_, ?_⟩
  · obtain ⟨b', hstep⟩ := hplaced
    have hzero : (runAll (crossing.take 14) {}).2.nextId.toNat = 0 := by decide +kernel
    exact ⟨b', hstep, hzero ▸ hcounter (crossing.take 14) _ ⟨[], rfl⟩ 0 b' hstep⟩
  · obtain ⟨g, hg⟩ : ∃ g, (runAll crossing {}).2.product = some g := Option.isSome_iff_exists.1 (by decide +kernel)
    exact ⟨g, hg, hgraphs crossing List.prefix_rfl g (.inl hg)⟩
  · obtain ⟨g, hg, -⟩ := exists_graph_mem (runAll crossing {}).1 (fun _ => true) (by decide +kernel)
    exact ⟨g, hg, hgraphs crossing List.prefix_rfl g (.inr hg)⟩

end Call

end BeaconMap
