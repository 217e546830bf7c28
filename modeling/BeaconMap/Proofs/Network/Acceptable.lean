import BeaconMap.Proofs.Network.Connected
import BeaconMap.Proofs.Network.Replay
/-!
# Which descriptions are accepted

`Description.Acceptable` lists what a description must say, without mention of a builder: `applyTo_ok_iff`. All but
the last item of the list is what it takes to place the description (`fits_iff_placeable`). The last is that its
nodes are connected, which is told from the described coordinates just as from the ids of the nodes
(`Graph.Records.chain_iff`).
-/

namespace BeaconMap

open History

/-- What a described node must look like. -/
structure DescribedNode.Proper (n : DescribedNode) : Prop where
  geometry : n.geometry.Valid
  regular : n.kind = .regular → n.rate.Zero ∧ n.limit = 0 ∧ n.percentages = []
  entry : n.kind = .entry → n.rate.NonNegative
  exit : n.kind = .exit → n.rate.NonNegative ∧ n.limit = 0

namespace Description

/-- What a description must say for its items to be placed. -/
structure Placeable (d : Description) : Prop where
  behaviorIds : (d.behaviors.map DescribedBehavior.id).Nodup
  positions : (d.nodes.map DescribedNode.position).Nodup
  nodes : ∀ n ∈ d.nodes, n.Proper
  percentages : ∀ n ∈ d.nodes, ∀ s ∈ n.percentages,
    s.behavior ∈ d.behaviors.map DescribedBehavior.id ∧ s.percentage.Percentage
  interests : ∀ b ∈ d.behaviors, ∀ c ∈ b.core ++ b.optional, c ∈ d.nodes.map DescribedNode.position
  ends : ∀ e ∈ d.edges,
    e.source ∈ d.nodes.map DescribedNode.position ∧ e.target ∈ d.nodes.map DescribedNode.position
  streets : ∀ e ∈ d.edges, 0 < e.width ∧ e.weight.NonNegative

/-- A described edge leads from one coordinate to the other, along its direction or against it. -/
def Linked (d : Description) (a b : Coordinate) : Prop :=
  ∃ e ∈ d.edges, e.source = a ∧ e.target = b ∨ e.source = b ∧ e.target = a

/-- What a description must say to be accepted. -/
structure Acceptable (d : Description) : Prop extends d.Placeable where
  connected : ∀ m ∈ d.nodes, ∀ n ∈ d.nodes, Relation.ReflTransGen d.Linked m.position n.position

end Description

/-! ## Placing -/

namespace DescribedNode

theorem misplacedField?_eq_none_iff (n : DescribedNode) :
    n.misplacedField? = none ↔
      (n.kind = .regular → n.rate.Zero ∧ n.limit = 0) ∧ (n.kind = .exit → n.limit = 0) := by
  unfold misplacedField?
  cases n.kind with
  | regular =>
    rw [← Binary64.isZero_iff]
    by_cases hr : n.rate.isZero = true <;> by_cases hl : n.limit = 0 <;> simp [hr, hl]
  | entry => simp
  | exit => simp

theorem rate_nonNegative_iff (n : DescribedNode) :
    (∀ r, (n.kindWith .empty).rate? = some r → r.NonNegative) ↔
      (n.kind = .entry → n.rate.NonNegative) ∧ (n.kind = .exit → n.rate.NonNegative) := by
  unfold kindWith
  cases n.kind <;> simp [NodeKind.rate?]

end DescribedNode

namespace Description

variable {d : Description}

theorem misfit?_eq_none_iff (d : Description) :
    (∀ item ∈ d.items, item.misfit? = none) ↔ ∀ n ∈ d.nodes, n.misplacedField? = none := by
  simp only [items, List.forall_mem_append, List.forall_mem_map, List.forall_mem_flatMap]
  simp [Item.misfit?]

/-- No two described nodes share a coordinate. -/
theorem node_unique (h : d.positions.Nodup) {m n : DescribedNode} (hm : m ∈ d.nodes) (hn : n ∈ d.nodes)
    (he : m.position = n.position) : m = n :=
  List.inj_on_of_nodup_map h hm hn he

/-- The shares of a described node are taken unless it is regular. -/
theorem takes_calls (h : d.positions.Nodup) {n : DescribedNode} (hn : n ∈ d.nodes) :
    Takes d.calls n.position n.generates ↔ n.kind ≠ .regular := by
  rw [← n.takes_iff, Takes, nodes_calls]
  constructor
  · rintro ⟨x, hx, hp, ht⟩
    obtain ⟨m, hm, rfl⟩ := List.mem_map.1 hx
    exact node_unique h hm hn hp ▸ ht
  · intro ht
    exact ⟨_, List.mem_map_of_mem hn, rfl, ht⟩

/-- A description can be placed exactly when it is placeable. -/
theorem fits_iff_placeable (d : Description) (few : d.nodes.length ≤ 2 ^ 32) : d.Fits ↔ d.Placeable := by
  have hfits : d.Fits ↔ (∀ item ∈ d.items, item.misfit? = none) ∧ Legal [] d.calls := Iff.rfl
  rw [hfits, misfit?_eq_none_iff, legal_calls_iff d few, forall_laterCalls]
  simp only [Call.fits_share_iff _ (Item.share?_share _ _), DescribedNode.misplacedField?_eq_none_iff,
    DescribedNode.rate_nonNegative_iff]
  constructor
  · rintro ⟨hmisfit, hb, hp, hnode, hshare, hinterest, hedge⟩
    -- The only check that keeps shares from a regular node is that no entry point stands at its coordinate.
    have hregular : ∀ n ∈ d.nodes, n.kind = .regular → n.percentages = [] := by
      intro n hn hk
      by_contra hne
      obtain ⟨s, hs⟩ := List.exists_mem_of_ne_nil _ hne
      exact (takes_calls hp hn).1 (hshare n hn s hs).2.2 hk
    refine ⟨hb, hp, fun n hn => ⟨(hnode n hn).1, fun hk => ?_, (hnode n hn).2.1, fun hk => ?_⟩, ?_, ?_, ?_, ?_⟩
    · obtain ⟨hrate, hlimit⟩ := (hmisfit n hn).1 hk
      exact ⟨hrate, hlimit, hregular n hn hk⟩
    · exact ⟨(hnode n hn).2.2 hk, (hmisfit n hn).2 hk⟩
    · intro n hn s hs
      obtain ⟨hreg, hper, -⟩ := hshare n hn s hs
      rw [registered_calls] at hreg
      exact ⟨hreg, hper⟩
    · intro b hb' c hc
      have hpoint : ∃ optional, c ∈ b.points optional := by
        rcases List.mem_append.1 hc with hc | hc
        · exact ⟨false, hc⟩
        · exact ⟨true, hc⟩
      obtain ⟨optional, hc⟩ := hpoint
      have hpos := (hinterest b hb' optional c hc).1
      rwa [positions_calls] at hpos
    · intro e he
      obtain ⟨hs, ht, -⟩ := hedge e he
      rw [positions_calls] at hs ht
      exact ⟨hs, ht⟩
    · exact fun e he => (hedge e he).2.2
  · intro h
    refine ⟨fun n hn => ⟨fun hk => ?_, fun hk => ((h.nodes n hn).exit hk).2⟩, h.behaviorIds, h.positions,
      fun n hn => ⟨(h.nodes n hn).geometry, (h.nodes n hn).entry, fun hk => ((h.nodes n hn).exit hk).1⟩, ?_, ?_, ?_⟩
    · obtain ⟨hrate, hlimit, -⟩ := (h.nodes n hn).regular hk
      exact ⟨hrate, hlimit⟩
    · intro n hn s hs
      obtain ⟨hreg, hper⟩ := h.percentages n hn s hs
      rw [registered_calls, takes_calls h.positions hn]
      refine ⟨hreg, hper, fun hk => ?_⟩
      rw [((h.nodes n hn).regular hk).2.2] at hs
      cases hs
    · intro b hb optional c hc
      have hmem : c ∈ b.core ++ b.optional := by
        cases optional with
        | false => exact List.mem_append_left _ hc
        | true => exact List.mem_append_right _ hc
      show c ∈ History.positions d.calls ∧ b.id ∈ registered d.calls
      rw [positions_calls, registered_calls]
      exact ⟨h.interests b hb c hmem, List.mem_map_of_mem hb⟩
    · intro e he
      show e.source ∈ History.positions d.calls ∧ e.target ∈ History.positions d.calls ∧ _
      rw [positions_calls]
      exact ⟨(h.ends e he).1, (h.ends e he).2, h.streets e he⟩

end Description

/-! ## Connected coordinates -/

/-- Where every step of `R` is followed by a step of `S`, every chain is followed by a chain. -/
theorem follow_chain {α β : Type} {R : α → α → Prop} {S : β → β → Prop} {T : α → β → Prop}
    (h : ∀ a a' b, R a a' → T a b → ∃ b', S b b' ∧ T a' b') {a a' : α} (hc : Relation.ReflTransGen R a a') {b : β}
    (hb : T a b) : ∃ b', Relation.ReflTransGen S b b' ∧ T a' b' := by
  induction hc with
  | refl => exact ⟨b, .refl, hb⟩
  | tail _ hr ih =>
    obtain ⟨c, hbc, hc⟩ := ih
    obtain ⟨c', hs, hc'⟩ := h _ _ _ hr hc
    exact ⟨c', hbc.tail hs, hc'⟩

namespace Graph

variable {g : Graph} {d : Description} (h : g.Records d.calls) (hx : g.Indexed)
include h hx

theorem Records.linked_positions {a b : NodeId} {c : Coordinate} (hl : Connectivity.Linked g.edges.toList a b)
    (hc : g.StandsAt a c) : ∃ c', d.Linked c c' ∧ g.StandsAt b c' := by
  obtain ⟨e, he, hl⟩ := hl
  obtain ⟨asked, ha, hj⟩ := h.edge_asked (Array.mem_toList_iff.1 he)
  rw [Description.edges_calls] at ha
  rcases hl with ⟨rfl, rfl⟩ | ⟨rfl, rfl⟩
  · exact ⟨asked.target, ⟨asked, ha, .inl ⟨hx.position_unique hj.source hc, rfl⟩⟩, hj.target⟩
  · exact ⟨asked.source, ⟨asked, ha, .inr ⟨rfl, hx.position_unique hj.target hc⟩⟩, hj.source⟩

theorem Records.linked_ids {c c' : Coordinate} {a : NodeId} (hl : d.Linked c c') (ha : g.StandsAt a c) :
    ∃ b, Connectivity.Linked g.edges.toList a b ∧ g.StandsAt b c' := by
  obtain ⟨asked, hasked, hl⟩ := hl
  rw [← Description.edges_calls] at hasked
  obtain ⟨e, he, hj⟩ := h.edge_made hasked
  have he := Array.mem_toList_iff.2 he
  rcases hl with ⟨rfl, rfl⟩ | ⟨rfl, rfl⟩
  · exact ⟨e.target, ⟨e, he, .inl ⟨hx.id_unique hj.source ha, rfl⟩⟩, hj.target⟩
  · exact ⟨e.source, ⟨e, he, .inr ⟨rfl, hx.id_unique hj.target ha⟩⟩, hj.source⟩

/-- Chains of edges between nodes are chains of described edges between their coordinates. -/
theorem Records.chain_iff {m n : Node} (hm : m ∈ g.nodes) (hn : n ∈ g.nodes) :
    Connectivity.Chain g.edges.toList m.id n.id ↔ Relation.ReflTransGen d.Linked m.position n.position := by
  have hmst : g.StandsAt m.id m.position := ⟨m, hm, rfl, rfl⟩
  have hnst : g.StandsAt n.id n.position := ⟨n, hn, rfl, rfl⟩
  constructor
  · intro hc
    obtain ⟨c, hchain, hst⟩ := follow_chain (fun _ _ _ hl hst => h.linked_positions hx hl hst) hc hmst
    exact hx.position_unique hst hnst ▸ hchain
  · intro hc
    obtain ⟨b, hchain, hst⟩ :=
      follow_chain (T := fun c id => g.StandsAt id c) (fun _ _ _ hl hst => h.linked_ids hx hl hst) hc hmst
    exact hx.id_unique hst hnst ▸ hchain

theorem Records.connected_iff :
    g.Connected ↔ ∀ m ∈ d.nodes, ∀ n ∈ d.nodes, Relation.ReflTransGen d.Linked m.position n.position := by
  have hat (c : Coordinate) : (∃ n ∈ g.nodes, n.position = c) ↔ ∃ n ∈ d.nodes, n.position = c := by
    rw [← h.mem_positions, Description.positions_calls, Description.positions, List.mem_map]
  constructor
  · intro hc m hm n hn
    obtain ⟨m', hm', hmp⟩ := (hat m.position).2 ⟨m, hm, rfl⟩
    obtain ⟨n', hn', hnp⟩ := (hat n.position).2 ⟨n, hn, rfl⟩
    rw [← hmp, ← hnp, ← h.chain_iff hx hm' hn']
    exact hc m' hm' n' hn'
  · intro hc m hm n hn
    obtain ⟨m', hm', hmp⟩ := (hat m.position).1 ⟨m, hm, rfl⟩
    obtain ⟨n', hn', hnp⟩ := (hat n.position).1 ⟨n, hn, rfl⟩
    rw [h.chain_iff hx hm hn, ← hmp, ← hnp]
    exact hc m' hm' n' hn'

end Graph

namespace Description

/-- A description of fewer than `2 ^ 32` nodes is accepted exactly when it is acceptable, by any builder. -/
theorem applyTo_ok_iff (d : Description) (few : d.nodes.length < 2 ^ 32) (b : Builder) :
    (∃ g, (d.applyTo b).1 = .ok g) ↔ d.Acceptable := by
  have hplaceable := d.fits_iff_placeable few.le
  constructor
  · rintro ⟨g, hg⟩
    obtain ⟨hf, hc, -, b', hh⟩ := holds_of_applyTo hg
    have hconnected := hh.sound.isConnected_iff.1 hc
    exact { hplaceable.1 hf with connected := (hh.records.connected_iff hh.indexed).1 hconnected }
  · intro ha
    obtain ⟨b', g, hh, he⟩ := applyTo_of_fits (hplaceable.2 ha.toPlaceable) b
    have hc : g.isConnected = true :=
      hh.sound.isConnected_iff.2 ((hh.records.connected_iff hh.indexed).2 ha.connected)
    exact ⟨g, by rw [he, if_pos hc]⟩

theorem applyTo_toBool_iff (d : Description) (b : Builder) :
    (d.applyTo b).1.toBool = true ↔ ∃ g, (d.applyTo b).1 = .ok g := by
  cases (d.applyTo b).1 <;> simp [Except.toBool]

/-- A network of an entry point, a regular node and an exit point; the entry point names a behavior twice. -/
def junction : Description where
  behaviors := [⟨1, .visit, [⟨4, 0⟩], [⟨4, 6⟩]⟩]
  nodes := [⟨.entry, .at 0 0, .ofNat 2, 0, [⟨1, .ofNat 50⟩, ⟨1, .ofNat 100⟩]⟩,
    ⟨.regular, .at 4 0, .zero true, 0, []⟩, ⟨.exit, .at 4 6, .ofNat 1, 0, []⟩]
  edges := [⟨⟨0, 0⟩, ⟨4, 0⟩, 1, .ofNat 4, false⟩, ⟨⟨4, 0⟩, ⟨4, 6⟩, 1, .ofNat 6, true⟩]

/-- The junction is acceptable, and is not without its second street. -/
theorem applyTo_ok_iff_junction :
    junction.nodes.length < 2 ^ 32 ∧ junction.Acceptable ∧
      ¬ { junction with edges := junction.edges.take 1 }.Acceptable := by
  have few : junction.nodes.length < 2 ^ 32 := by decide
  refine ⟨few, (applyTo_ok_iff junction few {}).1 ?_, fun ha => ?_⟩
  · rw [← applyTo_toBool_iff]
    decide +kernel
  · have hg := (applyTo_ok_iff { junction with edges := junction.edges.take 1 } few {}).2 ha
    rw [← applyTo_toBool_iff] at hg
    revert hg
    decide +kernel

end Description

end BeaconMap
