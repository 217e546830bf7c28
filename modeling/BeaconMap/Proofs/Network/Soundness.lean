import BeaconMap.Proofs.Network.Runs
/-!
# Every graph a builder makes is sound

`Graph.Sound` lists what holds of every graph that a run of calls holds or has handed over, whatever calls were
made and whichever of them failed. `runAll_sound` says so, with the counter of the builder.
-/

namespace BeaconMap

/-- What holds of every graph that a builder makes. -/
structure Graph.Sound (g : Graph) : Prop where
  /-- Ids count the nodes from 0, in the order they were placed. -/
  ids : g.nodes.toList.map (fun n => n.id.toNat) = List.range g.nodes.size
  positions : (g.nodes.toList.map Node.position).Nodup
  ends : ∀ e ∈ g.edges, (∃ n ∈ g.nodes, n.id = e.source) ∧ ∃ n ∈ g.nodes, n.id = e.target
  interests : ∀ b ∈ g.behaviors.values, ∀ id ∈ b.core.ids ++ b.optional.ids, ∃ n ∈ g.nodes, n.id = id
  keys : ∀ entry ∈ g.behaviors.entries, entry.2.id = entry.1
  shares : ∀ n ∈ g.nodes, ∀ entry ∈ n.kind.shares.entries, entry.1 ∈ g.behaviors.ids ∧ entry.2.Percentage
  geometries : ∀ n ∈ g.nodes, n.geometry.Valid
  rates : ∀ n ∈ g.nodes, ∀ r, n.kind.rate? = some r → r.NonNegative
  streets : ∀ e ∈ g.edges, 0 < e.width ∧ e.weight.NonNegative

section
variable {g : Graph} {past : List Call}

theorem Graph.Indexed.ids_eq_range (h : g.Indexed) :
    g.nodes.toList.map (fun n => n.id.toNat) = List.range g.nodes.size := by
  apply List.ext_getElem
  · simp
  · intro i h1 h2
    have hi : i < g.nodes.size := by simpa using h2
    have hid := h.ids i g.nodes[i] (Array.getElem?_eq_getElem hi)
    simpa using hid

theorem Graph.Indexed.positions_nodup (h : g.Indexed) : (g.nodes.toList.map Node.position).Nodup := by
  have hn : g.nodes.toList.Nodup := by
    refine List.Nodup.of_map (fun n => n.id.toNat) ?_
    rw [h.ids_eq_range]
    exact List.nodup_range
  exact hn.map_on fun m hm n hn he => h.byCoordinate.node_unique (by simpa using hm) (by simpa using hn) he

theorem exists_of_forall₂ {α β : Type} {R : α → β → Prop} {l : List α} {l' : List β} (h : List.Forall₂ R l l') {b : β}
    (hb : b ∈ l') : ∃ a ∈ l, R a b := by
  induction h with
  | nil => cases hb
  | cons hr _ ih =>
    rcases List.mem_cons.1 hb with rfl | hb
    · exact ⟨_, List.mem_cons_self, hr⟩
    · obtain ⟨a, ha, hr⟩ := ih hb
      exact ⟨a, List.mem_cons_of_mem _ ha, hr⟩

/-- Every edge was asked for. -/
theorem Graph.Records.edge_asked (h : g.Records past) {e : Edge} (he : e ∈ g.edges) :
    ∃ asked ∈ History.edges past, g.Joins asked e :=
  exists_of_forall₂ h.edges (Array.mem_toList_iff.2 he)

/-- Every edge that was asked for is there. -/
theorem Graph.Records.edge_made (h : g.Records past) {asked : DescribedEdge} (ha : asked ∈ History.edges past) :
    ∃ e ∈ g.edges, g.Joins asked e := by
  obtain ⟨e, he, hj⟩ := exists_of_forall₂ h.edges.flip ha
  exact ⟨e, Array.mem_toList_iff.1 he, hj⟩

/-- Every node was asked for. -/
theorem Graph.Records.node_asked (h : g.Records past) {n : Node} (hn : n ∈ g.nodes) :
    (n.geometry, n.kind.bare) ∈ History.nodes past := by
  rw [← h.nodes]
  exact List.mem_map.2 ⟨n, by simpa using hn, rfl⟩

end

/-- A record of calls that fit together is sound. -/
theorem Builder.Holds.sound {b : Builder} {g : Graph} {past : List Call} (h : b.Holds g past) : g.Sound where
  ids := h.indexed.ids_eq_range
  positions := h.indexed.positions_nodup
  ends e he := by
    obtain ⟨asked, -, hj⟩ := h.records.edge_asked he
    obtain ⟨m, hm, hme, -⟩ := hj.source
    obtain ⟨n, hn, hne, -⟩ := hj.target
    exact ⟨⟨m, hm, hme⟩, ⟨n, hn, hne⟩⟩
  interests found hf id hid := by
    obtain ⟨⟨k, v⟩, hentry, rfl⟩ := List.mem_map.1 hf
    have hk := (g.behaviors.find?_eq_some_iff k v).2 hentry
    have hstands : ∀ optional, id ∈ (v.interests optional).ids → ∃ n ∈ g.nodes, n.id = id := by
      intro optional hmem
      obtain ⟨c, -, n, hn, hne, -⟩ := (h.records.interests k v hk optional id).1 hmem
      exact ⟨n, hn, hne⟩
    rcases List.mem_append.1 hid with hcore | hoptional
    · exact hstands false hcore
    · exact hstands true hoptional
  keys entry hentry := h.records.keys _ _ ((g.behaviors.find?_eq_some_iff _ _).2 hentry)
  shares n hn entry hentry := by
    have hfind := (n.kind.shares.find?_eq_some_iff _ _).2 hentry
    rw [h.records.shares n hn] at hfind
    obtain ⟨s, hs, -, hb, hv⟩ := History.mem_of_shareOf past hfind
    obtain ⟨-, hreg, hper⟩ := h.legal.share hs
    rw [← hb, ← hv]
    exact ⟨(h.records.mem_registered _).1 hreg, hper⟩
  geometries n hn := (h.legal.node (h.records.node_asked hn)).1
  rates n hn := by
    have hr := (h.legal.node (h.records.node_asked hn)).2
    rwa [NodeKind.rate?_bare] at hr
  streets e he := by
    obtain ⟨asked, ha, hj⟩ := h.records.edge_asked he
    rw [hj.width, hj.weight]
    exact (h.legal.edge ha).2.2

/-! ## The counter -/

namespace Call

/-- The number of nodes that a run has placed, told from its outcomes. -/
def placed (outcomes : List (Except NetworkError Answer)) : Nat :=
  outcomes.countP fun
    | .ok (.node _) => true
    | _ => false

end Call

/-- The number of nodes of the product, 0 without one. -/
def Builder.size (b : Builder) : Nat := b.product.elim 0 fun g => g.nodes.size

namespace Call

/-- Only an answered node makes the product larger. -/
theorem size_step {b : Builder} (h : b.Recorded) (call : Call) :
    (call.step b).2.size ≤ b.size + placed [(call.step b).1] := by
  rcases step_cases h call with ⟨e, he⟩ | ⟨a, b', hstep, hm⟩
  · rw [he]
    exact Nat.le_add_right _ _
  · rw [hstep]
    cases hm with
    | start => simp [Builder.size, Graph.empty]
    | node _ holds => simp [Builder.size, holds, placed]
    | edge holds | behavior holds | interest holds => simp [Builder.size, holds, placed]
    | share _ holds => simp [Builder.size, holds, placed, Graph.withShare]
    | finalize => simp [Builder.size]

theorem size_runAll (calls : List Call) {b : Builder} (h : b.Recorded) :
    (runAll calls b).2.size ≤ b.size + placed (runAll calls b).1 := by
  induction calls generalizing b with
  | nil => exact Nat.le_add_right _ _
  | cons call rest ih =>
    have hstep := size_step h call
    have hrest := ih (recorded_step h call)
    rw [runAll_cons]
    simp only [placed, List.countP_cons, List.countP_nil] at hstep hrest ⊢
    omega

/-- In a run that places fewer than `2 ^ 32` nodes, the product and every graph that was handed over are sound, and
the counter is the number of nodes of the product. -/
theorem runAll_sound (calls : List Call) (few : placed (runAll calls {}).1 < 2 ^ 32) :
    (∀ g, (runAll calls {}).2.product = some g → g.Sound ∧ (runAll calls {}).2.nextId.toNat = g.nodes.size) ∧
      ∀ g, Except.ok (.graph g) ∈ (runAll calls {}).1 → g.Sound := by
  obtain ⟨hlast, hgraphs⟩ := recorded_runAll calls Builder.recorded_new
  have hsize := size_runAll calls Builder.recorded_new
  refine ⟨fun g hg => ?_, fun g hg => ?_⟩
  · obtain ⟨past, hp⟩ := hlast g hg
    refine ⟨hp.sound, ?_⟩
    have hroom : g.nodes.size < 2 ^ 32 := by
      simp only [Builder.size, hg, Option.elim_some, Option.elim_none, Nat.zero_add] at hsize
      omega
    rw [hp.nextId, UInt32.toNat_ofNat_of_lt' hroom]
  · obtain ⟨b, past, hp⟩ := hgraphs g hg
    exact hp.sound

/-- To find a graph among the outcomes of a run it is enough to compute. -/
theorem exists_graph_mem (outcomes : List (Except NetworkError Answer)) (p : Graph → Bool)
    (h : (outcomes.any fun | .ok (.graph g) => p g | _ => false) = true) :
    ∃ g, Except.ok (.graph g) ∈ outcomes ∧ p g = true := by
  obtain ⟨outcome, hmem, ho⟩ := List.any_eq_true.1 h
  split at ho
  · exact ⟨_, hmem, ho⟩
  · cases ho

/-- A run that builds and hands over a crossing, with three calls that fail, and begins another network. -/
def crossing : List Call :=
  [.regularNode (.at 0 0), .start, .behavior 1 .visit, .entryPoint (.at 0 0) ⟨.ofNat 2, 0⟩, .regularNode (.at 4 0),
    .exitPoint (.at 4 0) (.ofNat 1), .exitPoint (.at 4 6) (.ofNat 1), .generated ⟨0, 0⟩ 1 (.ofNat 100),
    .interestPoint ⟨4, 0⟩ 1 false, .street false ⟨0, 0⟩ ⟨4, 0⟩ 1 (.ofNat 4), .finalize,
    .street true ⟨4, 0⟩ ⟨4, 6⟩ 1 (.ofNat 6), .finalize, .start, .regularNode (.at 7 (-7))]

/-- The crossing was handed over and the next network is held; both are sound. -/
theorem runAll_sound_crossing :
    placed (runAll crossing {}).1 < 2 ^ 32 ∧
      (∃ g, (runAll crossing {}).2.product = some g ∧ g.Sound ∧
        (runAll crossing {}).2.nextId.toNat = g.nodes.size) ∧
      ∃ g, Except.ok (.graph g) ∈ (runAll crossing {}).1 ∧ g.Sound := by
  have few : placed (runAll crossing {}).1 < 2 ^ 32 := by decide +kernel
  obtain ⟨hproduct, hgraphs⟩ := runAll_sound crossing few
  refine ⟨few, ?_, ?_⟩
  · have hsome : (runAll crossing {}).2.product.isSome = true := by decide +kernel
    obtain ⟨g, hg⟩ := Option.isSome_iff_exists.1 hsome
    exact ⟨g, hg, hproduct g hg⟩
  · obtain ⟨g, hg, -⟩ := exists_graph_mem (runAll crossing {}).1 (fun _ => true) (by decide +kernel)
    exact ⟨g, hg, hgraphs g hg⟩

end Call

end BeaconMap
