import BeaconMap.Proofs.Network.Soundness
/-!
# Connected means joined by chains of edges

Joining the labels of the two ends of each edge leaves one label on two nodes exactly when a chain of edges leads
from one to the other (`lookup_foldl_join`). So the check of a graph passes exactly when every two nodes are so
joined, and that is when `finalize` hands the graph over (`runAll_connected`).
-/

namespace BeaconMap

/-- The edge leads from one node to the other, along its direction or against it. -/
def Edge.Links (e : Edge) (a b : NodeId) : Prop := e.source = a ∧ e.target = b ∨ e.source = b ∧ e.target = a

namespace Connectivity

/-- Some edge leads from one node to the other, along its direction or against it. -/
def Linked (edges : List Edge) (a b : NodeId) : Prop := ∃ e ∈ edges, e.Links a b

/-- A finite chain of edges leads from one node to the other, each taken along its direction or against it. -/
def Chain (edges : List Edge) : NodeId → NodeId → Prop := Relation.ReflTransGen (Linked edges)

/-- A chain that takes only edges between different nodes into account. -/
theorem Chain.of_links {edges others : List Edge} (h : ∀ a b, a ≠ b → Linked edges a b → Linked others a b)
    {a b : NodeId} (hc : Chain edges a b) : Chain others a b := by
  induction hc with
  | refl => exact .refl
  | @tail c d _ hl ih =>
    by_cases he : c = d
    · exact he ▸ ih
    · exact ih.tail (h c d he hl)

theorem Linked.symm {edges : List Edge} {a b : NodeId} (h : Linked edges a b) : Linked edges b a := by
  obtain ⟨e, he, hl⟩ := h
  exact ⟨e, he, Or.symm hl⟩

theorem Chain.mono {edges more : List Edge} (h : edges ⊆ more) {a b : NodeId} (hc : Chain edges a b) :
    Chain more a b :=
  Relation.ReflTransGen.mono (fun _ _ ⟨e, he, hl⟩ => ⟨e, h he, hl⟩) _ _ hc

/-! ## Labels -/

theorem lookup_relabel (labels : Labels) (old new id : NodeId) :
    (relabel labels old new).lookup id = (labels.lookup id).map fun label => if label = old then new else label := by
  induction labels with
  | nil => rfl
  | cons head rest ih =>
    obtain ⟨k, label⟩ := head
    simp only [relabel, List.map_cons, IdTable.lookup_cons_eq] at ih ⊢
    rw [ih]
    split <;> rfl

theorem lookup_alone (ids : List NodeId) (id : NodeId) :
    (alone ids).lookup id = if id ∈ ids then some id else none := by
  induction ids with
  | nil => rfl
  | cons k rest ih =>
    simp only [alone, List.map_cons, IdTable.lookup_cons_eq] at ih ⊢
    rw [ih]
    by_cases h : id = k <;> simp [h]

theorem ids_join (labels : Labels) (e : Edge) : (join labels e).map Prod.fst = labels.map Prod.fst := by
  unfold join
  split
  · simp [relabel]
  · rfl

theorem ids_foldl_join (edges : List Edge) (labels : Labels) :
    (edges.foldl join labels).map Prod.fst = labels.map Prod.fst := by
  induction edges generalizing labels with
  | nil => rfl
  | cons e rest ih => rw [List.foldl_cons, ih, ids_join]

theorem ids_alone (ids : List NodeId) : (alone ids).map Prod.fst = ids := by
  simp [alone, Function.comp_def]

/-- Joining an edge whose ends are labelled: the target's label gives way to the source's. -/
theorem lookup_join {labels : Labels} {e : Edge} {s t : NodeId} (hs : labels.lookup e.source = some s)
    (ht : labels.lookup e.target = some t) (id : NodeId) :
    (join labels e).lookup id = (labels.lookup id).map fun label => if label = t then s else label := by
  unfold join
  rw [hs, ht, lookup_relabel]

section
variable (ids : List NodeId)

/-- Every node keeps a label. -/
theorem exists_label (edges : List Edge) {id : NodeId} (h : id ∈ ids) :
    ∃ label, (edges.foldl join (alone ids)).lookup id = some label := by
  have hkey : id ∈ (edges.foldl join (alone ids)).map Prod.fst := by rwa [ids_foldl_join, ids_alone]
  cases hl : (edges.foldl join (alone ids)).lookup id with
  | some label => exact ⟨label, rfl⟩
  | none =>
    obtain ⟨⟨k, label⟩, hmem, rfl⟩ := List.mem_map.1 hkey
    have hne := List.lookup_eq_none_iff.1 hl _ hmem
    simp at hne

/-- Two nodes carry one label exactly when a chain of the edges joined so far leads from one to the other. -/
theorem lookup_foldl_join {edges : List Edge} (hends : ∀ e ∈ edges, e.source ∈ ids ∧ e.target ∈ ids) {a b : NodeId}
    (ha : a ∈ ids) (hb : b ∈ ids) :
    (edges.foldl join (alone ids)).lookup a = (edges.foldl join (alone ids)).lookup b ↔ Chain edges a b := by
  -- The edges are taken from the last one back, so that the induction hypothesis speaks of the labels before it.
  induction edges using List.reverseRecOn generalizing a b with
  | nil =>
    rw [List.foldl_nil, lookup_alone, lookup_alone, if_pos ha, if_pos hb, Option.some.injEq]
    constructor
    · rintro rfl
      exact .refl
    · intro h
      rcases Relation.ReflTransGen.cases_head h with h | ⟨c, ⟨e, he, -⟩, -⟩
      · exact h
      · cases he
  | append_singleton rest e ih =>
    have hrest : ∀ e' ∈ rest, e'.source ∈ ids ∧ e'.target ∈ ids := fun e' he' =>
      hends e' (List.mem_append_left _ he')
    obtain ⟨hsource, htarget⟩ := hends e (by simp)
    obtain ⟨s, hs⟩ := exists_label ids rest hsource
    obtain ⟨t, ht⟩ := exists_label ids rest htarget
    have ih := fun {a b} => @ih hrest a b
    rw [List.foldl_append, List.foldl_cons, List.foldl_nil, lookup_join hs ht, lookup_join hs ht]
    constructor
    · intro heq
      obtain ⟨la, hla⟩ := exists_label ids rest ha
      obtain ⟨lb, hlb⟩ := exists_label ids rest hb
      have prior {c d : NodeId} (hc : c ∈ ids) (hd : d ∈ ids) {l : NodeId}
          (hlc : (rest.foldl join (alone ids)).lookup c = some l)
          (hld : (rest.foldl join (alone ids)).lookup d = some l) : Chain (rest ++ [e]) c d :=
        ((ih hc hd).1 (hlc.trans hld.symm)).mono (by simp)
      have hlink : Linked (rest ++ [e]) e.source e.target := ⟨e, by simp, .inl ⟨rfl, rfl⟩⟩
      rw [hla, hlb, Option.map_some, Option.map_some, Option.some.injEq] at heq
      -- A node whose label was the target's is reached through the new edge.
      by_cases hat : la = t <;> by_cases hbt : lb = t
      · subst hat hbt
        exact prior ha hb hla hlb
      · rw [if_pos hat, if_neg hbt] at heq
        subst hat heq
        exact ((prior ha htarget hla ht).tail hlink.symm).trans (prior hsource hb hs hlb)
      · rw [if_neg hat, if_pos hbt] at heq
        subst hbt heq
        exact ((prior ha hsource hla hs).tail hlink).trans (prior htarget hb ht hlb)
      · rw [if_neg hat, if_neg hbt] at heq
        subst heq
        exact prior ha hb hla hlb
    · have step {c d : NodeId} (hl : Linked (rest ++ [e]) c d) :
          ((rest.foldl join (alone ids)).lookup c).map (fun label => if label = t then s else label) =
            ((rest.foldl join (alone ids)).lookup d).map (fun label => if label = t then s else label) := by
        obtain ⟨e', he', hl⟩ := hl
        rcases List.mem_append.1 he' with he' | he'
        · obtain ⟨hs', ht'⟩ := hrest e' he'
          have heq := (ih hs' ht').2 (.single ⟨e', he', .inl ⟨rfl, rfl⟩⟩)
          rcases hl with ⟨rfl, rfl⟩ | ⟨rfl, rfl⟩ <;> rw [heq]
        · obtain rfl := List.mem_singleton.1 he'
          rcases hl with ⟨rfl, rfl⟩ | ⟨rfl, rfl⟩ <;> simp [hs, ht]
      intro h
      -- The nodes on the way are ends of edges; that `b` is in the list is of no use for them.
      clear hb
      induction h with
      | refl => rfl
      | tail _ hl ih' => exact ih'.trans (step hl)

end

/-! ## One label is left -/

theorem isOne_iff (labels : Labels) : isOne labels = true ↔ ∀ p ∈ labels, ∀ q ∈ labels, p.2 = q.2 := by
  cases labels with
  | nil => simp [isOne]
  | cons head rest =>
    have hone : isOne (head :: rest) = true ↔ ∀ p ∈ rest, p.2 = head.2 := by simp [isOne]
    rw [hone]
    constructor
    · intro h
      have hall : ∀ p ∈ head :: rest, p.2 = head.2 := List.forall_mem_cons.2 ⟨rfl, h⟩
      intro p hp q hq
      rw [hall p hp, hall q hq]
    · intro h p hp
      exact h p (List.mem_cons_of_mem _ hp) head List.mem_cons_self

/-- One label is left exactly when chains of edges lead from every node to every other. -/
theorem isOne_foldl_join {ids : List NodeId} (hnd : ids.Nodup) {edges : List Edge}
    (hends : ∀ e ∈ edges, e.source ∈ ids ∧ e.target ∈ ids) :
    isOne (edges.foldl join (alone ids)) = true ↔ ∀ a ∈ ids, ∀ b ∈ ids, Chain edges a b := by
  have hkeys : (edges.foldl join (alone ids)).map Prod.fst = ids := by rw [ids_foldl_join, ids_alone]
  have hentry (id label : NodeId) :
      (id, label) ∈ edges.foldl join (alone ids) ↔ (edges.foldl join (alone ids)).lookup id = some label := by
    rw [IdTable.lookup_eq_some_iff (by rwa [hkeys])]
  rw [isOne_iff]
  constructor
  · intro h a ha b hb
    obtain ⟨la, hla⟩ := exists_label ids edges ha
    obtain ⟨lb, hlb⟩ := exists_label ids edges hb
    have heq : la = lb := h _ ((hentry a la).2 hla) _ ((hentry b lb).2 hlb)
    rw [← lookup_foldl_join ids hends ha hb, hla, hlb, heq]
  · rintro h ⟨a, la⟩ hp ⟨b, lb⟩ hq
    have ha : a ∈ ids := hkeys ▸ List.mem_map_of_mem hp
    have hb : b ∈ ids := hkeys ▸ List.mem_map_of_mem hq
    have heq := (lookup_foldl_join ids hends ha hb).2 (h a ha b hb)
    rw [(hentry a la).1 hp, (hentry b lb).1 hq] at heq
    exact Option.some.inj heq

end Connectivity

open Connectivity

namespace Graph

/-- A chain of edges leads from every node to every other. -/
def Connected (g : Graph) : Prop := ∀ m ∈ g.nodes, ∀ n ∈ g.nodes, Chain g.edges.toList m.id n.id

/-- The links between the places of the nodes: an edge, either way, between two different nodes. -/
def links (g : Graph) : SimpleGraph (Fin g.nodes.size) :=
  .fromRel fun i j => Linked g.edges.toList g.nodes[i].id g.nodes[j].id

section
variable {g : Graph} (h : g.Sound)
include h

theorem Sound.id_at {i : Nat} (hi : i < g.nodes.size) : g.nodes[i].id.toNat = i := by
  have hid := congrArg (·[i]?) h.ids
  simpa [hi] using hid

theorem Sound.nodup_ids : (g.nodes.toList.map Node.id).Nodup := by
  refine List.Nodup.of_map UInt32.toNat ?_
  rw [List.map_map]
  exact h.ids ▸ List.nodup_range

/-- The check passes exactly when the graph is connected. -/
theorem Sound.isConnected_iff : g.isConnected = true ↔ g.Connected := by
  have hends : ∀ e ∈ g.edges.toList, e.source ∈ g.nodes.toList.map Node.id ∧ e.target ∈ g.nodes.toList.map Node.id := by
    intro e he
    simpa using h.ends e (Array.mem_toList_iff.1 he)
  unfold isConnected
  rw [← Array.foldl_toList, isOne_foldl_join h.nodup_ids hends]
  simp [Connected]

/-- Chains of edges are the paths of the links. -/
theorem Sound.reachable_iff (i j : Fin g.nodes.size) :
    g.links.Reachable i j ↔ Chain g.edges.toList g.nodes[i].id g.nodes[j].id := by
  rw [SimpleGraph.reachable_iff_reflTransGen]
  constructor
  · refine Relation.ReflTransGen.lift (fun k : Fin g.nodes.size => g.nodes[k].id) ?_ i j
    rintro k l ⟨-, hl | hl⟩
    · exact hl
    · exact hl.symm
  · intro hc
    generalize hb : g.nodes[j].id = b at hc
    induction hc generalizing j with
    | refl =>
      have he : i = j := by
        apply Fin.ext
        rw [← h.id_at i.isLt, ← h.id_at j.isLt]
        exact congrArg UInt32.toNat hb.symm
      rw [he]
    | @tail c b _ hl ih =>
      -- The chain comes to `b` from the end `c` of an edge, so from a node of the graph.
      obtain ⟨k, rfl⟩ : ∃ k : Fin g.nodes.size, g.nodes[k].id = c := by
        obtain ⟨e, he, hl⟩ := hl
        obtain ⟨⟨m, hm, hme⟩, ⟨n, hn, hne⟩⟩ := h.ends e (Array.mem_toList_iff.1 he)
        rcases hl with ⟨rfl, -⟩ | ⟨-, rfl⟩
        · obtain ⟨k, hk, rfl⟩ := Array.mem_iff_getElem.1 hm
          exact ⟨⟨k, hk⟩, hme⟩
        · obtain ⟨k, hk, rfl⟩ := Array.mem_iff_getElem.1 hn
          exact ⟨⟨k, hk⟩, hne⟩
      subst hb
      by_cases he : k = j
      · exact he ▸ ih k rfl
      · exact (ih k rfl).tail ⟨he, .inl hl⟩

/-- The check passes exactly when the links have at most one connected component. -/
theorem Sound.isConnected_iff_card : g.isConnected = true ↔ Nat.card g.links.ConnectedComponent ≤ 1 := by
  rw [h.isConnected_iff, Finite.card_le_one_iff_subsingleton]
  constructor
  · intro hc
    refine SimpleGraph.Preconnected.subsingleton_connectedComponent fun i j => ?_
    exact (h.reachable_iff i j).2 (hc _ (Array.getElem_mem i.isLt) _ (Array.getElem_mem j.isLt))
  · intro hone m hm n hn
    obtain ⟨i, hi, rfl⟩ := Array.mem_iff_getElem.1 hm
    obtain ⟨j, hj, rfl⟩ := Array.mem_iff_getElem.1 hn
    exact (h.reachable_iff ⟨i, hi⟩ ⟨j, hj⟩).1 (SimpleGraph.ConnectedComponent.exact (Subsingleton.elim _ _))

/-- Graphs of one size with the same links between different nodes are both connected or both not: edges from a node
to itself, parallel edges, and the order and direction of the edges make no difference. -/
theorem Sound.isConnected_congr {g' : Graph} (h' : g'.Sound) (hsize : g'.nodes.size = g.nodes.size)
    (hl : ∀ a b, a ≠ b → (Linked g'.edges.toList a b ↔ Linked g.edges.toList a b)) :
    g'.isConnected = g.isConnected := by
  have hchain (a b : NodeId) : Chain g'.edges.toList a b ↔ Chain g.edges.toList a b :=
    ⟨Chain.of_links fun a b hne => (hl a b hne).1, Chain.of_links fun a b hne => (hl a b hne).2⟩
  have hids : g'.nodes.toList.map Node.id = g.nodes.toList.map Node.id := by
    refine List.map_injective_iff.2 (fun _ _ => UInt32.toNat_inj.1) ?_
    rw [List.map_map, List.map_map]
    exact (h'.ids.trans (congrArg List.range hsize)).trans h.ids.symm
  have hmem (id : NodeId) : (∃ n ∈ g'.nodes, n.id = id) ↔ ∃ n ∈ g.nodes, n.id = id := by
    have hiff : id ∈ g'.nodes.toList.map Node.id ↔ id ∈ g.nodes.toList.map Node.id := by rw [hids]
    simpa using hiff
  rw [Bool.eq_iff_iff, h'.isConnected_iff, h.isConnected_iff]
  constructor
  · intro hc m hm n hn
    obtain ⟨m', hm', hme⟩ := (hmem m.id).2 ⟨m, hm, rfl⟩
    obtain ⟨n', hn', hne⟩ := (hmem n.id).2 ⟨n, hn, rfl⟩
    rw [← hchain, ← hme, ← hne]
    exact hc m' hm' n' hn'
  · intro hc m hm n hn
    obtain ⟨m', hm', hme⟩ := (hmem m.id).1 ⟨m, hm, rfl⟩
    obtain ⟨n', hn', hne⟩ := (hmem n.id).1 ⟨n, hn, rfl⟩
    rw [hchain, ← hme, ← hne]
    exact hc m' hm' n' hn'

end

/-- A graph with at most one node is connected. -/
theorem connected_of_size_le_one {g : Graph} (hsize : g.nodes.size ≤ 1) : g.Connected := by
  intro m hm n hn
  obtain ⟨i, hi, rfl⟩ := Array.mem_iff_getElem.1 hm
  obtain ⟨j, hj, rfl⟩ := Array.mem_iff_getElem.1 hn
  obtain rfl : i = j := by omega
  exact .refl

theorem Made.sound {g : Graph} (h : g.Made) : g.Sound := by
  obtain ⟨b, past, hp⟩ := h.holds
  exact hp.sound

end Graph

namespace Call

/-! ## Handing over -/

/-- `finalize` hands over a product that is connected and leaves any other where it is. -/
theorem step_finalize {b : Builder} {g : Graph} (holds : b.product = some g) :
    step .finalize b =
      if g.isConnected then (.ok (.graph g), { b with product := none }) else (.error .incompleteGraph, b) := by
  have hrun : run .finalize b = (do return .graph (← Builder.finalize) : Build Answer) b := rfl
  unfold step
  rw [hrun, Builder.map_run, Builder.finalize_run, holds]
  by_cases hc : g.isConnected = true
  · simp [hc]
  · simp [hc]

/-- Of every graph that a run holds or has handed over, the check tells whether chains of edges lead from every node
to every other: whether its links have at most one component. After the run `finalize` hands over the product exactly
when it is so connected. -/
theorem runAll_connected (calls : List Call) :
    (∀ g, (runAll calls {}).2.product = some g ∨ Except.ok (.graph g) ∈ (runAll calls {}).1 →
      (g.isConnected = true ↔ g.Connected) ∧
        (g.isConnected = true ↔ Nat.card g.links.ConnectedComponent ≤ 1) ∧
        (g.nodes.size ≤ 1 → g.isConnected = true) ∧
        ∀ g' : Graph, g'.Made → g'.nodes.size = g.nodes.size →
          (∀ a b, a ≠ b → (Linked g'.edges.toList a b ↔ Linked g.edges.toList a b)) →
          g'.isConnected = g.isConnected) ∧
      ∀ g, (runAll calls {}).2.product = some g →
        (g.Connected →
          step .finalize (runAll calls {}).2 = (.ok (.graph g), { (runAll calls {}).2 with product := none })) ∧
        (¬ g.Connected → step .finalize (runAll calls {}).2 = (.error .incompleteGraph, (runAll calls {}).2)) := by
  refine ⟨fun g hg => ?_, fun g hg => ?_⟩
  · have hs : g.Sound := Graph.Made.sound ⟨calls, hg⟩
    refine ⟨hs.isConnected_iff, hs.isConnected_iff_card, fun hsize => ?_, fun g' hmade hsize hl => ?_⟩
    · exact hs.isConnected_iff.2 (Graph.connected_of_size_le_one hsize)
    · exact hs.isConnected_congr hmade.sound hsize hl
  · have hs : g.Sound := Graph.Made.sound ⟨calls, .inl hg⟩
    rw [step_finalize hg, ← hs.isConnected_iff]
    refine ⟨fun hc => ?_, fun hc => ?_⟩
    · rw [if_pos hc]
    · rw [if_neg hc]

/-- The run of `crossing`, with a second node in the network that is left open. -/
def apart : List Call := crossing ++ [.regularNode (.at 9 9)]

/-- The crossing that was handed over is connected; the two nodes after it are not, and stay in the builder. -/
theorem runAll_connected_apart :
    (∃ g, Except.ok (.graph g) ∈ (runAll apart {}).1 ∧ g.nodes.size = 3 ∧ g.Connected) ∧
      ∃ g, (runAll apart {}).2.product = some g ∧ ¬ g.Connected ∧
        step .finalize (runAll apart {}).2 = (.error .incompleteGraph, (runAll apart {}).2) := by
  obtain ⟨hgraphs, hproduct⟩ := runAll_connected apart
  refine ⟨?_, ?_⟩
  · obtain ⟨g, hg, hp⟩ := exists_graph_mem (runAll apart {}).1 (fun g => g.nodes.size == 3 && g.isConnected)
      (by decide +kernel)
    obtain ⟨hsize, hc⟩ := Bool.and_eq_true_iff.1 hp
    exact ⟨g, hg, eq_of_beq hsize, (hgraphs g (.inr hg)).1.1 hc⟩
  · have hopen : (runAll apart {}).2.product.map Graph.isConnected = some false := by decide +kernel
    obtain ⟨g, hg, hc⟩ := Option.map_eq_some_iff.1 hopen
    have hnot : ¬ g.Connected := by
      rw [← (hgraphs g (.inl hg)).1, hc]
      exact Bool.false_ne_true
    exact ⟨g, hg, hnot, (hproduct g hg).2 hnot⟩

end Call

end BeaconMap
