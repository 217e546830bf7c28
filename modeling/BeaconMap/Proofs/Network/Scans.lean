import BeaconMap.Proofs.Network.Listing
/-!
# Look-ups and scans

What an index of a graph leads to is the first node that a scan of the list finds, and a table whose behaviors are filed
under their own ids is the list of them in order of id: looking one up is a scan, and an insertion puts it between the
smaller ids and the larger ones (`Filed.values_insert`).
-/

namespace BeaconMap

theorem Graph.Leads.lookup_eq_find? {κ : Type} [Ord κ] [DecidableEq κ] {index : Std.TreeMap κ Nat} {nodes : Array Node}
    {key : Node → κ} (h : Leads index nodes key) (k : κ) :
    index[k]?.bind (nodes[·]?) = nodes.toList.find? fun n => key n = k := by
  cases hfind : nodes.toList.find? fun n => key n = k with
  | some n =>
    have hmem := List.mem_of_find?_eq_some hfind
    have hkey := List.find?_some hfind
    exact (h.lookup_eq_some_iff k n).2 ⟨Array.mem_toList_iff.1 hmem, of_decide_eq_true hkey⟩
  | none =>
    cases hlookup : index[k]?.bind (nodes[·]?) with
    | none => rfl
    | some n =>
      obtain ⟨hmem, hkey⟩ := (h.lookup_eq_some_iff k n).1 hlookup
      have hne := List.find?_eq_none.1 hfind n (Array.mem_toList_iff.2 hmem)
      exact absurd (decide_eq_true hkey) hne

namespace IdTable

/-- The behaviors of a table are filed under their own ids. -/
def Filed (t : IdTable Behavior) : Prop := ∀ e ∈ t.entries, e.2.id = e.1

theorem lookup_eq_find? {l : List (UInt32 × Behavior)} (h : ∀ e ∈ l, e.2.id = e.1) (id : BehaviorId) :
    l.lookup id = (l.map Prod.snd).find? fun b => b.id = id := by
  induction l with
  | nil => rfl
  | cons head rest ih =>
    obtain ⟨other, b⟩ := head
    obtain ⟨hhead, hrest⟩ := List.forall_mem_cons.1 h
    rw [lookup_cons_eq, List.map_cons, List.find?_cons, ih hrest, hhead]
    by_cases he : id = other
    · simp [he]
    · simp [he, Ne.symm he]

theorem Filed.find?_eq {t : IdTable Behavior} (h : t.Filed) (id : BehaviorId) :
    t.find? id = t.values.find? fun b => b.id = id := lookup_eq_find? h id

theorem Filed.contains_iff {t : IdTable Behavior} (h : t.Filed) (id : BehaviorId) :
    t.contains id = true ↔ ∃ b ∈ t.values, b.id = id := by
  rw [contains, h.find?_eq, List.find?_isSome]
  simp

theorem filter_of_sorted {l : List (UInt32 × Behavior)} (h : ∀ e ∈ l, e.2.id = e.1) {id : BehaviorId}
    (hlt : ∀ e ∈ l, id < e.1) :
    (l.map Prod.snd).filter (fun b => b.id < id) = [] ∧
      (l.map Prod.snd).filter (fun b => id < b.id) = l.map Prod.snd := by
  rw [List.filter_eq_nil_iff, List.filter_eq_self]
  constructor
  · intro b hb
    obtain ⟨e, he, rfl⟩ := List.mem_map.1 hb
    have := UInt32.lt_asymm (hlt e he)
    simp [h e he, this]
  · intro b hb
    obtain ⟨e, he, rfl⟩ := List.mem_map.1 hb
    simp [h e he, hlt e he]

/-- A behavior comes to stand between those with smaller ids and those with larger ones. -/
theorem map_insertEntry {l : List (UInt32 × Behavior)} (hs : l.Pairwise fun a b => a.1 < b.1)
    (h : ∀ e ∈ l, e.2.id = e.1) (id : BehaviorId) (v : Behavior) :
    (insertEntry id v l).map Prod.snd =
      (l.map Prod.snd).filter (fun b => b.id < id) ++ [v] ++ (l.map Prod.snd).filter fun b => id < b.id := by
  induction l with
  | nil => rfl
  | cons head rest ih =>
    obtain ⟨other, b⟩ := head
    obtain ⟨hsmall, hsorted⟩ := List.pairwise_cons.1 hs
    obtain ⟨hhead, hrest⟩ := List.forall_mem_cons.1 h
    simp only at hhead hsmall
    rw [insertEntry]
    split
    · rename_i hlt
      have hlarge : ∀ e ∈ (other, b) :: rest, id < e.1 := by
        intro e he
        rcases List.mem_cons.1 he with rfl | he
        · exact hlt
        · exact UInt32.lt_trans hlt (hsmall e he)
      obtain ⟨hnone, hall⟩ := filter_of_sorted h hlarge
      rw [hnone, hall]
      rfl
    · rename_i hnlt
      split
      · rename_i he
        subst he
        obtain ⟨hnone, hall⟩ := filter_of_sorted hrest hsmall
        simp [hhead, hnone, hall, UInt32.lt_irrefl]
      · rename_i hne
        have hlt : other < id := UInt32.lt_of_le_of_ne (UInt32.not_lt.1 hnlt) (Ne.symm hne)
        simp [hhead, hlt, hnlt, ih hsorted hrest]

theorem Filed.values_insert {t : IdTable Behavior} (h : t.Filed) (b : Behavior) :
    (t.insert b.id b).values =
      t.values.filter (fun other => other.id < b.id) ++ [b] ++ t.values.filter fun other => b.id < other.id :=
  map_insertEntry t.sorted h b.id b

end IdTable

namespace Graph

section
variable {g : Graph} (h : g.Indexed)
include h

theorem Indexed.nodeAt_listing (position : Coordinate) : g.listing.nodeAt position = g.nodeAt position := by
  unfold Listing.nodeAt nodeAt
  rw [h.byCoordinate.lookup_eq_find?]
  rfl

theorem Indexed.node_listing (id : NodeId) : g.listing.node id = g.node id := by
  unfold Listing.node node
  rw [h.byId.lookup_eq_find?]
  rfl

end

theorem behavior_listing {g : Graph} (h : g.behaviors.Filed) (id : BehaviorId) :
    g.listing.behavior id = g.behavior id := by
  unfold Listing.behavior behavior
  rw [h.find?_eq]
  rfl

theorem file_listing {g : Graph} (h : g.behaviors.Filed) (b : Behavior) :
    g.listing.file b = (g.withBehavior b.id b).listing := by
  unfold Listing.file listing
  rw [withBehavior_behaviors, h.values_insert]
  rfl

end Graph

end BeaconMap
