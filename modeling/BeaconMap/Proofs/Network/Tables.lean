import BeaconMap.Network.IdTable
import Mathlib
/-!
# What a table answers

A table is known by its answers: `find?_insert` says what an insertion changes, and the ids and entries of a
table are those it answers for.
-/

namespace BeaconMap

namespace IdTable

variable {α : Type} (t : IdTable α)

@[simp] theorem find?_empty (id : UInt32) : (empty : IdTable α).find? id = none := rfl

@[simp] theorem ids_empty : (empty : IdTable α).ids = [] := rfl

theorem lookup_cons_eq (id k : UInt32) (v : α) (l : List (UInt32 × α)) :
    ((id, v) :: l).lookup k = if k = id then some v else l.lookup k := by
  by_cases h : k = id
  · simp [h]
  · rw [List.lookup_cons, beq_false_of_ne h, if_neg h]

theorem lookup_insertEntry (id k : UInt32) (v : α) (l : List (UInt32 × α)) :
    (insertEntry id v l).lookup k = if k = id then some v else l.lookup k := by
  induction l with
  | nil => simp [insertEntry, lookup_cons_eq]
  | cons head rest ih =>
    obtain ⟨other, old⟩ := head
    simp only [insertEntry]
    split
    · rw [lookup_cons_eq]
    · split
      · rename_i he
        subst he
        simp only [lookup_cons_eq]
        split <;> rfl
      · rename_i hne
        rw [lookup_cons_eq, lookup_cons_eq, ih]
        by_cases h : k = other
        · simp [h, Ne.symm hne]
        · simp [h]

/-- An insertion changes the answer for its own id only. -/
@[simp] theorem find?_insert (id k : UInt32) (v : α) :
    (t.insert id v).find? k = if k = id then some v else t.find? k :=
  lookup_insertEntry id k v t.entries

theorem lookup_eq_some_iff {l : List (UInt32 × α)} (h : (l.map Prod.fst).Nodup) (k : UInt32) (v : α) :
    l.lookup k = some v ↔ (k, v) ∈ l := by
  induction l with
  | nil => simp
  | cons head rest ih =>
    obtain ⟨id, old⟩ := head
    obtain ⟨hhead, hrest⟩ := List.nodup_cons.1 h
    rw [lookup_cons_eq]
    by_cases he : k = id
    · subst he
      have hn : (k, v) ∉ rest := fun hm => hhead (List.mem_map.2 ⟨_, hm, rfl⟩)
      simp [hn, eq_comm]
    · simp [ih hrest, he]

theorem ids_nodup : t.ids.Nodup := by
  refine (List.pairwise_map.2 t.sorted).imp ?_
  intro a b h he
  exact UInt32.lt_irrefl b (he ▸ h)

/-- The table answers with its entries and nothing else. -/
theorem find?_eq_some_iff (k : UInt32) (v : α) : t.find? k = some v ↔ (k, v) ∈ t.entries :=
  lookup_eq_some_iff t.ids_nodup k v

theorem mem_ids_iff (k : UInt32) : k ∈ t.ids ↔ ∃ v, t.find? k = some v := by
  simp [ids, find?_eq_some_iff]

theorem find?_eq_none_iff (k : UInt32) : t.find? k = none ↔ k ∉ t.ids := by
  rw [mem_ids_iff]
  cases t.find? k <;> simp

theorem contains_iff (k : UInt32) : t.contains k = true ↔ k ∈ t.ids := by
  rw [contains, Option.isSome_iff_exists, mem_ids_iff]

@[simp] theorem mem_ids_insert (id k : UInt32) (v : α) : k ∈ (t.insert id v).ids ↔ k = id ∨ k ∈ t.ids := by
  rw [mem_ids_iff, mem_ids_iff, find?_insert]
  by_cases h : k = id <;> simp [h]

end IdTable

@[simp] theorem IdSet.mem_ids_add (s : IdSet) (id k : UInt32) : k ∈ (s.add id).ids ↔ k = id ∨ k ∈ s.ids :=
  IdTable.mem_ids_insert s id k ()

end BeaconMap
