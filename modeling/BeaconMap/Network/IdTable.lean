/-!
# Tables keyed by id

An `IdTable` holds its entries in strictly increasing order of id, so two tables with the same entries are
equal. `insert` replaces the entry of an id that is already there. An `IdSet` is a table whose entries
carry nothing but their id.
-/

namespace BeaconMap

/-- Entries keyed by id, in strictly increasing order. -/
structure IdTable (α : Type) where
  entries : List (UInt32 × α)
  sorted : entries.Pairwise (fun a b => a.1 < b.1) := by exact List.Pairwise.nil

namespace IdTable

variable {α : Type}

instance [DecidableEq α] : DecidableEq (IdTable α) := fun s t =>
  if h : s.entries = t.entries then
    .isTrue (by cases s; cases t; cases h; rfl)
  else
    .isFalse (fun e => h (congrArg entries e))

/-- The table without entries. -/
def empty : IdTable α := { entries := [] }

instance : Inhabited (IdTable α) := ⟨empty⟩

/-- Puts an entry at its place, over the one with the same id if there is one. -/
def insertEntry (id : UInt32) (value : α) : List (UInt32 × α) → List (UInt32 × α)
  | [] => [(id, value)]
  | (other, old) :: rest =>
    if id < other then (id, value) :: (other, old) :: rest
    else if id = other then (id, value) :: rest
    else (other, old) :: insertEntry id value rest

theorem fst_of_mem_insertEntry {id : UInt32} {value : α} {l : List (UInt32 × α)} {e : UInt32 × α}
    (h : e ∈ insertEntry id value l) : e.1 = id ∨ e ∈ l := by
  induction l with
  | nil => simp [insertEntry] at h; simp [h]
  | cons head rest ih =>
    obtain ⟨other, old⟩ := head
    simp only [insertEntry] at h
    split at h
    · rcases List.mem_cons.1 h with rfl | h
      · exact .inl rfl
      · exact .inr h
    · split at h
      · rcases List.mem_cons.1 h with rfl | h
        · exact .inl rfl
        · exact .inr (List.mem_cons_of_mem _ h)
      · rcases List.mem_cons.1 h with rfl | h
        · exact .inr List.mem_cons_self
        · exact (ih h).imp_right (List.mem_cons_of_mem _)

theorem sorted_insertEntry (id : UInt32) (value : α) {l : List (UInt32 × α)}
    (h : l.Pairwise (fun a b => a.1 < b.1)) : (insertEntry id value l).Pairwise (fun a b => a.1 < b.1) := by
  induction l with
  | nil => simp [insertEntry]
  | cons head rest ih =>
    obtain ⟨other, old⟩ := head
    obtain ⟨hhead, hrest⟩ := List.pairwise_cons.1 h
    simp only [insertEntry]
    split
    · rename_i hlt
      refine List.pairwise_cons.2 ⟨fun e he => ?_, h⟩
      rcases List.mem_cons.1 he with rfl | he
      · exact hlt
      · exact UInt32.lt_trans hlt (hhead e he)
    · split
      · rename_i heq
        exact List.pairwise_cons.2 ⟨fun e he => heq ▸ hhead e he, hrest⟩
      · rename_i hlt hne
        refine List.pairwise_cons.2 ⟨fun e he => ?_, ih hrest⟩
        rcases fst_of_mem_insertEntry he with he | he
        · have hle : other ≤ id := UInt32.not_lt.1 hlt
          exact he ▸ UInt32.lt_of_le_of_ne hle (fun e => hne e.symm)
        · exact hhead e he

/-- The table with the entry `value` under `id`. -/
def insert (t : IdTable α) (id : UInt32) (value : α) : IdTable α :=
  ⟨insertEntry id value t.entries, sorted_insertEntry id value t.sorted⟩

/-- The entry under `id`, if there is one. -/
def find? (t : IdTable α) (id : UInt32) : Option α := t.entries.lookup id

/-- There is an entry under `id`. -/
def contains (t : IdTable α) (id : UInt32) : Bool := (t.find? id).isSome

/-- The ids of the entries, in increasing order. -/
def ids (t : IdTable α) : List UInt32 := t.entries.map Prod.fst

/-- The entries without their ids, in increasing order of id. -/
def values (t : IdTable α) : List α := t.entries.map Prod.snd

/-- The number of entries. -/
def size (t : IdTable α) : Nat := t.entries.length

end IdTable

/-- A set of ids. -/
abbrev IdSet := IdTable Unit

/-- The set with `id` in it. -/
def IdSet.add (s : IdSet) (id : UInt32) : IdSet := IdTable.insert s id ()

end BeaconMap
