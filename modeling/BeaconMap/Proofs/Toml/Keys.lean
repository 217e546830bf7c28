import BeaconMap.Toml.Reader
import Mathlib
/-!
# The keys of a document

Whatever a statement of a TOML text does deeper in the document, the entries of the top table change in one of three
ways (`TomlEntries.Changes`): a new key is added, a key gets another value, or a key moves to the end. So no key stands
twice among the entries that are read from a text (`TomlEntries.nodup_of_ofText?`).
-/

namespace BeaconMap

namespace TomlEntries

/-- What one statement can do to the entries of the top table. -/
inductive Changes (entries : TomlEntries) : TomlEntries → Prop
  | add {key : String} (h : entries.lookup key = none) (value : TomlValue) : Changes entries (entries ++ [(key, value)])
  | replace (key : String) (value : TomlValue) : Changes entries (entries.replace key value)
  | move (key : String) (value : TomlValue) : Changes entries (entries.filter (fun (k, _) => k ≠ key) ++ [(key, value)])

theorem map_fst_replace (entries : TomlEntries) (key : String) (value : TomlValue) :
    (entries.replace key value).map Prod.fst = entries.map Prod.fst := by
  rw [replace, List.map_map]
  refine List.map_congr_left fun entry _ => ?_
  simp only [Function.comp_apply]
  split <;> rfl

theorem Changes.nodup {entries entries' : TomlEntries} (h : Changes entries entries')
    (hn : (entries.map Prod.fst).Nodup) : (entries'.map Prod.fst).Nodup := by
  have hadd {l : TomlEntries} {key : String} (value : TomlValue) (hl : (l.map Prod.fst).Nodup)
      (hkey : key ∉ l.map Prod.fst) : ((l ++ [(key, value)]).map Prod.fst).Nodup := by
    rw [List.map_append, List.map_singleton, ← List.concat_eq_append]
    exact hl.concat hkey
  cases h with
  | add hnone value =>
    refine hadd value hn fun hmem => ?_
    obtain ⟨entry, hentry, rfl⟩ := List.mem_map.1 hmem
    exact absurd (List.lookup_eq_none_iff.1 hnone entry hentry) (by simp)
  | replace key value => rwa [map_fst_replace]
  | move key value =>
    refine hadd value (hn.sublist (List.filter_sublist.map _)) fun hmem => ?_
    obtain ⟨entry, hentry, hkey⟩ := List.mem_map.1 hmem
    exact absurd hkey (by simpa using (List.mem_filter.1 hentry).2)

/-! ## What changes the entries -/

variable {entries entries' : TomlEntries}

theorem changes_addDotted {path : List String} {key : String} {value : TomlValue}
    (h : entries.addDotted path key value = some entries') : Changes entries entries' := by
  unfold addDotted at h
  split at h
  · unfold addNew at h
    split at h
    · cases h
    · rename_i hnew
      cases h
      exact .add (Option.not_isSome_iff_eq_none.1 hnew) _
  · split at h
    · rename_i hnone
      obtain ⟨inner, -, hinner⟩ := Option.bind_eq_some_iff.1 h
      cases hinner
      exact .add hnone _
    · obtain ⟨inner, -, hinner⟩ := Option.bind_eq_some_iff.1 h
      cases hinner
      exact .replace _ _
    · split at h
      · cases h
      · obtain ⟨inner, -, hinner⟩ := Option.bind_eq_some_iff.1 h
        cases hinner
        exact .replace _ _
    · split at h
      · obtain ⟨inner, -, hinner⟩ := Option.bind_eq_some_iff.1 h
        cases hinner
        exact .replace _ _
      · cases h
    · cases h

theorem changes_defineTable {key : String} (h : entries.defineTable key = some entries') : Changes entries entries' := by
  unfold defineTable at h
  split at h
  · rename_i hnone
    cases h
    exact .add hnone _
  · cases h
    exact .move _ _
  · cases h

theorem changes_extendTables {key : String} (h : entries.extendTables key = some entries') : Changes entries entries' := by
  unfold extendTables at h
  split at h
  · rename_i hnone
    cases h
    exact .add hnone _
  · cases h
    exact .replace _ _
  · cases h

/-- A change further down replaces the value of a key, or adds the first table on the way. -/
theorem changes_changeAt {change : TomlEntries → Option TomlEntries} {path : List String}
    (hchange : ∀ entries entries', change entries = some entries' → Changes entries entries')
    (h : entries.changeAt change path = some entries') : Changes entries entries' := by
  unfold changeAt at h
  split at h
  · exact hchange _ _ h
  · split at h
    · rename_i hnone
      obtain ⟨inner, -, hinner⟩ := Option.bind_eq_some_iff.1 h
      cases hinner
      exact .add hnone _
    · cases h
    · obtain ⟨inner, -, hinner⟩ := Option.bind_eq_some_iff.1 h
      cases hinner
      exact .replace _ _
    · split at h
      · obtain ⟨inner, -, hinner⟩ := Option.bind_eq_some_iff.1 h
        cases hinner
        exact .replace _ _
      · cases h
    · cases h

end TomlEntries

namespace TomlReader

open TomlEntries

theorem changes_statement {progress progress' : Progress} {text rest : List Char}
    (h : statement progress text = some (progress', rest)) : Changes progress.entries progress'.entries := by
  unfold statement at h
  split at h
  · obtain ⟨⟨⟨path, key⟩, rest⟩, -, h⟩ := Option.bind_eq_some_iff.1 h
    obtain ⟨rest, -, h⟩ := Option.bind_eq_some_iff.1 h
    obtain ⟨rest, -, h⟩ := Option.bind_eq_some_iff.1 h
    obtain ⟨entries, hentries, h⟩ := Option.bind_eq_some_iff.1 h
    cases h
    exact changes_changeAt (fun _ _ => changes_extendTables) hentries
  · obtain ⟨⟨⟨path, key⟩, rest⟩, -, h⟩ := Option.bind_eq_some_iff.1 h
    obtain ⟨rest, -, h⟩ := Option.bind_eq_some_iff.1 h
    obtain ⟨entries, hentries, h⟩ := Option.bind_eq_some_iff.1 h
    cases h
    exact changes_changeAt (fun _ _ => changes_defineTable) hentries
  · obtain ⟨⟨found, rest⟩, -, h⟩ := Option.bind_eq_some_iff.1 h
    obtain ⟨entries, hentries, h⟩ := Option.bind_eq_some_iff.1 h
    cases h
    exact changes_changeAt (fun _ _ => changes_addDotted) hentries

theorem nodup_of_statements {fuel : Nat} {progress : Progress} {text : List Char} {entries : TomlEntries}
    (h : statements fuel progress text = some entries) (hn : (progress.entries.map Prod.fst).Nodup) :
    (entries.map Prod.fst).Nodup := by
  induction fuel generalizing progress text with
  | zero => cases h
  | succ fuel ih =>
    unfold statements at h
    split at h
    · cases h
      exact hn
    · split at h
      · exact ih h hn
      · obtain ⟨⟨next, rest⟩, hnext, h⟩ := Option.bind_eq_some_iff.1 h
        obtain ⟨rest, -, h⟩ := Option.bind_eq_some_iff.1 h
        exact ih h ((changes_statement hnext).nodup hn)

end TomlReader

/-- No key stands twice in the top table of a document. -/
theorem TomlEntries.nodup_of_ofText? {text : String} {entries : TomlEntries} (h : ofText? text = some entries) :
    (entries.map Prod.fst).Nodup := TomlReader.nodup_of_statements h List.nodup_nil

end BeaconMap
