import BeaconMap.Proofs.Document.Records
import BeaconMap.Proofs.Document.Trees
/-!
# TOML values that say a tree

A TOML value that says a tree is found to be what the tree is (`found_of_says`). A list is read as its items are, however
it is written (`list_of_items?`), a table as its entries are (`record_of_entries?`), and a reader that wants something else
refuses the value.
-/

namespace BeaconMap.TomlValue

variable {α : Type}

theorem found_of_says {w : TomlValue} {t : DataTree} (h : view.Says w t) : w.found = t.found := by
  cases h with
  | string h | boolean h | integer h | real h => exact Except.ok.inj h
  | array h _ =>
    simp only [view] at h
    split at h
    · rfl
    · rfl
    · cases h
  | table h _ _ _ =>
    simp only [view] at h
    split at h
    · rfl
    · cases h

theorem eq_of_found_string {w : TomlValue} {s : String} (h : w.found = .string s) : w = .string s := by
  cases w <;> cases h
  rfl

theorem list_of_items? {w : TomlValue} {items : List TomlValue} (h : view.items? w = some items)
    (read : TomlValue → Except Problem α) : list read w = items.mapM read := by
  simp only [view] at h
  split at h
  · cases h
    rfl
  · cases h
    rfl
  · cases h

theorem readEntries_eq (r : Record TomlValue α) (entries : TomlEntries) :
    readEntries r entries = r.ofEntries (fun _ => .ok ()) entries := by
  unfold readEntries Record.ofEntries
  refine congrArg (fun step => do
    let target ← entries.foldlM step r.blank
    r.requireAll (entries.map Prod.fst)
    return target) (funext₂ fun target entry => ?_)
  obtain ⟨name, content⟩ := entry
  unfold Record.take
  dsimp only
  cases r.field? name <;> rfl

theorem record_of_entries? {w : TomlValue} {entries : List (String × TomlValue)} (h : view.entries? w = some entries)
    (r : Record TomlValue α) : record r w = r.ofEntries (fun _ => .ok ()) entries := by
  simp only [view] at h
  split at h
  · cases h
    exact readEntries_eq r _
  · cases h

section
variable {w : TomlValue}

/-- What is not found to be a list is not read as one. -/
theorem toOption_list_of_found (hs : w.found ≠ .sequence) (read : TomlValue → Except Problem α) :
    (list read w).toOption = none := by
  cases w with
  | array items => exact absurd rfl hs
  | tables items => exact absurd rfl hs
  | _ => rfl

/-- What is not found to be a list or a table is not read as a record. -/
theorem toOption_record_of_found (hs : w.found ≠ .sequence) (hm : w.found ≠ .map) (r : Record TomlValue α) :
    (record r w).toOption = none := by
  cases w with
  | array items => exact absurd rfl hs
  | tables items => exact absurd rfl hs
  | datetime => exact absurd rfl hm
  | table origin entries => exact absurd rfl hm
  | _ => rfl

/-- What is not found to be a text or a table is not read as a variant. -/
theorem toOption_variant_of_found (hs : ∀ s, w.found ≠ .string s) (hm : w.found ≠ .map) (known : List (String × α)) :
    (variant known w).toOption = none := by
  cases w with
  | string s => exact absurd rfl (hs s)
  | table origin entries => exact absurd rfl hm
  | _ => rfl

end

end BeaconMap.TomlValue
