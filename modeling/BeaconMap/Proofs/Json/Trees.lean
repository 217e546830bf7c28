import BeaconMap.Proofs.Document.Trees
import BeaconMap.Proofs.Json.Records
/-!
# JSON values that say a tree

A JSON value that says a tree is found to be what the tree is (`found_of_says`), so its shape is known where it is a text,
a list or an object, and a reader that wants something else refuses it. It is well formed, so it may stand under an unknown
name (`isWhole_of_says`).
-/

namespace BeaconMap.JsonValue

variable {α : Type} (convert : Numeral → Option Binary64)

theorem mapM_names {members : List (JsonName × JsonValue)} {entries : List (String × JsonValue)}
    (h : (members.mapM fun (name, value) => match name with
      | .text name => some (name, value)
      | _ => none) = some entries) : members = entries.map named := by
  induction members generalizing entries with
  | nil =>
    cases h
    rfl
  | cons m rest ih =>
    obtain ⟨name, v⟩ := m
    rw [List.mapM_cons] at h
    obtain ⟨e, he, h⟩ := Option.bind_eq_some_iff.1 h
    obtain ⟨more, hmore, h⟩ := Option.bind_eq_some_iff.1 h
    cases h
    cases name with
    | text name =>
      cases he
      rw [List.map_cons, ← ih hmore]
      rfl
    | unpaired => cases he
    | absent => cases he

theorem eq_of_entries? {v : JsonValue} {entries : List (String × JsonValue)}
    (h : (view convert).entries? v = some entries) : v = ofMembers entries := by
  simp only [view] at h
  split at h
  · rw [mapM_names h]
    rfl
  · cases h

theorem eq_of_items? {v : JsonValue} {items : List JsonValue} (h : (view convert).items? v = some items) :
    v = .array items true := by
  simp only [view] at h
  split at h
  · cases h
    rfl
  · cases h

theorem found_of_says {v : JsonValue} {t : DataTree} (h : (view convert).Says v t) : found convert v = .ok t.found := by
  cases h with
  | string h | boolean h | integer h | real h => exact h
  | array h _ => rw [eq_of_items? convert h]; rfl
  | table h _ _ _ => rw [eq_of_entries? convert h]; rfl

theorem found_number (n : Numeral) {x : Found} (h : found convert (.number n) = .ok x) :
    (∃ i, x = .integer i) ∨ ∃ r, x = .real r := by
  simp only [found, JsonNumber.found] at h
  split at h
  · cases h
    exact .inl ⟨_, rfl⟩
  · split at h
    · cases h
      exact .inr ⟨_, rfl⟩
    · cases h

theorem eq_of_found_string {v : JsonValue} {s : String} (h : found convert v = .ok (.string s)) : v = .string s := by
  cases v with
  | string s' => cases h; rfl
  | number n => rcases found_number convert n h with ⟨_, hx⟩ | ⟨_, hx⟩ <;> cases hx
  | _ => cases h

theorem toOption_mismatch (v : JsonValue) (expected : Expected) :
    (mismatch convert v expected : Except Problem α).toOption = none := by
  unfold mismatch
  cases found convert v <;> rfl

section
variable {v : JsonValue} {x : Found} (h : found convert v = .ok x)
include h

/-- What is not found to be a list is not read as one. -/
theorem toOption_list_of_found (hs : x ≠ .sequence) (read : JsonValue → Except Problem α) :
    (list convert read v).toOption = none := by
  cases v with
  | array items closed => exact absurd (Except.ok.inj h).symm hs
  | _ => exact toOption_mismatch convert _ _

/-- What is not found to be a list or a table is not read as a record. -/
theorem toOption_record_of_found (hs : x ≠ .sequence) (hm : x ≠ .map) (r : Record JsonValue α) :
    (record convert r v).toOption = none := by
  cases v with
  | array items closed => exact absurd (Except.ok.inj h).symm hs
  | object members closed => exact absurd (Except.ok.inj h).symm hm
  | _ => exact toOption_mismatch convert _ _

/-- What is not found to be a text or a table is not read as a variant. -/
theorem toOption_variant_of_found (hs : ∀ s, x ≠ .string s) (hm : x ≠ .map) (known : List (String × α)) :
    (variant convert known v).toOption = none := by
  cases v with
  | string s => exact absurd (Except.ok.inj h).symm (hs s)
  | object members closed => exact absurd (Except.ok.inj h).symm hm
  | _ => rfl

end

theorem areWhole_iff (items : List JsonValue) : areWhole items = true ↔ ∀ v ∈ items, v.isWhole = true := by
  induction items with
  | nil => simp [areWhole]
  | cons item rest ih => simp [areWhole, ih]

theorem isWhole_ofMembers {entries : List (String × JsonValue)} (h : areWhole (entries.map Prod.snd) = true) :
    (ofMembers entries).isWhole = true := by
  have hmembers : areWholeMembers (entries.map named) = true := by
    induction entries with
    | nil => rfl
    | cons e rest ih =>
      rw [List.map_cons, areWhole, Bool.and_eq_true] at h
      rw [List.map_cons, named, areWholeMembers, h.1, ih h.2]
      rfl
  exact hmembers

mutual

/-- A value that says a tree is well formed. -/
theorem isWhole_of_says {v : JsonValue} {t : DataTree} : (view convert).Says v t → v.isWhole = true
  | .string h => by rw [eq_of_found_string convert h]; rfl
  | .boolean h => by
    cases v <;> first | rfl | cases h
  | .integer h => by
    cases v <;> first | rfl | cases h
  | .real h => by
    cases v <;> first | rfl | cases h
  | .array h hall => by
    rw [eq_of_items? convert h]
    exact areWhole_of_saysAll hall
  | .table h hperm _ hall => by
    rw [eq_of_entries? convert h]
    refine isWhole_ofMembers ((areWhole_iff _).2 fun v hv => ?_)
    exact (areWhole_iff _).1 (areWhole_of_saysAll hall) v ((hperm.map Prod.snd).mem_iff.1 hv)

theorem areWhole_of_saysAll {values : List JsonValue} {trees : List DataTree} :
    (view convert).SaysAll values trees → areWhole values = true
  | .nil => rfl
  | .cons hv hrest => by
    rw [areWhole, isWhole_of_says hv, areWhole_of_saysAll hrest]
    rfl

end

end BeaconMap.JsonValue
