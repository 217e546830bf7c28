import BeaconMap.Proofs.Document.Records
/-!
# Records read in parts

Whether a record can be read is settled value by value, but for the required fields (`Record.exists_ofEntries_iff`). So
the values of one name can be read apart from the others (`Record.ofEntries_only`), a field that has no value keeps its
default (`Record.ofEntries_absent`), and what stands under unknown names, when it is passed over without a look, makes no
difference (`Record.ofEntries_known`).
-/

namespace BeaconMap

namespace Record

variable {V α : Type} {r : Record V α} {skip : V → Except Problem Unit}

theorem toOption_eq_some_iff {β ε : Type} {x : Except ε β} {b : β} : x.toOption = some b ↔ x = .ok b := by
  cases x <;> simp [Except.toOption]

theorem take_eq_ok_iff {target result : α} {entry : String × V} :
    r.take skip target entry = .ok result ↔ ∃ change, r.effect skip entry = some change ∧ change target = result := by
  rw [← toOption_eq_some_iff, toOption_take, Option.map_eq_some_iff]

/-- What a value changes is the field with its name, or nothing. -/
theorem effect_cases {entry : String × V} {change : α → α} (h : r.effect skip entry = some change) :
    change = id ∨ ∃ f ∈ r.fields, f.name = entry.1 ∧ ∃ value, change = f.put value := by
  unfold effect at h
  cases hf : r.field? entry.1 with
  | none =>
    rw [hf] at h
    obtain ⟨-, -, rfl⟩ := Option.map_eq_some_iff.1 h
    exact .inl rfl
  | some f =>
    rw [hf] at h
    obtain ⟨value, -, rfl⟩ := Option.map_eq_some_iff.1 h
    obtain ⟨hmem, hname⟩ := field?_eq_some hf
    exact .inr ⟨f, hmem, hname, value, rfl⟩

/-- Storing values is making their changes one after the other. -/
theorem foldlM_take_cons_eq_ok_iff {entry : String × V} {entries : List (String × V)} {target result : α} :
    (entry :: entries).foldlM (r.take skip) target = .ok result ↔
      ∃ change, r.effect skip entry = some change ∧ entries.foldlM (r.take skip) (change target) = .ok result := by
  rw [List.foldlM_cons]
  cases htake : r.take skip target entry with
  | error p =>
    constructor
    · rintro ⟨⟩
    · rintro ⟨change, hchange, -⟩
      rw [take_eq_ok_iff.2 ⟨change, hchange, rfl⟩] at htake
      cases htake
  | ok next =>
    obtain ⟨change, hchange, rfl⟩ := take_eq_ok_iff.1 htake
    constructor
    · exact fun h => ⟨change, hchange, h⟩
    · rintro ⟨change', hchange', h⟩
      cases hchange.symm.trans hchange'
      exact h

theorem requireAll_eq_ok_iff {seen : List String} :
    r.requireAll seen = .ok () ↔ ∀ f ∈ r.fields, f.required = true → f.name ∈ seen := by
  unfold requireAll
  split
  · rename_i f hf
    have hmem := List.mem_of_find?_eq_some hf
    have hmissing : f.required = true ∧ f.name ∉ seen := by simpa using List.find?_some hf
    constructor
    · rintro ⟨⟩
    · exact fun h => absurd (h f hmem hmissing.1) hmissing.2
  · rename_i hnone
    refine ⟨fun _ f hf hrequired => ?_, fun _ => rfl⟩
    simpa [hrequired] using List.find?_eq_none.1 hnone f hf

theorem ofEntries_eq_ok_iff {entries : List (String × V)} {result : α} :
    r.ofEntries skip entries = .ok result ↔ entries.foldlM (r.take skip) r.blank = .ok result ∧
      ∀ f ∈ r.fields, f.required = true → f.name ∈ entries.map Prod.fst := by
  rw [← requireAll_eq_ok_iff, ofEntries]
  cases entries.foldlM (r.take skip) r.blank with
  | error p =>
    constructor
    · rintro ⟨⟩
    · rintro ⟨⟨⟩, -⟩
  | ok target =>
    cases r.requireAll (entries.map Prod.fst) with
    | error p =>
      constructor
      · rintro ⟨⟩
      · rintro ⟨-, ⟨⟩⟩
    | ok u => exact ⟨fun h => ⟨h, rfl⟩, fun h => h.1⟩

/-- All values can be stored when each of them can be read. -/
theorem exists_foldlM_take_iff {entries : List (String × V)} {target : α} :
    (∃ result, entries.foldlM (r.take skip) target = .ok result) ↔ ∀ e ∈ entries, ∃ change, r.effect skip e = some change := by
  induction entries generalizing target with
  | nil => simp [pure, Except.pure]
  | cons e entries ih =>
    simp only [foldlM_take_cons_eq_ok_iff, List.forall_mem_cons]
    constructor
    · rintro ⟨result, change, hchange, hrest⟩
      exact ⟨⟨change, hchange⟩, ih.1 ⟨result, hrest⟩⟩
    · rintro ⟨⟨change, hchange⟩, hrest⟩
      obtain ⟨result, hresult⟩ := ih.2 hrest
      exact ⟨result, change, hchange, hresult⟩

/-- A record can be read when each value can be and no required field is missing. -/
theorem exists_ofEntries_iff {entries : List (String × V)} :
    (∃ result, r.ofEntries skip entries = .ok result) ↔ (∀ e ∈ entries, ∃ change, r.effect skip e = some change) ∧
      ∀ f ∈ r.fields, f.required = true → f.name ∈ entries.map Prod.fst := by
  simp only [ofEntries_eq_ok_iff, exists_and_right, exists_foldlM_take_iff]

/-! ## One name -/

/-- The values of one name. -/
def only (name : String) (entries : List (String × V)) : List (String × V) := entries.filter fun entry => entry.1 = name

theorem only_eq_singleton {entries : List (String × V)} (hn : (entries.map Prod.fst).Nodup) {e : String × V}
    (he : e ∈ entries) : only e.1 entries = [e] := by
  induction entries with
  | nil => cases he
  | cons d entries ih =>
    rw [List.map_cons, List.nodup_cons] at hn
    unfold only at ih ⊢
    rcases List.mem_cons.1 he with rfl | he
    · rw [List.filter_cons_of_pos (by simp), List.filter_eq_nil_iff.2]
      intro d hd
      simpa using fun hname : d.1 = e.1 => hn.1 (hname ▸ List.mem_map_of_mem hd)
    · have hne : d.1 ≠ e.1 := fun hname => hn.1 (hname ▸ List.mem_map_of_mem he)
      rw [List.filter_cons_of_neg (by simpa using hne)]
      exact ih hn.2 he

/-- One value is read by the field with its name. -/
theorem read_of_ofEntries_singleton {e : String × V} {result : α} (h : r.ofEntries skip [e] = .ok result)
    {f : Field V α} (hf : r.field? e.1 = some f) : ∃ value, f.read e.2 = .ok value ∧ f.put value r.blank = result := by
  obtain ⟨change, hchange, hresult⟩ := foldlM_take_cons_eq_ok_iff.1 (ofEntries_eq_ok_iff.1 h).1
  cases hresult
  unfold effect at hchange
  rw [hf] at hchange
  obtain ⟨value, hvalue, rfl⟩ := Option.map_eq_some_iff.1 hchange
  exact ⟨value, toOption_eq_some_iff.1 hvalue, rfl⟩

section
variable {name : String} {keep : α → α}

/-- Fields of this name are kept, the others are left out. -/
def Keeps (r : Record V α) (name : String) (keep : α → α) : Prop :=
  ∀ f ∈ r.fields, ∀ value target, keep (f.put value target) = if f.name = name then f.put value (keep target) else keep target

theorem Keeps.change (h : r.Keeps name keep) {e : String × V} {change : α → α} (hchange : r.effect skip e = some change)
    (target : α) : keep (change target) = if e.1 = name then change (keep target) else keep target := by
  rcases effect_cases hchange with rfl | ⟨f, hf, hname, value, rfl⟩
  · split <;> rfl
  · rw [← hname]
    exact h f hf value target

/-- What the values of one name make of a record is what all make of it, as far as it is kept. -/
theorem Keeps.foldlM_only (h : r.Keeps name keep) {entries : List (String × V)} {target result : α}
    (hall : entries.foldlM (r.take skip) target = .ok result) :
    (only name entries).foldlM (r.take skip) (keep target) = .ok (keep result) := by
  induction entries generalizing target with
  | nil =>
    cases hall
    rfl
  | cons e entries ih =>
    obtain ⟨change, hchange, hrest⟩ := foldlM_take_cons_eq_ok_iff.1 hall
    have honly := ih hrest
    rw [h.change hchange] at honly
    unfold only at honly ⊢
    by_cases hname : e.1 = name
    · rw [if_pos hname] at honly
      rw [List.filter_cons_of_pos (by simpa using hname)]
      exact foldlM_take_cons_eq_ok_iff.2 ⟨change, hchange, honly⟩
    · rw [if_neg hname] at honly
      rw [List.filter_cons_of_neg (by simpa using hname)]
      exact honly

theorem Keeps.ofEntries_only (h : r.Keeps name keep) (hblank : keep r.blank = r.blank)
    (hrequired : ∀ f ∈ r.fields, f.required = false) {entries : List (String × V)} {result : α}
    (hall : r.ofEntries skip entries = .ok result) : r.ofEntries skip (only name entries) = .ok (keep result) := by
  have honly := h.foldlM_only (ofEntries_eq_ok_iff.1 hall).1
  rw [hblank] at honly
  exact ofEntries_eq_ok_iff.2 ⟨honly, fun f hf hreq => by rw [hrequired f hf] at hreq; cases hreq⟩

end

/-! ## Fields without a value -/

section
variable {γ : Type} {name : String} {get : α → γ}

theorem foldlM_absent (hget : ∀ f ∈ r.fields, f.name ≠ name → ∀ value target, get (f.put value target) = get target)
    {entries : List (String × V)} (hname : name ∉ entries.map Prod.fst) {target result : α}
    (h : entries.foldlM (r.take skip) target = .ok result) : get result = get target := by
  induction entries generalizing target with
  | nil =>
    cases h
    rfl
  | cons e entries ih =>
    rw [List.map_cons, List.mem_cons, not_or] at hname
    obtain ⟨change, hchange, hrest⟩ := foldlM_take_cons_eq_ok_iff.1 h
    rw [ih hname.2 hrest]
    rcases effect_cases hchange with rfl | ⟨f, hf, hentry, value, rfl⟩
    · rfl
    · exact hget f hf (hentry ▸ Ne.symm hname.1) value target

/-- What only one field touches has its default when this field has no value. -/
theorem ofEntries_absent (hget : ∀ f ∈ r.fields, f.name ≠ name → ∀ value target, get (f.put value target) = get target)
    {entries : List (String × V)} (hname : name ∉ entries.map Prod.fst) {result : α}
    (h : r.ofEntries skip entries = .ok result) : get result = get r.blank :=
  foldlM_absent hget hname (ofEntries_eq_ok_iff.1 h).1

end

/-! ## Unknown names -/

section
variable {names : List String}

theorem field?_eq_none (hnames : ∀ f ∈ r.fields, f.name ∈ names) {name : String} (h : name ∉ names) :
    r.field? name = none := by
  cases hf : r.field? name with
  | none => rfl
  | some f =>
    obtain ⟨hmem, rfl⟩ := field?_eq_some hf
    exact absurd (hnames f hmem) h

/-- Values under names that no field has can be taken away. -/
theorem ofEntries_known (hnames : ∀ f ∈ r.fields, f.name ∈ names) (entries : List (String × V)) :
    r.ofEntries (fun _ => .ok ()) (entries.filter fun e => e.1 ∈ names) = r.ofEntries (fun _ => .ok ()) entries := by
  have hfold (target : α) : (entries.filter fun e => e.1 ∈ names).foldlM (r.take fun _ => .ok ()) target =
      entries.foldlM (r.take fun _ => .ok ()) target := by
    induction entries generalizing target with
    | nil => rfl
    | cons e entries ih =>
      by_cases hknown : e.1 ∈ names
      · rw [List.filter_cons_of_pos (by simpa using hknown), List.foldlM_cons, List.foldlM_cons]
        exact congrArg _ (funext ih)
      · have htake : r.take (fun _ => .ok ()) target e = .ok target := by
          unfold take
          rw [field?_eq_none hnames hknown]
          rfl
        rw [List.filter_cons_of_neg (by simpa using hknown), List.foldlM_cons, htake]
        exact ih target
  have hall : r.requireAll ((entries.filter fun e => e.1 ∈ names).map Prod.fst) = r.requireAll (entries.map Prod.fst) := by
    refine requireAll_congr fun f hf => ?_
    simp only [List.mem_map, List.mem_filter, decide_eq_true_eq]
    constructor
    · rintro ⟨e, he, hname⟩
      exact ⟨e, he.1, hname⟩
    · rintro ⟨e, he, hname⟩
      exact ⟨e, ⟨he, hname ▸ hnames f hf⟩, hname⟩
  unfold ofEntries
  rw [hfold, hall]

/-- Values can be replaced by others that their fields read alike. -/
theorem ofEntries_map (rewrite : String → V → V)
    (hread : ∀ f ∈ r.fields, ∀ value, f.read (rewrite f.name value) = f.read value) (entries : List (String × V)) :
    r.ofEntries (fun _ => .ok ()) (entries.map fun e => (e.1, rewrite e.1 e.2)) = r.ofEntries (fun _ => .ok ()) entries := by
  have htake (target : α) (e : String × V) :
      r.take (fun _ => .ok ()) target (e.1, rewrite e.1 e.2) = r.take (fun _ => .ok ()) target e := by
    unfold take
    dsimp only
    cases hf : r.field? e.1 with
    | none => rfl
    | some f =>
      obtain ⟨hmem, hname⟩ := field?_eq_some hf
      dsimp only
      rw [Field.store, Field.store, ← hname, hread f hmem]
  unfold ofEntries
  rw [List.foldlM_map, List.map_map]
  simp only [htake]
  rfl

end

end Record

end BeaconMap
