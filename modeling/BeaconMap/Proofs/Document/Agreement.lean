import BeaconMap.Proofs.Json.Descriptions
import BeaconMap.Proofs.Json.Trees
import BeaconMap.Proofs.Toml.Trees
/-!
# JSON and TOML are read alike

A JSON value and a TOML value that say one tree are read into the same description, or both are refused
(`Description.ofJsonWith_eq_ofToml`). Reader by reader this holds of what fits its place (`Agree`): scalars are found to
be the same, lists agree when their items do, and records when their fields do, because neither reader minds the order of
the entries.
-/

namespace BeaconMap

open DataTree

variable {α : Type}

/-! ## Readers that agree -/

variable (convert : Numeral → Option Binary64)

/-- The values say one tree, which repeats no key and fits its place. -/
def Same (fits : DataTree → Prop) (v : JsonValue) (w : TomlValue) : Prop :=
  ∃ t : DataTree, t.Distinct ∧ fits t ∧ (JsonValue.view convert).Says v t ∧ TomlValue.view.Says w t

/-- The readers read alike values that say one tree. -/
def Agree (fits : DataTree → Prop) (read : JsonValue → Except Problem α) (read' : TomlValue → Except Problem α) : Prop :=
  ∀ v w, Same convert fits v w → (read v).toOption = (read' w).toOption

section
variable {convert} {fits : DataTree → Prop}

/-- Values that say one tree are found to be the same. -/
theorem Same.found {v : JsonValue} {w : TomlValue} (h : Same convert fits v w) :
    (JsonValue.format convert).found v = TomlValue.format.found w := by
  obtain ⟨t, -, -, hv, hw⟩ := h
  exact (JsonValue.found_of_says convert hv).trans (congrArg Except.ok (TomlValue.found_of_says hw).symm)

theorem agree_int32 : Agree convert fits (JsonValue.format convert).int32 TomlValue.format.int32 :=
  fun _ _ h => congrArg Except.toOption (Format.int32_congr h.found)

theorem agree_uint32 : Agree convert fits (JsonValue.format convert).uint32 TomlValue.format.uint32 :=
  fun _ _ h => congrArg Except.toOption (Format.uint32_congr h.found)

theorem agree_real : Agree convert fits (JsonValue.format convert).real TomlValue.format.real :=
  fun _ _ h => congrArg Except.toOption (Format.real_congr h.found)

theorem agree_boolean : Agree convert fits (JsonValue.format convert).boolean TomlValue.format.boolean :=
  fun _ _ h => congrArg Except.toOption (Format.boolean_congr h.found)

/-- Variants agree in a place where no table stands. -/
theorem agree_variant (known : List (String × α)) :
    Agree convert FitsKind ((JsonValue.format convert).variant known) (TomlValue.format.variant known) := by
  rintro v w ⟨t, -, hfits, hv, hw⟩
  have hfound := JsonValue.found_of_says convert hv
  have hfound' := TomlValue.found_of_says hw
  cases t with
  | string s =>
    rw [JsonValue.eq_of_found_string convert hfound, TomlValue.eq_of_found_string hfound']
    rfl
  | table entries => exact hfits.elim
  | boolean _ | integer _ | real _ | array _ =>
    have hnone := JsonValue.toOption_variant_of_found convert hfound (by simp [DataTree.found])
      (by simp [DataTree.found]) known
    have hnone' := TomlValue.toOption_variant_of_found (w := w) (by simp [hfound', DataTree.found])
      (by simp [hfound', DataTree.found]) known
    exact hnone.trans hnone'.symm

theorem forall₂_of_both {A B C : Type} {R : A → C → Prop} {S : B → C → Prop} {P : C → Prop} {Q : A → B → Prop}
    {as : List A} {bs : List B} {cs : List C} (ha : List.Forall₂ R as cs) (hb : List.Forall₂ S bs cs)
    (hc : ∀ c ∈ cs, P c) (h : ∀ a b c, R a c → S b c → P c → Q a b) : List.Forall₂ Q as bs := by
  induction ha generalizing bs with
  | nil =>
    cases hb
    exact .nil
  | cons hac _ ih =>
    cases hb with
    | cons hbc hrest =>
      obtain ⟨hp, hps⟩ := List.forall_mem_cons.1 hc
      exact .cons (h _ _ _ hac hbc hp) (ih hrest hps)

theorem forall₂_entries {A B : Type} {R : A → B → Prop} {as : List (String × A)} {bs : List (String × B)}
    (hnames : as.map Prod.fst = bs.map Prod.fst) (h : List.Forall₂ R (as.map Prod.snd) (bs.map Prod.snd)) :
    List.Forall₂ (fun a b => a.1 = b.1 ∧ R a.2 b.2) as bs := by
  induction as generalizing bs with
  | nil =>
    obtain rfl : bs = [] := List.map_eq_nil_iff.1 hnames.symm
    exact .nil
  | cons a rest ih =>
    obtain ⟨b, more, rfl, hname, hnames⟩ := List.map_eq_cons_iff.1 hnames.symm
    cases h with
    | cons hab hrest => exact .cons ⟨hname.symm, hab⟩ (ih hnames.symm hrest)

theorem toOption_closed (x : Except Problem (List α)) :
    (do let values ← x; JsonValue.requireClosed true; return values : Except Problem (List α)).toOption = x.toOption := by
  cases x <;> rfl

/-- Lists agree when their items do. -/
theorem agree_list {read : JsonValue → Except Problem α} {read' : TomlValue → Except Problem α}
    (h : Agree convert fits read read') :
    Agree convert (FitsList fits) ((JsonValue.format convert).list read) (TomlValue.format.list read') := by
  rintro v w ⟨t, hd, hfits, hv, hw⟩
  have hfound := JsonValue.found_of_says convert hv
  have hfound' := TomlValue.found_of_says hw
  cases t with
  | array trees =>
    cases hv with
    | array hitems hall =>
      cases hw with
      | array hitems' hall' =>
        have hsame : List.Forall₂ (Same convert fits) _ _ :=
          forall₂_of_both (View.saysAll_iff.1 hall) (View.saysAll_iff.1 hall')
            (fun t ht => And.intro ((distinctItems_iff trees).1 hd t ht) (hfits t ht))
            fun v w t hv hw ht => ⟨t, ht.1, ht.2, hv, hw⟩
        rw [JsonValue.eq_of_items? convert hitems]
        refine Eq.trans ?_ (congrArg Except.toOption (TomlValue.list_of_items? hitems' read')).symm
        rw [← toOption_mapM_congr h hsame]
        exact toOption_closed _
  | string _ | boolean _ | integer _ | real _ | table _ =>
    have hnone := JsonValue.toOption_list_of_found convert hfound (by simp [DataTree.found]) read
    have hnone' := TomlValue.toOption_list_of_found (w := w) (by simp [hfound', DataTree.found]) read'
    exact hnone.trans hnone'.symm

/-- Records agree when their fields do in their places and do not disturb each other. -/
theorem agree_record {places : Places} {r : Record JsonValue α} {s : Record TomlValue α}
    (h : r.Alike (fun name v w => Same convert (fun t => ∀ place ∈ places, place.1 = name → place.2 t) v w) s)
    (hr : r.Independent) (hs : s.Independent) :
    Agree convert (FitsRecord places) ((JsonValue.format convert).record r) (TomlValue.format.record s) := by
  rintro v w ⟨t, hd, hfits, hv, hw⟩
  have hfound := JsonValue.found_of_says convert hv
  have hfound' := TomlValue.found_of_says hw
  cases t with
  | table trees =>
    cases hv with
    | @table _ entries ordered _ hentries hperm hnames hall =>
      cases hw with
      | @table _ entries' ordered' _ hentries' hperm' hnames' hall' =>
        have hsame : List.Forall₂ (fun e e' => e.1 = e'.1 ∧
            Same convert (fun t => ∀ place ∈ places, place.1 = e.1 → place.2 t) e.2 e'.2) ordered ordered' := by
          refine forall₂_of_both (forall₂_entries hnames (View.saysAll_iff.1 hall))
            (forall₂_entries hnames' (View.saysAll_iff.1 hall')) (fun t ht => And.intro
              ((distinctEntries_iff trees).1 hd.2 t ht) (hfits t ht)) ?_
          rintro e e' t ⟨hname, he⟩ ⟨hname', he'⟩ ⟨hdt, hfits⟩
          exact ⟨hname.trans hname'.symm, t.2, hdt, hname ▸ hfits, he, he'⟩
        have hkeys : (entries.map Prod.fst).Nodup := (hperm.map Prod.fst).nodup_iff.2 (hnames ▸ hd.1)
        have hkeys' : (entries'.map Prod.fst).Nodup := (hperm'.map Prod.fst).nodup_iff.2 (hnames' ▸ hd.1)
        have hskip : ∀ name v w, Same convert (fun t => ∀ place ∈ places, place.1 = name → place.2 t) v w →
            JsonValue.passOver v = .ok () ∧ (Except.ok () : Except Problem Unit) = .ok () := by
          rintro name v w ⟨t, -, -, hv, -⟩
          exact ⟨if_pos (JsonValue.isWhole_of_says convert hv), rfl⟩
        calc ((JsonValue.format convert).record r v).toOption
          _ = (r.ofEntries JsonValue.passOver entries).toOption := by
            rw [JsonValue.eq_of_entries? convert hentries, JsonValue.record_ofMembers convert r hkeys]
          _ = (r.ofEntries JsonValue.passOver ordered).toOption := hr.ofEntries_perm _ hperm hkeys
          _ = (s.ofEntries (fun _ => .ok ()) ordered').toOption := h.ofEntries hskip hsame
          _ = (s.ofEntries (fun _ => .ok ()) entries').toOption := (hs.ofEntries_perm _ hperm' hkeys').symm
          _ = (TomlValue.format.record s w).toOption :=
            congrArg Except.toOption (TomlValue.record_of_entries? hentries' s).symm
  | array trees => exact hfits.elim
  | string _ | boolean _ | integer _ | real _ =>
    have hnone := JsonValue.toOption_record_of_found convert hfound (by simp [DataTree.found]) (by simp [DataTree.found]) r
    have hnone' := TomlValue.toOption_record_of_found (w := w) (by simp [hfound', DataTree.found])
      (by simp [hfound', DataTree.found]) s
    exact hnone.trans hnone'.symm

/-- A reader for a place of a record. -/
theorem Agree.at_place {read : JsonValue → Except Problem α} {read' : TomlValue → Except Problem α}
    (h : Agree convert fits read read') {name : String} {places : Places} (hp : (name, fits) ∈ places) :
    Agree convert (fun t => ∀ place ∈ places, place.1 = name → place.2 t) read read' := by
  rintro v w ⟨t, hd, hfits, hv, hw⟩
  exact h v w ⟨t, hd, hfits _ hp rfl, hv, hw⟩

end

/-! ## Descriptions -/

namespace NetworkSchema

/-- A record is read alike from both languages by what fits its places. -/
def ReadsAlike (places : Places) (shape : {V : Type} → Format V → Record V α) : Prop :=
  Agree convert (FitsRecord places) ((JsonValue.format convert).record (shape (JsonValue.format convert)))
    (TomlValue.format.record (shape TomlValue.format))

theorem coordinate_readsAlike : ReadsAlike convert [] coordinate :=
  agree_record ⟨rfl, .cons (.of_read agree_int32 _ _ _) (.cons (.of_read agree_int32 _ _ _) .nil)⟩
    (independent_coordinate _) (independent_coordinate _)

theorem share_readsAlike : ReadsAlike convert [] share :=
  agree_record ⟨rfl, .cons (.of_read agree_uint32 _ _ _) (.cons (.of_read agree_real _ _ _) .nil)⟩
    (independent_share _) (independent_share _)

theorem behavior_readsAlike : ReadsAlike convert behaviorPlaces behavior := by
  have hpoints := agree_list (coordinate_readsAlike convert)
  refine agree_record ⟨rfl, ?_⟩ (independent_behavior _) (independent_behavior _)
  exact .cons (.of_read agree_uint32 _ _ _)
    (.cons (.of_read ((agree_variant _).at_place (by simp [behaviorPlaces])) _ _ _)
    (.cons (.of_read (hpoints.at_place (by simp [behaviorPlaces])) _ _ _)
    (.cons (.of_read (hpoints.at_place (by simp [behaviorPlaces])) _ _ _) .nil)))

theorem node_readsAlike : ReadsAlike convert nodePlaces node := by
  have hshares := agree_list (share_readsAlike convert)
  refine agree_record ⟨rfl, ?_⟩ (independent_node _) (independent_node _)
  exact .cons (.of_read ((agree_variant _).at_place (by simp [nodePlaces])) _ _ _)
    (.cons (.of_read agree_int32 _ _ _)
    (.cons (.of_read agree_int32 _ _ _)
    (.cons (.of_read agree_int32 _ _ _)
    (.cons (.of_read agree_int32 _ _ _)
    (.cons (.of_read agree_int32 _ _ _)
    (.cons (.of_read agree_real _ _ _)
    (.cons (.of_read agree_real _ _ _)
    (.cons (.of_read agree_uint32 _ _ _)
    (.cons (.of_read (hshares.at_place (by simp [nodePlaces])) _ _ _) .nil)))))))))

theorem edge_readsAlike : ReadsAlike convert edgePlaces edge := by
  have hcoordinate := coordinate_readsAlike convert
  refine agree_record ⟨rfl, ?_⟩ (independent_edge _) (independent_edge _)
  exact .cons (.of_read (hcoordinate.at_place (by simp [edgePlaces])) _ _ _)
    (.cons (.of_read (hcoordinate.at_place (by simp [edgePlaces])) _ _ _)
    (.cons (.of_read agree_int32 _ _ _)
    (.cons (.of_read agree_real _ _ _)
    (.cons (.of_read agree_boolean _ _ _) .nil))))

theorem description_readsAlike : ReadsAlike convert descriptionPlaces description := by
  refine agree_record ⟨rfl, ?_⟩ (independent_description _) (independent_description _)
  exact .cons (.of_read ((agree_list (behavior_readsAlike convert)).at_place (by simp [descriptionPlaces])) _ _ _)
    (.cons (.of_read ((agree_list (node_readsAlike convert)).at_place (by simp [descriptionPlaces])) _ _ _)
    (.cons (.of_read ((agree_list (edge_readsAlike convert)).at_place (by simp [descriptionPlaces])) _ _ _) .nil))

end NetworkSchema

/-- A JSON text and a TOML text that say one tree are read into one description, or both are refused: the tree may hold
anything, as long as it repeats no key and has no list in the place of a record and no table in the place of a kind. -/
theorem Description.ofJsonWith_eq_ofToml {json toml : String} {t : DataTree} (hd : t.Distinct)
    (hfits : t.FitsDescription) (hj : JsonText.Says convert json t) (ht : TomlEntries.Says toml t) :
    (Description.ofJsonWith convert json).toOption = (Description.ofToml toml).toOption := by
  obtain ⟨hended, hv⟩ := hj
  obtain ⟨entries, hentries, hw⟩ := ht
  have hagree := NetworkSchema.description_readsAlike convert _ _ ⟨t, hd, hfits, hv, hw⟩
  have htoml : Description.ofToml toml =
      TomlValue.format.record (NetworkSchema.description TomlValue.format) (.table .header entries) := by
    simp only [Description.ofToml, Record.ofToml, hentries]
    rfl
  rw [toOption_ofJsonWith convert hended, htoml, hagree]

/-- A document with one behavior, and with an entry that descriptions do not know. -/
def versionedTree : DataTree :=
  .table [("version", .real (.zero true)), ("behaviors", .array [.table [("id", .integer 7), ("kind", .string "visit"),
    ("core_interest_points", .array [.table [("x", .integer 1), ("y", .integer 2)]])]])]

/-- The document in JSON, with the keys of each table in the opposite order. -/
def versionedJson : JsonValue :=
  .ofMembers [
    ("behaviors", .ofList [.ofMembers [
      ("core_interest_points", .ofList [.ofMembers [("y", .ofInt 2), ("x", .ofInt 1)]]),
      ("kind", .string "visit"), ("id", .ofInt 7)]]),
    ("version", .ofReal (.zero true))]

theorem versionedJson_says : JsonText.Says JsonNumber.quickConversion versionedJson.text versionedTree := by
  have hprintable : versionedJson.Printable := by
    simp [versionedJson, JsonValue.ofMembers, JsonValue.ofList, JsonValue.Printable, JsonValue.PrintableItems,
      JsonValue.PrintableMembers, JsonValue.printable_ofInt, JsonValue.printable_ofReal]
  have hread := JsonText.ofText_text hprintable
  refine ⟨by rw [hread], ?_⟩
  rw [hread]
  refine .table rfl (List.reverse_perm _).symm rfl (.cons (.real (by decide +kernel)) (.cons (.array rfl ?_) .nil))
  refine .cons (.table rfl (List.reverse_perm _).symm rfl (.cons (.integer (by decide +kernel))
    (.cons (.string rfl) (.cons (.array rfl ?_) .nil)))) .nil
  exact .cons (.table rfl (List.reverse_perm _).symm rfl (.cons (.integer (by decide +kernel))
    (.cons (.integer (by decide +kernel)) .nil))) .nil

/-- The document in TOML. -/
def versionedToml : String :=
  "version = -0.0\n[[behaviors]]\nid = 7\nkind = \"visit\"\n[[behaviors.core_interest_points]]\nx = 1\ny = 2\n"

theorem versionedToml_says : TomlEntries.Says versionedToml versionedTree := by
  have hread : TomlEntries.ofText? versionedToml = some [("version", .real (.zero true)),
      ("behaviors", .tables [.table .header [("id", .integer 7), ("kind", .string "visit"),
        ("core_interest_points", .tables [.table .header [("x", .integer 1), ("y", .integer 2)]])]])] := by
    rfl
  refine ⟨_, hread, .table rfl (.refl _) rfl (.cons (.real rfl) (.cons (.array rfl ?_) .nil))⟩
  refine .cons (.table rfl (.refl _) rfl (.cons (.integer rfl) (.cons (.string rfl) (.cons (.array rfl ?_) .nil)))) .nil
  exact .cons (.table rfl (.refl _) rfl (.cons (.integer rfl) (.cons (.integer rfl) .nil))) .nil

theorem versionedTree_fits : versionedTree.FitsDescription := by
  simp [versionedTree, FitsDescription, FitsRecord, FitsList, FitsKind, descriptionPlaces, behaviorPlaces, or_imp, forall_and]

/-- The document is read into the same description from JSON and from TOML. -/
theorem Description.ofJsonWith_eq_ofToml_versioned :
    (Description.ofJson versionedJson.text).toOption = (Description.ofToml versionedToml).toOption ∧
      (Description.ofToml versionedToml).toOption = some ⟨[⟨7, .visit, [⟨1, 2⟩], []⟩], [], []⟩ := by
  have hdistinct : versionedTree.Distinct := by
    simp [versionedTree, Distinct, DistinctEntries, DistinctItems]
  refine ⟨ofJsonWith_eq_ofToml _ hdistinct versionedTree_fits versionedJson_says versionedToml_says, ?_⟩
  decide +kernel

end BeaconMap
