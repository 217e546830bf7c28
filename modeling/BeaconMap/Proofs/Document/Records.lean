import BeaconMap.Document.NetworkSchema
import Mathlib
/-!
# Records from named values

Every kind of document reads a record from named values in the same way: one after the other each is stored in the field
with its name, and in the end no required field may be missing (`Record.ofEntries`). When the fields of a record do not
disturb each other, the order of the values makes no difference to what is read or to whether anything is
(`Record.Independent.ofEntries_perm`). Two records of different kinds of document read alike when their fields do
(`Record.Alike.ofEntries`).
-/

namespace BeaconMap

/-! ## What is read, without the problem -/

section
variable {α β ε : Type}

theorem toOption_bind (x : Except ε α) (f : α → Except ε β) :
    (x >>= f).toOption = x.toOption.bind fun a => (f a).toOption := by
  cases x <;> rfl

theorem toOption_map (x : Except ε α) (f : α → β) : (x.map f).toOption = x.toOption.map f := by
  cases x <;> rfl

theorem toOption_foldlM (f : β → α → Except ε β) (l : List α) (b : β) :
    (l.foldlM f b).toOption = l.foldl (fun o a => o.bind fun b => (f b a).toOption) (some b) := by
  have hnone (l : List α) : l.foldl (fun o a => o.bind fun b => (f b a).toOption) none = none := by
    induction l with
    | nil => rfl
    | cons a rest ih => exact ih
  induction l generalizing b with
  | nil => rfl
  | cons a rest ih =>
    rw [List.foldlM_cons, toOption_bind, List.foldl_cons, Option.bind_some]
    cases f b a with
    | ok b' => exact ih b'
    | error e => exact (hnone rest).symm

/-- Lists whose items read alike read alike. -/
theorem toOption_mapM_congr {V W : Type} {R : V → W → Prop} {read : V → Except ε α} {read' : W → Except ε α}
    (h : ∀ v w, R v w → (read v).toOption = (read' w).toOption) {l : List V} {l' : List W} (hl : List.Forall₂ R l l') :
    (l.mapM read).toOption = (l'.mapM read').toOption := by
  induction hl with
  | nil => rfl
  | cons hr _ ih =>
    rw [List.mapM_cons, List.mapM_cons, toOption_bind, toOption_bind, h _ _ hr]
    refine congrArg _ (funext fun a => ?_)
    rw [toOption_bind, toOption_bind, ih]

end

namespace Record

variable {V W α : Type}

/-- Stores a value in the field with its name; a value under another name is only passed over. -/
def take (r : Record V α) (skip : V → Except Problem Unit) (target : α) (entry : String × V) : Except Problem α :=
  match r.field? entry.1 with
  | none => (skip entry.2).map fun _ => target
  | some f => f.store entry.2 target

/-- Reads named values into a record. -/
def ofEntries (r : Record V α) (skip : V → Except Problem Unit) (entries : List (String × V)) : Except Problem α := do
  let target ← entries.foldlM (r.take skip) r.blank
  r.requireAll (entries.map Prod.fst)
  return target

theorem field?_eq_some {r : Record V α} {name : String} {f : Field V α} (h : r.field? name = some f) :
    f ∈ r.fields ∧ f.name = name :=
  ⟨List.mem_of_find?_eq_some h, by simpa using List.find?_some h⟩

theorem field?_of_mem {r : Record V α} (hn : (r.fields.map Field.name).Nodup) {f : Field V α} (hf : f ∈ r.fields) :
    r.field? f.name = some f := by
  obtain ⟨g, hg⟩ : ∃ g, r.field? f.name = some g :=
    Option.isSome_iff_exists.1 (List.find?_isSome.2 ⟨f, hf, by simp⟩)
  obtain ⟨hmem, hname⟩ := field?_eq_some hg
  rwa [List.inj_on_of_nodup_map hn hmem hf hname] at hg

theorem name_ne_of_field? {r : Record V α} {name : String} (h : r.field? name = none) {f : Field V α}
    (hf : f ∈ r.fields) : f.name ≠ name := by
  simpa using List.find?_eq_none.1 h f hf

/-- Whether a required field is missing depends on which of these were seen. -/
theorem requireAll_congr_required {r : Record V α} {seen seen' : List String}
    (h : ∀ f ∈ r.fields, f.required = true → (f.name ∈ seen ↔ f.name ∈ seen')) : r.requireAll seen = r.requireAll seen' := by
  have hfind : r.fields.find? (fun f => f.required && !seen.contains f.name) =
      r.fields.find? (fun f => f.required && !seen'.contains f.name) := by
    refine List.find?_congr fun f hf => ?_
    rw [Bool.eq_iff_iff]
    simp only [Bool.and_eq_true, Bool.not_eq_true', List.contains_eq_mem, decide_eq_false_iff_not]
    exact and_congr_right fun hreq => not_congr (h f hf hreq)
  unfold requireAll
  rw [hfind]

/-- Whether a field is missing depends on which of the fields were seen. -/
theorem requireAll_congr {r : Record V α} {seen seen' : List String}
    (h : ∀ f ∈ r.fields, f.name ∈ seen ↔ f.name ∈ seen') : r.requireAll seen = r.requireAll seen' :=
  requireAll_congr_required fun f hf _ => h f hf

/-! ## The order of the values -/

/-- Different fields of the record can be stored in any order. -/
def Independent (r : Record V α) : Prop :=
  ∀ f ∈ r.fields, ∀ g ∈ r.fields, f.name ≠ g.name → ∀ a b target, f.put a (g.put b target) = g.put b (f.put a target)

theorem Independent.of_pairwise {r : Record V α}
    (h : r.fields.Pairwise fun f g => ∀ a b target, f.put a (g.put b target) = g.put b (f.put a target)) :
    r.Independent := by
  intro f hf g hg hne
  have hsymm : Std.Symm fun f g : Field V α => ∀ a b target, f.put a (g.put b target) = g.put b (f.put a target) :=
    ⟨fun f g hfg a b target => (hfg b a target).symm⟩
  exact h.forall hf hg fun he => hne (he ▸ rfl)

/-- What a named value does to a record, if it can be read. -/
def effect (r : Record V α) (skip : V → Except Problem Unit) (entry : String × V) : Option (α → α) :=
  match r.field? entry.1 with
  | none => (skip entry.2).toOption.map fun _ => id
  | some f => (f.read entry.2).toOption.map f.put

theorem toOption_take (r : Record V α) (skip : V → Except Problem Unit) (target : α) (entry : String × V) :
    (r.take skip target entry).toOption = (r.effect skip entry).map fun change => change target := by
  unfold take effect
  cases r.field? entry.1 with
  | none =>
    dsimp only
    rw [toOption_map, Option.map_map]
    rfl
  | some f =>
    dsimp only
    rw [Field.store, toOption_map, Option.map_map]
    rfl

section
variable {r : Record V α} (hi : r.Independent) (skip : V → Except Problem Unit)
include hi

theorem Independent.effect_comm {e e' : String × V} (hne : e.1 ≠ e'.1) {c c' : α → α}
    (hc : r.effect skip e = some c) (hc' : r.effect skip e' = some c') (target : α) : c (c' target) = c' (c target) := by
  unfold effect at hc hc'
  cases hf : r.field? e.1 with
  | none =>
    rw [hf] at hc
    obtain ⟨-, -, rfl⟩ := Option.map_eq_some_iff.1 hc
    rfl
  | some f =>
    cases hg : r.field? e'.1 with
    | none =>
      rw [hg] at hc'
      obtain ⟨-, -, rfl⟩ := Option.map_eq_some_iff.1 hc'
      rfl
    | some g =>
      rw [hf] at hc
      rw [hg] at hc'
      obtain ⟨a, -, rfl⟩ := Option.map_eq_some_iff.1 hc
      obtain ⟨b, -, rfl⟩ := Option.map_eq_some_iff.1 hc'
      obtain ⟨hfm, hfn⟩ := field?_eq_some hf
      obtain ⟨hgm, hgn⟩ := field?_eq_some hg
      exact hi f hfm g hgm (by rwa [hfn, hgn]) a b target

theorem Independent.take_comm {e e' : String × V} (hne : e.1 ≠ e'.1) (target : α) :
    ((r.take skip target e).toOption.bind fun t => (r.take skip t e').toOption) =
      (r.take skip target e').toOption.bind fun t => (r.take skip t e).toOption := by
  simp only [toOption_take]
  cases hc : r.effect skip e with
  | none => cases r.effect skip e' <;> rfl
  | some c =>
    cases hc' : r.effect skip e' with
    | none => rfl
    | some c' => exact congrArg some (hi.effect_comm skip hne hc hc' target).symm

/-- Values with different names are read alike in any order. -/
theorem Independent.ofEntries_perm {entries entries' : List (String × V)} (h : entries.Perm entries')
    (hn : (entries.map Prod.fst).Nodup) : (r.ofEntries skip entries).toOption = (r.ofEntries skip entries').toOption := by
  have hfold : (entries.foldlM (r.take skip) r.blank).toOption = (entries'.foldlM (r.take skip) r.blank).toOption := by
    rw [toOption_foldlM, toOption_foldlM]
    refine h.foldl_eq' (fun e he e' he' target => ?_) _
    cases target with
    | none => rfl
    | some t =>
      by_cases hne : e.1 = e'.1
      · rw [List.inj_on_of_nodup_map hn he he' hne]
      · exact hi.take_comm skip hne t
  have hall : r.requireAll (entries.map Prod.fst) = r.requireAll (entries'.map Prod.fst) :=
    requireAll_congr fun f _ => (h.map Prod.fst).mem_iff
  unfold ofEntries
  rw [toOption_bind, toOption_bind, hfold, hall]

end

end Record

/-! ## Two kinds of document -/

/-! Scalars are read from what values are found to be. -/

namespace Format

variable {V W : Type} {F : Format V} {G : Format W} {v : V} {w : W} (h : F.found v = G.found w)
include h

theorem int32_congr : F.int32 v = G.int32 w := by rw [int32, int32, h]

theorem uint32_congr : F.uint32 v = G.uint32 w := by rw [uint32, uint32, h]

theorem real_congr : F.real v = G.real w := by rw [real, real, h]

theorem boolean_congr : F.boolean v = G.boolean w := by rw [boolean, boolean, h]

end Format

/-- Two fields of one name read alike values that are related by `R`. -/
structure Field.Alike {V W α : Type} (R : V → W → Prop) (f : Field V α) (g : Field W α) : Prop where
  name : f.name = g.name
  required : f.required = g.required
  store : ∀ v w, R v w → ∀ target, (f.store v target).toOption = (g.store w target).toOption

/-- A field is stored alike when its reader reads alike. -/
theorem Field.Alike.of_read {V W α β : Type} {R : V → W → Prop} {read : V → Except Problem β} {read' : W → Except Problem β}
    (h : ∀ v w, R v w → (read v).toOption = (read' w).toOption) (name : String) (required : Bool) (put : β → α → α) :
    Field.Alike R ⟨name, required, read, put⟩ ⟨name, required, read', put⟩ where
  name := rfl
  required := rfl
  store v w hr target := by
    simp only [Field.store, toOption_map, h v w hr]

namespace Record

variable {V W α : Type}

/-- Two records have the same fields, and each reads alike values that are related for its name. -/
structure Alike (R : String → V → W → Prop) (r : Record V α) (s : Record W α) : Prop where
  blank : r.blank = s.blank
  fields : List.Forall₂ (fun f g => Field.Alike (R f.name) f g) r.fields s.fields

variable {R : String → V → W → Prop} {r : Record V α} {s : Record W α} (h : r.Alike R s)
include h

theorem Alike.field? (name : String) :
    r.field? name = none ∧ s.field? name = none ∨
      ∃ f g, r.field? name = some f ∧ s.field? name = some g ∧ Field.Alike (R name) f g := by
  have hfields := h.fields
  unfold Record.field?
  generalize r.fields = fs, s.fields = gs at hfields ⊢
  induction hfields with
  | nil => exact .inl ⟨rfl, rfl⟩
  | @cons f g _ _ hfg _ ih =>
    by_cases hname : f.name = name
    · subst hname
      exact .inr ⟨f, g, by simp, by simp [hfg.name], hfg⟩
    · have hname' : g.name ≠ name := hfg.name ▸ hname
      simpa [List.find?_cons, hname, hname'] using ih

theorem Alike.requireAll (seen : List String) : (r.requireAll seen).toOption = (s.requireAll seen).toOption := by
  have hfields := h.fields
  unfold Record.requireAll
  generalize r.fields = fs, s.fields = gs at hfields ⊢
  induction hfields with
  | nil => rfl
  | @cons f g _ _ hfg _ ih =>
    simp only [List.find?_cons, ← hfg.name, ← hfg.required]
    cases f.required && !seen.contains f.name with
    | true => rfl
    | false => exact ih

/-- Named values that are related name by name are read alike into records that are alike. -/
theorem Alike.ofEntries {skip : V → Except Problem Unit} {skip' : W → Except Problem Unit}
    (hskip : ∀ name v w, R name v w → skip v = .ok () ∧ skip' w = .ok ()) {entries : List (String × V)}
    {entries' : List (String × W)} (he : List.Forall₂ (fun e e' => e.1 = e'.1 ∧ R e.1 e.2 e'.2) entries entries') :
    (r.ofEntries skip entries).toOption = (s.ofEntries skip' entries').toOption := by
  have hnames : entries.map Prod.fst = entries'.map Prod.fst :=
    List.forall₂_eq_eq_eq ▸ List.rel_map (fun _ _ hee => hee.1) he
  have hfold (target : α) :
      (entries.foldlM (r.take skip) target).toOption = (entries'.foldlM (s.take skip') target).toOption := by
    clear hnames
    induction he generalizing target with
    | nil => rfl
    | @cons e e' _ _ hee _ ih =>
      obtain ⟨hname, hr⟩ := hee
      have htake : (r.take skip target e).toOption = (s.take skip' target e').toOption := by
        unfold take
        rw [← hname]
        rcases h.field? e.1 with ⟨hf, hg⟩ | ⟨f, g, hf, hg, hfg⟩
        · obtain ⟨hv, hw⟩ := hskip _ _ _ hr
          simp only [hf, hg, hv, hw, Except.map]
        · simp only [hf, hg]
          exact hfg.store _ _ hr target
      rw [List.foldlM_cons, List.foldlM_cons, toOption_bind, toOption_bind, htake]
      exact congrArg _ (funext ih)
  unfold Record.ofEntries
  rw [toOption_bind, toOption_bind, hfold, h.blank, hnames]
  refine congrArg _ (funext fun target => ?_)
  rw [toOption_bind, toOption_bind, h.requireAll]

end Record

/-! ## The records of a description

No two fields of a record disturb each other, whatever the format. -/

namespace NetworkSchema

variable {V : Type} (F : Format V)

theorem independent_coordinate : (coordinate F).Independent := .of_pairwise (by simp [coordinate])

theorem independent_share : (share F).Independent := .of_pairwise (by simp [share])

theorem independent_behavior : (behavior F).Independent := .of_pairwise (by simp [behavior])

theorem independent_node : (node F).Independent := .of_pairwise (by simp [node])

theorem independent_edge : (edge F).Independent := .of_pairwise (by simp [edge])

theorem independent_description : (description F).Independent := .of_pairwise (by simp [description])

end NetworkSchema

end BeaconMap
