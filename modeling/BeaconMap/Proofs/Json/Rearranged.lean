import BeaconMap.Proofs.Json.Trees
/-!
# JSON documents that differ in nothing that counts

A `Change` is one step from a value to another. In the place of a record members may change places, members with unknown
names may be added, and so may members that give a field its default (`RecordChange`). An object that stands for a kind takes
no further member (`KindChange`). Inside fields and lists the changes of their places can be made; a list or an object in a
place that has no use for it may change in any way (`SameBrackets`). No reader notices such a step (`Alike`), so documents
that are connected by such steps, taken in either direction, are read into the same description, or all are refused
(`Description.ofJsonWith_rearranged`).
-/

namespace BeaconMap

namespace JsonValue

variable {α : Type}

/-! ## Changes -/

/-- One change of a value. -/
abbrev Change := JsonValue → JsonValue → Prop

/-- A list, or an object, in a place that has no use for it: whatever is in it may change. -/
def SameBrackets : Change
  | .array _ _, .array _ _ | .object _ _, .object _ _ => True
  | _, _ => False

/-- A change in the place of a list, where `item` changes one of its items. -/
inductive ListChange (item : Change) : Change
  | item {v w : JsonValue} {before after : List JsonValue} {closed : Bool} :
    item v w → ListChange item (.array (before ++ v :: after) closed) (.array (before ++ w :: after) closed)
  | misplaced {members members' : List (JsonName × JsonValue)} {closed closed' : Bool} :
    ListChange item (.object members closed) (.object members' closed')

/-- A change in the place of a kind, where no member may be added. -/
inductive KindChange : Change
  | reordered {members members' : List (JsonName × JsonValue)} {closed : Bool} :
    members.Perm members' → KindChange (.object members closed) (.object members' closed)
  | content {name : JsonName} {v w : JsonValue} {members : List (JsonName × JsonValue)} {closed : Bool} :
    SameBrackets v w → KindChange (.object ((name, v) :: members) closed) (.object ((name, w) :: members) closed)
  | misplaced {items items' : List JsonValue} {closed closed' : Bool} :
    KindChange (.array items closed) (.array items' closed')

/-- A change in the place of a record, where `places` are the changes in the places of its fields, in their order. -/
inductive RecordChange (r : Record JsonValue α) (places : List Change) : Change
  | reordered {members members' : List (JsonName × JsonValue)} {closed : Bool} :
    members.Perm members' → RecordChange r places (.object members closed) (.object members' closed)
  /-- The value under a name that the record does not know only has to be well formed. -/
  | unknown {name : String} {v : JsonValue} {members : List (JsonName × JsonValue)} {closed : Bool} :
    r.field? name = none → v.isWhole = true →
      RecordChange r places (.object members closed) (.object ((.text name, v) :: members) closed)
  /-- The value is that default when storing it leaves the blank record as it is; `-0` is not the default `0`. -/
  | default {f : Field JsonValue α} {name : String} {v : JsonValue} {members : List (JsonName × JsonValue)} {closed : Bool} :
    f ∈ r.fields → f.name = name → f.required = false → f.store v r.blank = .ok r.blank →
      .text name ∉ members.map Prod.fst →
      RecordChange r places (.object members closed) (.object ((.text name, v) :: members) closed)
  | member {f : Field JsonValue α} {place : Change} {name : String} {v w : JsonValue}
    {members : List (JsonName × JsonValue)} {closed : Bool} :
    (f, place) ∈ r.fields.zip places → f.name = name → place v w →
      RecordChange r places (.object ((.text name, v) :: members) closed) (.object ((.text name, w) :: members) closed)
  /-- A record may be written as the list of its fields. -/
  | item {f : Field JsonValue α} {place : Change} {v w : JsonValue} {before after : List JsonValue} {closed : Bool} :
    (r.fields.zip places)[before.length]? = some (f, place) → place v w →
      RecordChange r places (.array (before ++ v :: after) closed) (.array (before ++ w :: after) closed)
  | beyond {v w : JsonValue} {before after : List JsonValue} {closed : Bool} :
    r.fields.length ≤ before.length →
      RecordChange r places (.array (before ++ v :: after) closed) (.array (before ++ w :: after) closed)

/-- The reader does not notice the changes: what is read is the same, or both values are refused. -/
def Alike (read : JsonValue → Except Problem α) (change : Change) : Prop :=
  ∀ v w, change v w → (read v).toOption = (read w).toOption

/-- A reader that does not notice single changes does not notice any number of them, taken in either direction. -/
theorem Alike.eqvGen {read : JsonValue → Except Problem α} {change : Change} (h : Alike read change) :
    Alike read (Relation.EqvGen change) := by
  intro v w hvw
  induction hvw with
  | rel v w hvw => exact h v w hvw
  | refl v => rfl
  | symm v w _ ih => exact ih.symm
  | trans u v w _ _ ih ih' => exact ih.trans ih'

variable (convert : Numeral → Option Binary64)

/-! ## Scalars, lists and kinds -/

theorem found_of_sameBrackets {v w : JsonValue} (h : SameBrackets v w) :
    (format convert).found v = (format convert).found w := by
  unfold SameBrackets at h
  split at h
  · rfl
  · rfl
  · exact h.elim

theorem alike_int32 : Alike (format convert).int32 SameBrackets :=
  fun _ _ h => congrArg Except.toOption (Format.int32_congr (found_of_sameBrackets convert h))

theorem alike_uint32 : Alike (format convert).uint32 SameBrackets :=
  fun _ _ h => congrArg Except.toOption (Format.uint32_congr (found_of_sameBrackets convert h))

theorem alike_real : Alike (format convert).real SameBrackets :=
  fun _ _ h => congrArg Except.toOption (Format.real_congr (found_of_sameBrackets convert h))

theorem alike_boolean : Alike (format convert).boolean SameBrackets :=
  fun _ _ h => congrArg Except.toOption (Format.boolean_congr (found_of_sameBrackets convert h))

theorem alike_list {read : JsonValue → Except Problem α} {item : Change} (h : Alike read item) :
    Alike ((format convert).list read) (ListChange item) := by
  intro v w hvw
  cases hvw with
  | @item v w before after closed hitem =>
    have hitems : ((before ++ v :: after).mapM read).toOption = ((before ++ w :: after).mapM read).toOption := by
      simp only [List.mapM_append, List.mapM_cons, toOption_bind, h v w hitem]
    have hlist (items : List JsonValue) : ((format convert).list read (.array items closed)).toOption =
        (items.mapM read).toOption.bind fun values => ((do requireClosed closed; return values :
          Except Problem (List α))).toOption := toOption_bind _ _
    rw [hlist, hlist, hitems]
  | misplaced => rfl

/-- An object with several members stands for no kind. -/
theorem toOption_variant_of_several (known : List (String × α)) {members : List (JsonName × JsonValue)}
    (h : 2 ≤ members.length) (closed : Bool) : (variant convert known (.object members closed)).toOption = none := by
  obtain _ | ⟨⟨name, content⟩, _ | ⟨second, rest⟩⟩ := members
  · simp at h
  · simp at h
  · cases name with
    | text name =>
      rw [variant, toOption_bind]
      refine Option.bind_eq_none_iff.2 fun value _ => ?_
      cases content with
      | null => rfl
      | _ => exact toOption_mismatch convert _ .unit
    | unpaired | absent => rfl

/-- A kind carries neither a list nor an object. -/
theorem toOption_variant_of_sameBrackets (known : List (String × α)) (name : JsonName) {v w : JsonValue}
    (h : SameBrackets v w) (members : List (JsonName × JsonValue)) (closed : Bool) :
    (variant convert known (.object ((name, v) :: members) closed)).toOption =
      (variant convert known (.object ((name, w) :: members) closed)).toOption := by
  unfold SameBrackets at h
  split at h
  · cases name <;> rfl
  · cases name <;> rfl
  · exact h.elim

theorem alike_variant (known : List (String × α)) : Alike ((format convert).variant known) KindChange := by
  intro v w hvw
  cases hvw with
  | @reordered members members' closed hperm =>
    by_cases hseveral : 2 ≤ members.length
    · exact (toOption_variant_of_several convert known hseveral closed).trans
        (toOption_variant_of_several convert known (hperm.length_eq ▸ hseveral) closed).symm
    · -- At most one member cannot change its place.
      obtain _ | ⟨m, _ | ⟨second, rest⟩⟩ := members
      · rw [List.nil_perm.1 hperm]
      · rw [List.singleton_perm.1 hperm]
      · exact absurd (Nat.le_add_left 2 _) hseveral
  | content hcontent => exact toOption_variant_of_sameBrackets convert known _ hcontent _ _
  | misplaced => rfl

/-! ## Records -/

/-- What comes of reading the members of an object, with the fields that were seen before. -/
def gather (r : Record JsonValue α) (members : List (JsonName × JsonValue)) (seen : List String) (target : α) : Option α :=
  (do
    let (target, seen) ← readMembers r members seen target
    r.requireAll seen
    return target : Except Problem α).toOption

theorem toOption_record_object (r : Record JsonValue α) (members : List (JsonName × JsonValue)) (closed : Bool) :
    ((format convert).record r (.object members closed)).toOption =
      if closed then gather r members [] r.blank else none := by
  have hrecord : (format convert).record r (.object members closed) =
      (readMembers r members [] r.blank).bind fun read => do
        requireClosed closed
        r.requireAll read.2
        return read.1 := rfl
  rw [hrecord, gather]
  cases closed with
  | true => rfl
  | false => cases readMembers r members [] r.blank <;> rfl

section
variable (r : Record JsonValue α) (rest : List (JsonName × JsonValue)) (seen : List String) (target : α)

theorem gather_unnamed {name : JsonName} (h : ∀ text, name ≠ .text text) (v : JsonValue) :
    gather r ((name, v) :: rest) seen target = none := by
  cases name with
  | text name => exact absurd rfl (h name)
  | unpaired | absent => rfl

theorem gather_unknown {name : String} (h : r.field? name = none) (v : JsonValue) :
    gather r ((.text name, v) :: rest) seen target = if v.isWhole then gather r rest seen target else none := by
  unfold gather
  rw [readMembers, h]
  dsimp only
  cases v.isWhole <;> rfl

theorem gather_known {name : String} {f : Field JsonValue α} (h : r.field? name = some f) (v : JsonValue) :
    gather r ((.text name, v) :: rest) seen target =
      (f.read v).toOption.bind fun a => if name ∈ seen then none else gather r rest (name :: seen) (f.put a target) := by
  unfold gather
  rw [readMembers, h]
  dsimp only
  rw [Field.store, List.contains_eq_mem]
  by_cases hseen : name ∈ seen
  · simp only [hseen, decide_true, if_true]
    cases f.read v <;> rfl
  · simp only [hseen, decide_false, Bool.false_eq_true, if_false]
    cases f.read v <;> rfl

/-- A member has no name, or one that the record does not know, or the name of a field. -/
theorem member_cases (m : JsonName × JsonValue) :
    (∀ text, m.1 ≠ .text text) ∨ ∃ name v, m = (.text name, v) ∧ (r.field? name = none ∨ ∃ f, r.field? name = some f) := by
  obtain ⟨name, v⟩ := m
  cases name with
  | text name =>
    refine .inr ⟨name, v, rfl, ?_⟩
    cases r.field? name with
    | none => exact .inl rfl
    | some f => exact .inr ⟨f, rfl⟩
  | unpaired | absent => exact .inl nofun

end

/-- Of the fields seen before, those count that come up again or are required. -/
theorem gather_congr_seen (r : Record JsonValue α) (members : List (JsonName × JsonValue)) {seen seen' : List String}
    (h : ∀ f ∈ r.fields, .text f.name ∈ members.map Prod.fst ∨ f.required = true → (f.name ∈ seen ↔ f.name ∈ seen'))
    (target : α) : gather r members seen target = gather r members seen' target := by
  induction members generalizing seen seen' target with
  | nil =>
    have hall : r.requireAll seen = r.requireAll seen' :=
      Record.requireAll_congr_required fun f hf hreq => h f hf (.inr hreq)
    simp only [gather, readMembers, bind, Except.bind, hall]
  | cons m rest ih =>
    have hrest (f : Field JsonValue α) (hf : f ∈ r.fields) (hc : .text f.name ∈ rest.map Prod.fst ∨ f.required = true) :
        f.name ∈ seen ↔ f.name ∈ seen' := h f hf (hc.imp_left (List.mem_cons_of_mem _))
    rcases member_cases r m with hm | ⟨name, v, rfl, hf | ⟨f, hf⟩⟩
    · rw [gather_unnamed r rest _ _ hm, gather_unnamed r rest _ _ hm]
    · rw [gather_unknown r rest _ _ hf, gather_unknown r rest _ _ hf, ih hrest]
    · obtain ⟨hmem, hname⟩ := Record.field?_eq_some hf
      have hiff : name ∈ seen ↔ name ∈ seen' := hname ▸ h f hmem (.inl (by simp [hname]))
      rw [gather_known r rest _ _ hf, gather_known r rest _ _ hf]
      refine congrArg _ (funext fun a => ?_)
      simp only [hiff]
      split
      · rfl
      · exact ih (fun g hg hc => by rw [List.mem_cons, List.mem_cons, hrest g hg hc]) _

theorem gather_swap {r : Record JsonValue α} (hr : r.Independent) (m n : JsonName × JsonValue)
    (rest : List (JsonName × JsonValue)) (seen : List String) (target : α) :
    gather r (m :: n :: rest) seen target = gather r (n :: m :: rest) seen target := by
  rcases member_cases r m with hm | ⟨name, v, rfl, hf | ⟨f, hf⟩⟩
  · rcases member_cases r n with hn | ⟨name', w, rfl, hg | ⟨g, hg⟩⟩
    · rw [gather_unnamed r _ _ _ hm, gather_unnamed r _ _ _ hn]
    · simp only [gather_unnamed r _ _ _ hm, gather_unknown r _ _ _ hg, ite_self]
    · simp only [gather_unnamed r _ _ _ hm, gather_known r _ _ _ hg, ite_self, Option.bind_fun_none]
  · rcases member_cases r n with hn | ⟨name', w, rfl, hg | ⟨g, hg⟩⟩
    · simp only [gather_unnamed r _ _ _ hn, gather_unknown r _ _ _ hf, ite_self]
    · simp only [gather_unknown r _ _ _ hf, gather_unknown r _ _ _ hg]
      cases v.isWhole <;> cases w.isWhole <;> rfl
    · simp only [gather_unknown r _ _ _ hf, gather_known r _ _ _ hg]
      cases v.isWhole <;> simp
  · rcases member_cases r n with hn | ⟨name', w, rfl, hg | ⟨g, hg⟩⟩
    · simp only [gather_unnamed r _ _ _ hn, gather_known r _ _ _ hf, ite_self, Option.bind_fun_none]
    · simp only [gather_unknown r _ _ _ hg, gather_known r _ _ _ hf]
      cases w.isWhole <;> simp
    · simp only [gather_known r _ _ _ hf, gather_known r _ _ _ hg]
      cases hv : (f.read v).toOption with
      | none => cases (g.read w).toOption <;> simp
      | some a =>
        cases hw : (g.read w).toOption with
        | none => simp
        | some b =>
          simp only [Option.bind_some]
          by_cases hname : name = name'
          · simp [hname]
          · obtain ⟨hfm, hfn⟩ := Record.field?_eq_some hf
            obtain ⟨hgm, hgn⟩ := Record.field?_eq_some hg
            have hput : g.put b (f.put a target) = f.put a (g.put b target) :=
              hr g hgm f hfm (by rw [hfn, hgn]; exact Ne.symm hname) b a target
            have hseen : gather r rest (name' :: name :: seen) (f.put a (g.put b target)) =
                gather r rest (name :: name' :: seen) (f.put a (g.put b target)) :=
              gather_congr_seen r rest (fun k _ _ => by rw [List.mem_cons, List.mem_cons, List.mem_cons, List.mem_cons]; tauto) _
            by_cases hs : name ∈ seen <;> by_cases hs' : name' ∈ seen <;>
              simp [hs, hs', hname, Ne.symm hname, hput, hseen]

/-- Members may change places when the fields do not disturb each other. -/
theorem gather_perm {r : Record JsonValue α} (hr : r.Independent) {members members' : List (JsonName × JsonValue)}
    (h : members.Perm members') (seen : List String) (target : α) :
    gather r members seen target = gather r members' seen target := by
  induction h generalizing seen target with
  | nil => rfl
  | cons m _ ih =>
    rcases member_cases r m with hm | ⟨name, v, rfl, hf | ⟨f, hf⟩⟩
    · rw [gather_unnamed r _ _ _ hm, gather_unnamed r _ _ _ hm]
    · rw [gather_unknown r _ _ _ hf, gather_unknown r _ _ _ hf, ih]
    · simp only [gather_known r _ _ _ hf, ih]
  | swap m n rest => exact gather_swap hr n m rest seen target
  | trans _ _ ih ih' => exact (ih seen target).trans (ih' seen target)

/-- A record is read alike from lists that differ in one item when the field in its place, if any, is. -/
theorem toOption_readItems_replace (r : Record JsonValue α) (closed : Bool) (count : Nat) {fields : List (Field JsonValue α)}
    {before : List JsonValue} (after : List JsonValue) {v w : JsonValue}
    (h : ∀ f, fields[before.length]? = some f → (f.read v).toOption = (f.read w).toOption) (target : α) :
    (readItems r closed count fields (before ++ v :: after) target).toOption =
      (readItems r closed count fields (before ++ w :: after) target).toOption := by
  induction before generalizing count fields target with
  | nil =>
    cases fields with
    | nil => rfl
    | cons f fields =>
      rw [List.nil_append, List.nil_append, readItems, readItems, toOption_bind, toOption_bind, Field.store, Field.store,
        toOption_map, toOption_map, h f rfl]
  | cons item before ih =>
    cases fields with
    | nil => rfl
    | cons f fields =>
      rw [List.cons_append, List.cons_append, readItems, readItems, toOption_bind, toOption_bind]
      exact congrArg _ (funext fun target => ih (count + 1) h target)

/-- A record is read alike when its fields are, none disturbs another, and no two have one name. -/
theorem alike_record {r : Record JsonValue α} {places : List Change}
    (h : List.Forall₂ (fun f place => Alike f.read place) r.fields places) (hr : r.Independent)
    (hn : (r.fields.map Field.name).Nodup) : Alike ((format convert).record r) (RecordChange r places) := by
  intro v w hvw
  cases hvw with
  | reordered hperm => rw [toOption_record_object, toOption_record_object, gather_perm hr hperm]
  | unknown hf hwhole => rw [toOption_record_object, toOption_record_object, gather_unknown r _ _ _ hf, if_pos hwhole]
  | @default f name v members closed hf hname hreq hstore hnew =>
    subst hname
    have hother (g : Field JsonValue α) (hg : g ∈ r.fields)
        (hc : .text g.name ∈ members.map Prod.fst ∨ g.required = true) : g.name ≠ f.name := by
      intro hname
      rcases hc with hc | hc
      · exact hnew (hname ▸ hc)
      · rw [List.inj_on_of_nodup_map hn hg hf hname, hreq] at hc
        cases hc
    obtain ⟨a, ha, hput⟩ : ∃ a, f.read v = .ok a ∧ f.put a r.blank = r.blank := by
      unfold Field.store at hstore
      cases ha : f.read v with
      | error e => rw [ha] at hstore; cases hstore
      | ok a => rw [ha] at hstore; exact ⟨a, rfl, Except.ok.inj hstore⟩
    have hdefault : gather r ((.text f.name, v) :: members) [] r.blank = gather r members [] r.blank := by
      rw [gather_known r _ _ _ (Record.field?_of_mem hn hf), ha]
      change (if f.name ∈ [] then none else gather r members [f.name] (f.put a r.blank)) = _
      rw [if_neg List.not_mem_nil, hput]
      exact gather_congr_seen r members (fun g hg hc => by simp [hother g hg hc]) _
    rw [toOption_record_object, toOption_record_object, hdefault]
  | @member f place name v w members closed hplace hname hvw =>
    subst hname
    have hf := Record.field?_of_mem hn (List.of_mem_zip hplace).1
    rw [toOption_record_object, toOption_record_object, gather_known r _ _ _ hf, gather_known r _ _ _ hf,
      List.forall₂_zip h hplace v w hvw]
  | @item f place v w before after closed hplace hvw =>
    refine toOption_readItems_replace r closed 0 after (fun g hg => ?_) _
    obtain ⟨hfield, -⟩ := List.getElem?_zip_eq_some.1 hplace
    obtain rfl : g = f := Option.some.inj (hg.symm.trans hfield)
    exact List.forall₂_zip h (List.mem_of_getElem? hplace) v w hvw
  | @beyond v w before after closed hlength =>
    refine toOption_readItems_replace r closed 0 after (fun g hg => ?_) _
    rw [List.getElem?_eq_none hlength] at hg
    cases hg

/-! ## Descriptions -/

open NetworkSchema

/-- A change of a coordinate. -/
def coordinateChange : Change := RecordChange (coordinate (format convert)) [SameBrackets, SameBrackets]

/-- A change of the share of a behavior. -/
def shareChange : Change := RecordChange (share (format convert)) [SameBrackets, SameBrackets]

/-- A change of a behavior. -/
def behaviorChange : Change :=
  RecordChange (behavior (format convert))
    [SameBrackets, KindChange, ListChange (coordinateChange convert), ListChange (coordinateChange convert)]

/-- A change of a node. -/
def nodeChange : Change :=
  RecordChange (node (format convert))
    [KindChange, SameBrackets, SameBrackets, SameBrackets, SameBrackets, SameBrackets, SameBrackets, SameBrackets,
      SameBrackets, ListChange (shareChange convert)]

/-- A change of a street. -/
def edgeChange : Change :=
  RecordChange (edge (format convert))
    [coordinateChange convert, coordinateChange convert, SameBrackets, SameBrackets, SameBrackets]

/-- A change of a whole description. -/
def descriptionChange : Change :=
  RecordChange (description (format convert))
    [ListChange (behaviorChange convert), ListChange (nodeChange convert), ListChange (edgeChange convert)]

theorem alike_coordinate : Alike ((format convert).record (coordinate (format convert))) (coordinateChange convert) :=
  alike_record convert (.cons (alike_int32 convert) (.cons (alike_int32 convert) .nil)) (independent_coordinate _)
    (by simp [coordinate])

theorem alike_share : Alike ((format convert).record (share (format convert))) (shareChange convert) :=
  alike_record convert (.cons (alike_uint32 convert) (.cons (alike_real convert) .nil)) (independent_share _)
    (by simp [share])

theorem alike_behavior : Alike ((format convert).record (behavior (format convert))) (behaviorChange convert) := by
  have hpoints := alike_list convert (alike_coordinate convert)
  refine alike_record convert ?_ (independent_behavior _) (by simp [behavior])
  exact .cons (alike_uint32 convert) (.cons (alike_variant convert _) (.cons hpoints (.cons hpoints .nil)))

theorem alike_node : Alike ((format convert).record (node (format convert))) (nodeChange convert) := by
  have hint := alike_int32 convert
  have hreal := alike_real convert
  refine alike_record convert ?_ (independent_node _) (by simp [node])
  exact .cons (alike_variant convert _) (.cons hint (.cons hint (.cons hint (.cons hint (.cons hint (.cons hreal (.cons hreal
    (.cons (alike_uint32 convert) (.cons (alike_list convert (alike_share convert)) .nil)))))))))

theorem alike_edge : Alike ((format convert).record (edge (format convert))) (edgeChange convert) := by
  have hcoordinate := alike_coordinate convert
  refine alike_record convert ?_ (independent_edge _) (by simp [edge])
  exact .cons hcoordinate (.cons hcoordinate (.cons (alike_int32 convert) (.cons (alike_real convert)
    (.cons (alike_boolean convert) .nil))))

theorem alike_description :
    Alike ((format convert).record (description (format convert))) (descriptionChange convert) := by
  refine alike_record convert ?_ (independent_description _) (by simp [description])
  exact .cons (alike_list convert (alike_behavior convert)) (.cons (alike_list convert (alike_node convert))
    (.cons (alike_list convert (alike_edge convert)) .nil))

end JsonValue

/-- Changes lead from what one text says to what the other does, each taken in either direction. -/
def JsonText.Rearranged (convert : Numeral → Option Binary64) (text text' : String) : Prop :=
  (JsonText.ofText text).ended = true ∧ (JsonText.ofText text').ended = true ∧
    Relation.EqvGen (JsonValue.descriptionChange convert) (JsonText.ofText text).value (JsonText.ofText text').value

/-- Rearranged texts are read into the same description, or both are refused. -/
theorem Description.ofJsonWith_rearranged (convert : Numeral → Option Binary64) {text text' : String}
    (h : JsonText.Rearranged convert text text') :
    (Description.ofJsonWith convert text).toOption = (Description.ofJsonWith convert text').toOption := by
  obtain ⟨hended, hended', hchanges⟩ := h
  rw [toOption_ofJsonWith convert hended, toOption_ofJsonWith convert hended']
  exact (JsonValue.alike_description convert).eqvGen _ _ hchanges

/-- A document with one behavior. -/
def JsonValue.ofBehavior (behavior : JsonValue) : JsonValue := .ofMembers [("behaviors", .ofList [behavior])]

/-- A document that says its version, which descriptions do not know. -/
def versionedDocument : JsonValue :=
  .ofMembers [("version", .ofMembers [("major", .ofList [.ofInt 1, .null])]),
    ("behaviors", .ofList [.ofMembers [("kind", .string "visit"), ("id", .ofInt 7)]])]

/-- The document without its version, with the members of the behavior in another order and a default written out. -/
def plainDocument : JsonValue :=
  .ofBehavior (.ofMembers [("core_interest_points", .ofList []), ("id", .ofInt 7), ("kind", .string "visit")])

theorem versionedDocument_rearranged :
    JsonText.Rearranged JsonNumber.quickConversion versionedDocument.text plainDocument.text := by
  have hbehavior {v w : JsonValue} (h : JsonValue.behaviorChange JsonNumber.quickConversion v w) :
      JsonValue.descriptionChange JsonNumber.quickConversion (.ofBehavior v) (.ofBehavior w) :=
    .member (.head _) rfl (@JsonValue.ListChange.item _ _ _ [] [] true h)
  have hread : JsonText.ofText versionedDocument.text = ⟨versionedDocument, true⟩ := by cbv
  have hread' : JsonText.ofText plainDocument.text = ⟨plainDocument, true⟩ := by cbv
  refine ⟨by rw [hread], by rw [hread'], ?_⟩
  rw [hread, hread']
  refine .trans _ _ _ (.symm _ _ (.rel _ _ (.unknown rfl rfl))) ?_
  refine .trans _ _ _ (.rel _ _ (hbehavior (.reordered (.swap _ _ _)))) ?_
  exact .rel _ _ (hbehavior (.default (.tail _ (.tail _ (.head _))) rfl rfl rfl (by decide)))

/-- Both documents are read into the same description. -/
theorem Description.ofJsonWith_rearranged_versioned :
    (Description.ofJson versionedDocument.text).toOption = (Description.ofJson plainDocument.text).toOption ∧
      (Description.ofJson plainDocument.text).toOption = some ⟨[⟨7, .visit, [], []⟩], [], []⟩ :=
  ⟨ofJsonWith_rearranged _ versionedDocument_rearranged, by decide +kernel⟩

/-- A document with one behavior whose kind has been spelled out. -/
def kindDocument (kind : List (String × JsonValue)) : JsonValue :=
  .ofBehavior (.ofMembers [("id", .ofInt 1), ("kind", .ofMembers kind)])

/-- An unknown member beside a kind is refused, and so is one whose name is half a surrogate pair, wherever it stands. -/
theorem Description.ofJson_unknown_refused :
    (kindDocument [("visit", .null)]).isWhole = true ∧
      JsonText.ofText (kindDocument [("visit", .null)]).text = ⟨kindDocument [("visit", .null)], true⟩ ∧
      (Description.ofJson (kindDocument [("visit", .null)]).text).toOption = some ⟨[⟨1, .visit, [], []⟩], [], []⟩ ∧
      (kindDocument [("visit", .null), ("note", .ofInt 1)]).isWhole = true ∧
      JsonText.ofText (kindDocument [("visit", .null), ("note", .ofInt 1)]).text =
        ⟨kindDocument [("visit", .null), ("note", .ofInt 1)], true⟩ ∧
      (Description.ofJson (kindDocument [("visit", .null), ("note", .ofInt 1)]).text).toOption = none ∧
      JsonText.ofText "\x7b\x7d" = ⟨.object [] true, true⟩ ∧
      (Description.ofJson "\x7b\x7d").toOption = some ⟨[], [], []⟩ ∧
      JsonText.ofText "\x7b\"\\ud800\":null\x7d" = ⟨.object [(.unpaired, .null)] true, true⟩ ∧
      (JsonValue.object [(.unpaired, .null)] true).isWhole = true ∧
      (Description.ofJson "\x7b\"\\ud800\":null\x7d").toOption = none := by
  refine ⟨rfl, by cbv, by decide +kernel, rfl, by cbv, by decide +kernel, by cbv, by decide +kernel, by cbv, rfl, ?_⟩
  decide +kernel

end BeaconMap
