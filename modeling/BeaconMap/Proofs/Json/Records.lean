import BeaconMap.Json.Decoder
import BeaconMap.Json.Printer
import BeaconMap.Proofs.Document.Records
/-!
# Records from JSON objects

An object whose members have different names is read into a record as its named values are, whatever the record
(`JsonValue.record_ofMembers`): no field comes up twice, and a member with an unknown name only has to be well formed.
-/

namespace BeaconMap

namespace JsonValue

variable {α : Type}

/-- A member with an unknown name: it has to be well formed. -/
def passOver (v : JsonValue) : Except Problem Unit := if v.isWhole then .ok () else .error .malformed

/-- A member with a name. -/
def named (entry : String × JsonValue) : JsonName × JsonValue := (.text entry.1, entry.2)

theorem readMembers_named (r : Record JsonValue α) {entries : List (String × JsonValue)} (seen : List String)
    (hn : (entries.map Prod.fst).Nodup) (hseen : ∀ name ∈ entries.map Prod.fst, name ∉ seen) (target : α) :
    ∃ seen', readMembers r (entries.map named) seen target =
        (entries.foldlM (r.take passOver) target).map (fun t => (t, seen')) ∧
      ∀ f ∈ r.fields, f.name ∈ seen' ↔ f.name ∈ entries.map Prod.fst ∨ f.name ∈ seen := by
  induction entries generalizing seen target with
  | nil => exact ⟨seen, rfl, by simp⟩
  | cons e rest ih =>
    obtain ⟨name, v⟩ := e
    obtain ⟨hname, hrest⟩ := List.nodup_cons.1 hn
    obtain ⟨hnew, hnews⟩ := List.forall_mem_cons.1 hseen
    have htake (t : α) : ((name, v) :: rest).foldlM (r.take passOver) t =
        (r.take passOver t (name, v)).bind fun t => rest.foldlM (r.take passOver) t := List.foldlM_cons
    rw [List.map_cons, named, htake, Record.take, readMembers]
    cases hf : r.field? name with
    | none =>
      obtain ⟨seen', hread, hseen'⟩ := ih seen hrest hnews target
      refine ⟨seen', ?_, fun f hfm => ?_⟩
      · dsimp only
        rw [hread, passOver]
        cases v.isWhole <;> rfl
      · -- The name is not that of a field, so it does not matter whether it counts as seen.
        rw [hseen' f hfm, List.map_cons, List.mem_cons, or_iff_right (Record.name_ne_of_field? hf hfm)]
    | some f =>
      have hnews' : ∀ name' ∈ rest.map Prod.fst, name' ∉ name :: seen := by
        intro name' hm hc
        rcases List.mem_cons.1 hc with rfl | hc
        · exact hname hm
        · exact hnews name' hm hc
      have hcontains : seen.contains name = false := by simpa using hnew
      have hmem (g : Field JsonValue α) : g.name ∈ rest.map Prod.fst ∨ g.name ∈ name :: seen ↔
          g.name ∈ ((name, v) :: rest).map Prod.fst ∨ g.name ∈ seen := by
        rw [List.map_cons, List.mem_cons, List.mem_cons]
        tauto
      simp only [hcontains, Bool.false_eq_true, if_false]
      cases hs : f.store v target with
      | error e =>
        obtain ⟨seen', -, hseen'⟩ := ih (name :: seen) hrest hnews' target
        exact ⟨seen', rfl, fun g hg => (hseen' g hg).trans (hmem g)⟩
      | ok t =>
        obtain ⟨seen', hread, hseen'⟩ := ih (name :: seen) hrest hnews' t
        exact ⟨seen', hread, fun g hg => (hseen' g hg).trans (hmem g)⟩

/-- An object without repeated names is read as its named values. -/
theorem record_ofMembers (convert : Numeral → Option Binary64) (r : Record JsonValue α)
    {entries : List (String × JsonValue)} (hn : (entries.map Prod.fst).Nodup) :
    (format convert).record r (ofMembers entries) = r.ofEntries passOver entries := by
  obtain ⟨seen', hread, hseen'⟩ := readMembers_named r [] hn (by simp) r.blank
  have hall : r.requireAll seen' = r.requireAll (entries.map Prod.fst) := by
    refine Record.requireAll_congr fun f hf => ?_
    rw [hseen' f hf]
    simp
  have hrecord : (format convert).record r (ofMembers entries) =
      (readMembers r (entries.map named) [] r.blank).bind fun read => do
        requireClosed true
        r.requireAll read.2
        return read.1 := rfl
  rw [hrecord, hread, Record.ofEntries]
  cases entries.foldlM (r.take passOver) r.blank with
  | error e => rfl
  | ok t =>
    simp only [Except.map, bind, Except.bind, requireClosed, hall]

end JsonValue

/-- A text that is read to its end says what its value does. -/
theorem Description.toOption_ofJsonWith (convert : Numeral → Option Binary64) {text : String}
    (h : (JsonText.ofText text).ended = true) :
    (Description.ofJsonWith convert text).toOption =
      ((JsonValue.format convert).record (NetworkSchema.description (JsonValue.format convert))
        (JsonText.ofText text).value).toOption := by
  simp only [Description.ofJsonWith, JsonText.decode, h, if_true]
  rw [toOption_bind]
  exact Option.bind_fun_some _

end BeaconMap
