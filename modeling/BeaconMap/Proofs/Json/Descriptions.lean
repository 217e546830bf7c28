import BeaconMap.Proofs.Json.Records
import BeaconMap.Proofs.Json.Values
import BeaconMap.Toml.Decoder
/-!
# Descriptions read back from JSON

A description that is written as JSON is read back as it was, field by field and bit by bit, when all its numbers are
finite. An infinity or a NaN is written as `null`, and then the reader refuses the `null` where it expects a number
(`Description.ofJsonWith_text_toJson`). Each record reads back what was written for it in this sense (`readBack`), given
that this is so of the values of its fields.
-/

namespace BeaconMap

/-- What is read back for `a` when `numbers` are the numbers of it: `null` was written for those that are not finite. -/
def readBack {α : Type} (numbers : List Binary64) (a : α) : Except Problem α :=
  if numbers.all Binary64.isFinite then .ok a else .error (.invalidType .null .real)

section
variable {α β : Type}

@[simp] theorem readBack_nil (a : α) : readBack [] a = .ok a := rfl

theorem readBack_bind (xs : List Binary64) (a : α) {ys : List Binary64} {b : β} {f : α → Except Problem β}
    (h : f a = readBack ys b) : (readBack xs a >>= f) = readBack (xs ++ ys) b := by
  unfold readBack at h ⊢
  rw [List.all_append]
  cases xs.all Binary64.isFinite with
  | true => exact h
  | false => rfl

theorem mapM_readBack (write : α → JsonValue) (numbers : α → List Binary64) {read : JsonValue → Except Problem α}
    {l : List α} (h : ∀ a ∈ l, read (write a) = readBack (numbers a) a) :
    (l.map write).mapM read = readBack (l.flatMap numbers) l := by
  induction l with
  | nil => rfl
  | cons a rest ih =>
    obtain ⟨ha, hrest⟩ := List.forall_mem_cons.1 h
    rw [List.map_cons, List.mapM_cons, ha, ih hrest, List.flatMap_cons]
    refine readBack_bind _ _ ?_
    have hrest := readBack_bind (rest.flatMap numbers) rest (f := fun l => pure (a :: l)) (readBack_nil (a :: rest)).symm
    rwa [List.append_nil] at hrest

end

/-! ## The numbers of a description -/

/-- The numbers of a described node. -/
def DescribedNode.numbers (n : DescribedNode) : List Binary64 :=
  [n.geometry.speed, n.rate] ++ n.percentages.map DescribedShare.percentage

/-- The numbers of a description. -/
def Description.numbers (d : Description) : List Binary64 :=
  d.nodes.flatMap DescribedNode.numbers ++ d.edges.map DescribedEdge.weight

/-! ## Scalars -/

namespace JsonValue

variable (convert : Numeral → Option Binary64)

/-- A conversion finds this number, if it is finite, in its written form. -/
def FindsBack (x : Binary64) : Prop := x.isFinite = true → convert (NumberStyle.document.numeral x) = some x

instance (x : Binary64) : Decidable (FindsBack convert x) :=
  inferInstanceAs (Decidable (x.isFinite = true → convert (NumberStyle.document.numeral x) = some x))

/-- Rounding correctly finds every number: the one nearest to a written form is the one it was written for. -/
theorem findsBack_nearest (x : Binary64) : FindsBack JsonNumber.nearestConversion x := by
  intro h
  unfold JsonNumber.nearestConversion
  rw [NumberStyle.document.toBinary64_numeral h]
  exact if_pos h

theorem integer?_toDigits {n : Int} (hlow : Int64.minValue.toInt ≤ n) (hhigh : n < UInt64.size) :
    JsonNumber.integer? ⟨decide (n < 0), Nat.toDigits 10 n.natAbs, none, none⟩ = some n := by
  unfold JsonNumber.integer?
  simp only [Nat.ofDigitChars_ten_toDigits, decide_eq_true_eq]
  by_cases hneg : n < 0
  · have hvalue : -(n.natAbs : Int) = n := by omega
    rw [if_pos hneg, hvalue, if_pos ⟨by omega, hlow⟩]
  · have hvalue : (n.natAbs : Int) = n := by omega
    rw [if_neg hneg, if_pos (by omega), hvalue]

theorem found_ofInt {n : Int} (hlow : Int64.minValue.toInt ≤ n) (hhigh : n < UInt64.size) :
    found convert (ofInt n) = .ok (.integer n) := by
  simp only [found, ofInt, JsonNumber.found, integer?_toDigits hlow hhigh]

/-- No number is written like an integer. -/
theorem integer?_document (x : Binary64) : JsonNumber.integer? (NumberStyle.document.numeral x) = none := by
  have h := NumberStyle.integer?_ofDecimal .document rfl (Shortest.decimal .even x)
  unfold JsonNumber.integer?
  split
  · rename_i hp he
    rcases h with h | h
    · exact absurd hp h
    · exact absurd he h
  · rfl

theorem int32_ofInt32 (n : Int32) : (format convert).int32 (ofInt32 n) = .ok n := by
  have hlow : Int32.minValue.toInt ≤ n.toInt := Int32.minValue_le_toInt n
  have hhigh : n.toInt ≤ Int32.maxValue.toInt := Int32.toInt_le n
  have hfound : (format convert).found (ofInt32 n) = .ok (.integer n.toInt) :=
    found_ofInt convert (hlow.trans' (by decide)) (hhigh.trans_lt (by decide))
  simp only [Format.int32, hfound, bind, Except.bind]
  rw [if_pos ⟨hlow, hhigh⟩, Int32.ofInt_toInt]
  rfl

theorem uint32_ofUInt32 (n : UInt32) : (format convert).uint32 (ofUInt32 n) = .ok n := by
  have hsize : (n.toNat : Int) < UInt32.size := Int.ofNat_lt.2 n.toNat_lt_size
  have hfound : (format convert).found (ofUInt32 n) = .ok (.integer n.toNat) :=
    found_ofInt convert (Int.le_trans (by decide) (Int.natCast_nonneg _)) (hsize.trans (by decide))
  simp only [Format.uint32, hfound, bind, Except.bind]
  rw [if_pos ⟨Int.natCast_nonneg _, hsize⟩, Int.toNat_natCast, UInt32.ofNat_toNat]
  rfl

theorem real_ofReal {x : Binary64} (h : FindsBack convert x) : (format convert).real (ofReal x) = readBack [x] x := by
  unfold ofReal readBack
  by_cases hx : x.isFinite = true
  · have hfound : (format convert).found (.number (NumberStyle.document.numeral x)) = .ok (.real x) := by
      simp only [format, found, JsonNumber.found, integer?_document, h hx]
    rw [if_pos hx, if_pos (by simpa using hx)]
    simp only [Format.real, hfound, bind, Except.bind]
    rfl
  · rw [if_neg hx, if_neg (by simpa using hx)]
    rfl

/-- A list reads back what its items read back. -/
theorem list_ofList {α : Type} (write : α → JsonValue) (numbers : α → List Binary64)
    {read : JsonValue → Except Problem α} {l : List α} (h : ∀ a ∈ l, read (write a) = readBack (numbers a) a) :
    (format convert).list read (ofList (l.map write)) = readBack (l.flatMap numbers) l := by
  have hlist : (format convert).list read (ofList (l.map write)) = (do
      let values ← (l.map write).mapM read
      requireClosed true
      return values) := rfl
  rw [hlist, mapM_readBack write numbers h]
  unfold readBack
  split <;> rfl

theorem boolean_boolean (b : Bool) : (format convert).boolean (.boolean b) = .ok b := rfl

/-! ## Records -/

section

attribute [local simp] Record.ofEntries Record.take Record.field? Record.requireAll Field.store Except.map bind Except.bind
  pure Except.pure

theorem record_coordinate (c : Coordinate) :
    (format convert).record (NetworkSchema.coordinate (format convert)) c.toJson = .ok c := by
  rw [Coordinate.toJson, record_ofMembers _ _ (by simp)]
  simp [NetworkSchema.coordinate, int32_ofInt32]

theorem list_coordinates (l : List Coordinate) :
    (format convert).list ((format convert).record (NetworkSchema.coordinate (format convert)))
      (ofList (l.map Coordinate.toJson)) = .ok l := by
  rw [list_ofList convert Coordinate.toJson (fun _ => []) fun c _ => record_coordinate convert c]
  simp [readBack]

theorem record_share {s : DescribedShare} (h : FindsBack convert s.percentage) :
    (format convert).record (NetworkSchema.share (format convert)) s.toJson = readBack [s.percentage] s := by
  rw [DescribedShare.toJson, record_ofMembers _ _ (by simp)]
  have hreal := real_ofReal convert h
  by_cases hx : s.percentage.isFinite <;> simp [NetworkSchema.share, uint32_ofUInt32, hreal, readBack, hx]

theorem record_behavior (b : DescribedBehavior) :
    (format convert).record (NetworkSchema.behavior (format convert)) b.toJson = .ok b := by
  rw [DescribedBehavior.toJson, record_ofMembers _ _ (by simp)]
  have hkind : (format convert).variant NetworkSchema.behaviorKinds (.string b.kind.name) = .ok b.kind := by
    cases b.kind <;> rfl
  simp [NetworkSchema.behavior, uint32_ofUInt32, hkind, list_coordinates]

theorem record_node {n : DescribedNode} (h : ∀ x ∈ n.numbers, FindsBack convert x) :
    (format convert).record (NetworkSchema.node (format convert)) n.toJson = readBack n.numbers n := by
  rw [DescribedNode.toJson, record_ofMembers _ _ (by simp)]
  have hkind : (format convert).variant NetworkSchema.nodeKinds (.string n.kind.name) = .ok n.kind := by
    cases n.kind <;> rfl
  have hspeed := real_ofReal convert (h n.geometry.speed (by simp [DescribedNode.numbers]))
  have hrate := real_ofReal convert (h n.rate (by simp [DescribedNode.numbers]))
  have hshares := list_ofList convert DescribedShare.toJson (fun s => [s.percentage]) fun s hs =>
    record_share convert (h s.percentage (List.mem_append_right _ (List.mem_map_of_mem hs)))
  rw [← List.map_eq_flatMap] at hshares
  -- The three places where a number may not be read back.
  by_cases hs : n.geometry.speed.isFinite <;> by_cases hr : n.rate.isFinite <;>
    by_cases hp : (n.percentages.map DescribedShare.percentage).all Binary64.isFinite <;>
    simp [NetworkSchema.node, uint32_ofUInt32, int32_ofInt32, hkind, hspeed, hrate, hshares, readBack,
      DescribedNode.numbers, hs, hr, hp]

theorem record_edge {e : DescribedEdge} (h : FindsBack convert e.weight) :
    (format convert).record (NetworkSchema.edge (format convert)) e.toJson = readBack [e.weight] e := by
  rw [DescribedEdge.toJson, record_ofMembers _ _ (by simp)]
  have hcoordinate (c : Coordinate) :
      (format convert).record (NetworkSchema.coordinate (format convert)) c.toJson = .ok c := record_coordinate convert c
  have hweight := real_ofReal convert h
  by_cases hw : e.weight.isFinite <;>
    simp [NetworkSchema.edge, int32_ofInt32, hcoordinate, boolean_boolean, hweight, readBack, hw]

theorem record_description {d : Description} (h : ∀ x ∈ d.numbers, FindsBack convert x) :
    (format convert).record (NetworkSchema.description (format convert)) d.toJson = readBack d.numbers d := by
  rw [Description.toJson, record_ofMembers _ _ (by simp)]
  have hbehaviors := list_ofList convert (l := d.behaviors) DescribedBehavior.toJson (fun _ => []) fun b _ =>
    record_behavior convert b
  have hnodes := list_ofList convert DescribedNode.toJson DescribedNode.numbers fun n hn =>
    record_node convert fun x hx => h x (List.mem_append_left _ (List.mem_flatMap.2 ⟨n, hn, hx⟩))
  have hedges := list_ofList convert DescribedEdge.toJson (fun e => [e.weight]) fun e he =>
    record_edge convert (h e.weight (List.mem_append_right _ (List.mem_map_of_mem he)))
  rw [← List.map_eq_flatMap] at hedges
  by_cases hn : (d.nodes.flatMap DescribedNode.numbers).all Binary64.isFinite <;>
    by_cases he : (d.edges.map DescribedEdge.weight).all Binary64.isFinite <;>
    simp [NetworkSchema.description, hbehaviors, hnodes, hedges, readBack, Description.numbers, hn, he]

end

/-! ## Written forms -/

theorem printable_ofInt (n : Int) : (ofInt n).Printable := Numeral.json_toDigits _ _

theorem printable_ofReal (x : Binary64) : (ofReal x).Printable := by
  unfold ofReal
  split
  · exact NumberStyle.json_ofDecimal _ _
  · trivial

theorem printable_coordinate (c : Coordinate) : c.toJson.Printable :=
  printable_ofMembers (by simp [ofInt32, printable_ofInt])

theorem printable_coordinates (l : List Coordinate) : (ofList (l.map Coordinate.toJson)).Printable :=
  printable_ofList (List.forall_mem_map.2 fun c _ => printable_coordinate c)

theorem printable_share (s : DescribedShare) : s.toJson.Printable :=
  printable_ofMembers (by simp [ofUInt32, printable_ofInt, printable_ofReal])

theorem printable_behavior (b : DescribedBehavior) : b.toJson.Printable :=
  printable_ofMembers (by simp [ofUInt32, printable_ofInt, printable_coordinates, Printable])

theorem printable_node (n : DescribedNode) : n.toJson.Printable := by
  have hshares : (ofList (n.percentages.map DescribedShare.toJson)).Printable :=
    printable_ofList (List.forall_mem_map.2 fun s _ => printable_share s)
  exact printable_ofMembers (by simp [ofInt32, ofUInt32, printable_ofInt, printable_ofReal, hshares, Printable])

theorem printable_edge (e : DescribedEdge) : e.toJson.Printable :=
  printable_ofMembers (by simp [ofInt32, printable_ofInt, printable_ofReal, printable_coordinate, Printable])

theorem printable_description (d : Description) : d.toJson.Printable := by
  have hbehaviors : (ofList (d.behaviors.map DescribedBehavior.toJson)).Printable :=
    printable_ofList (List.forall_mem_map.2 fun b _ => printable_behavior b)
  have hnodes : (ofList (d.nodes.map DescribedNode.toJson)).Printable :=
    printable_ofList (List.forall_mem_map.2 fun n _ => printable_node n)
  have hedges : (ofList (d.edges.map DescribedEdge.toJson)).Printable :=
    printable_ofList (List.forall_mem_map.2 fun e _ => printable_edge e)
  exact printable_ofMembers (by simp [hbehaviors, hnodes, hedges])

end JsonValue

/-! ## Whole descriptions -/

namespace Description

open JsonValue

variable (convert : Numeral → Option Binary64) {d : Description}

theorem ofJsonWith_toJson (h : ∀ x ∈ d.numbers, FindsBack convert x) :
    ofJsonWith convert d.toJson.text = readBack d.numbers d := by
  have hread : (format convert).record (NetworkSchema.description (format convert)) d.toJson = readBack d.numbers d :=
    record_description convert h
  unfold ofJsonWith
  rw [JsonText.ofText_text (printable_description d)]
  unfold JsonText.decode
  simp only [hread]
  unfold readBack
  split <;> rfl

/-- A reader that rounds correctly reads back every description whose numbers are finite. -/
theorem ofJsonWith_nearest_toJson (d : Description) :
    ofJsonWith JsonNumber.nearestConversion d.toJson.text = readBack d.numbers d :=
  ofJsonWith_toJson _ fun x _ => findsBack_nearest x

/-- A description is read back from its JSON text, bit by bit, exactly when all its numbers are finite; else the text is
refused for a `null` in the place of a number. That the conversion finds the finite numbers of the description in their
written form is all that is asked of it. -/
theorem ofJsonWith_text_toJson (h : ∀ x ∈ d.numbers, FindsBack convert x) :
    (ofJsonWith convert d.toJson.text = .ok d ↔ ∀ x ∈ d.numbers, x.isFinite = true) ∧
      ((∃ x ∈ d.numbers, x.isFinite = false) →
        ofJsonWith convert d.toJson.text = .error (.invalidType .null .real)) := by
  rw [ofJsonWith_toJson convert h]
  have hall : d.numbers.all Binary64.isFinite = true ↔ ∀ x ∈ d.numbers, x.isFinite = true := List.all_eq_true
  unfold readBack
  rw [← hall]
  constructor
  · by_cases hf : d.numbers.all Binary64.isFinite <;> simp [hf]
  · rintro ⟨x, hx, hinfinite⟩
    rw [if_neg]
    intro hf
    rw [hall.1 hf x hx] at hinfinite
    cases hinfinite

/-- A network with numbers at the ends of their ranges: `-0`, fractions, a large rate. -/
def tollgate : Description where
  behaviors := [⟨4294967295, .evacuate, [⟨-2147483648, 0⟩], []⟩]
  nodes := [
    ⟨.entry, ⟨⟨-2147483648, 0⟩, 2, 3, 1, .zero true⟩, (Binary64.ofText? "0.1").getD default, 7,
      [⟨4294967295, .ofNat 100⟩, ⟨1, (Binary64.ofText? "1e-7").getD default⟩]⟩,
    ⟨.exit, ⟨⟨2147483647, 5⟩, 1, 1, 1, .ofNat 1⟩, (Binary64.ofText? "1e22").getD default, 0, []⟩]
  edges := [⟨⟨-2147483648, 0⟩, ⟨2147483647, 5⟩, 4, .ofNat 3, true⟩]

/-- A street that weighs infinitely much, as TOML can say it. -/
def endlessToml : String :=
  "[[edges]]\nwidth = 4\nweight = inf\n[edges.source]\nx = 0\ny = 0\n[edges.target]\nx = 1\ny = 0\n"

/-- The tollgate is read back as it is. The endless street is read from TOML, but not from the JSON that is written of it. -/
theorem ofJsonWith_text_toJson_tollgate :
    ofJson tollgate.toJson.text = .ok tollgate ∧
      ∃ d, ofToml endlessToml = .ok d ∧ ofJson d.toJson.text = .error (.invalidType .null .real) := by
  have hfinite : ∀ x ∈ tollgate.numbers, FindsBack JsonNumber.quickConversion x := by decide +kernel
  have hendless : ofToml endlessToml = .ok ⟨[], [], [⟨⟨0, 0⟩, ⟨1, 0⟩, 4, .infinity false, false⟩]⟩ := by rfl
  refine ⟨(ofJsonWith_text_toJson _ hfinite).1.2 (by decide +kernel), _, hendless, ?_⟩
  exact (ofJsonWith_text_toJson _ (by decide +kernel)).2 ⟨.infinity false, by decide +kernel, by decide +kernel⟩

end Description

end BeaconMap
