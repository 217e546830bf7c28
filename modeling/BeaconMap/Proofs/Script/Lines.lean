import BeaconMap.Script.Block
import BeaconMap.Proofs.Network.Validity
import BeaconMap.Proofs.Number.Text
/-!
# What lines tell

The lines of a node tell everything of it but its number and its speed (`Node.beacon`), and where they end; the lines
of a street tell where it leads, its kind, its width and its weight. So a sequence of such blocks can be read in one
way only (`map_eq_of_flatMap_eq`).
-/

namespace BeaconMap

/-! ## Cutting lists -/

section
variable {α β γ δ : Type}

/-- What stands before the first mark, and what stands after it. -/
theorem append_mark_inj {mark : α} {l l' r r' : List α} (hl : mark ∉ l) (hl' : mark ∉ l')
    (h : l ++ mark :: r = l' ++ mark :: r') : l = l' ∧ r = r' := by
  rcases List.append_eq_append_iff.1 h with ⟨m, rfl, hm⟩ | ⟨m, rfl, hm⟩
  · cases m with
    | nil => simpa using hm
    | cons c m =>
      cases hm
      exact absurd (by simp) hl'
  · cases m with
    | nil => simpa [eq_comm] using hm
    | cons c m =>
      cases hm
      exact absurd (by simp) hl

/-- A sequence of pieces is known from their concatenation when each piece shows what it stands for (`k`) and where it
ends, whatever comes after it. -/
theorem map_eq_of_flatMap_eq {f : α → List γ} {f' : β → List γ} {k : α → δ} {k' : β → δ} {l : List α} {l' : List β}
    (hne : ∀ a, f a ≠ []) (hne' : ∀ b, f' b ≠ [])
    (hcut : ∀ a ∈ l, ∀ b ∈ l', ∀ r r', f a ++ r = f' b ++ r' → k a = k' b ∧ r = r')
    (h : l.flatMap f = l'.flatMap f') : l.map k = l'.map k' := by
  induction l generalizing l' with
  | nil =>
    cases l' with
    | nil => rfl
    | cons b l' =>
      simp only [List.flatMap_nil, List.flatMap_cons] at h
      exact absurd (List.append_eq_nil_iff.1 h.symm).1 (hne' b)
  | cons a l ih =>
    cases l' with
    | nil =>
      simp only [List.flatMap_nil, List.flatMap_cons] at h
      exact absurd (List.append_eq_nil_iff.1 h).1 (hne a)
    | cons b l' =>
      simp only [List.flatMap_cons] at h
      obtain ⟨hk, hrest⟩ := hcut a List.mem_cons_self b List.mem_cons_self _ _ h
      have hmap := ih (fun a ha b hb => hcut a (List.mem_cons_of_mem _ ha) b (List.mem_cons_of_mem _ hb)) hrest
      rw [List.map_cons, List.map_cons, hk, hmap]

end

/-- Two texts with a separator between them, whose first character does not stand in the first text. -/
theorem append_separator_inj {a b a' b' separator : String} (mark : Char) (hs : separator.toList.head? = some mark)
    (ha : mark ∉ a.toList) (ha' : mark ∉ a'.toList) :
    a ++ (separator ++ b) = a' ++ (separator ++ b') ↔ a = a' ∧ b = b' := by
  constructor
  · intro h
    obtain ⟨rest, hrest⟩ := List.head?_eq_some_iff.1 hs
    have hlist := congrArg String.toList h
    simp only [String.toList_append, hrest, List.cons_append] at hlist
    obtain ⟨h₁, h₂⟩ := append_mark_inj ha ha' hlist
    exact ⟨String.toList_inj.1 h₁, String.toList_inj.1 (List.append_cancel_left h₂)⟩
  · rintro ⟨rfl, rfl⟩
    rfl

/-- What a script shows of a node: its number and the speed there are left out. -/
structure Beacon where
  position : Coordinate
  width : Int32
  height : Int32
  radius : Int32
  kind : NodeKind
deriving DecidableEq

def Node.beacon (n : Node) : Beacon :=
  ⟨n.position, n.geometry.width, n.geometry.height, n.geometry.radius, n.kind⟩

/-- A node that shows as this beacon. -/
def Beacon.node (b : Beacon) : Node := ⟨0, ⟨b.position, b.width, b.height, b.radius, .zero false⟩, b.kind⟩

/-- The rate and the percentages of a kind are finite. -/
structure NodeKind.FiniteNumbers (k : NodeKind) : Prop where
  rate : ∀ r, k.rate? = some r → r.isFinite = true
  shares : ∀ e ∈ k.shares.entries, e.2.isFinite = true

namespace Script

/-! ## What a line tells -/

theorem not_mem_digits {c : Char} (hd : c.isDigit = false) (n : Nat) : c ∉ n.repr.toList := by
  intro h
  rw [Nat.toList_repr] at h
  rw [Nat.isDigit_of_mem_toDigits (by decide) (by decide) h] at hd
  cases hd

theorem not_mem_integer {c : Char} (hd : c.isDigit = false) (hm : c ≠ '-') (i : Int) : c ∉ i.repr.toList := by
  intro h
  rw [Int.repr_eq_if] at h
  split at h
  · exact not_mem_digits hd _ h
  · rw [String.toList_append] at h
    rcases List.mem_append.1 h with h | h
    · exact hm (by simpa using h)
    · exact not_mem_digits hd _ h

theorem patch_inj (c d : Coordinate) : patch c = patch d ↔ c = d := by
  constructor
  · intro h
    have hmark (i : Int) : ')' ∉ i.repr.toList := not_mem_integer (by decide) (by decide) i
    unfold patch at h
    simp only [String.append_assoc] at h
    rw [String.append_right_inj, append_separator_inj ')' (by simp) (hmark _) (hmark _),
      String.append_left_inj, Int.repr_inj, Int.repr_inj, Int32.toInt_inj, Int32.toInt_inj] at h
    obtain ⟨x, y⟩ := c
    rw [Coordinate.mk.injEq]
    exact h
  · rintro rfl
    rfl

theorem length_limitLines (flow : EntryFlow) : (limitLines flow).length = 2 := by
  unfold limitLines
  split <;> rfl

theorem limitLines_inj (flow flow' : EntryFlow) : limitLines flow = limitLines flow' ↔ flow.limit = flow'.limit := by
  constructor
  · intro h
    unfold limitLines at h
    by_cases hu : flow.unlimited = true <;> by_cases hu' : flow'.unlimited = true
    · have hzero : flow.limit = 0 := eq_of_beq hu
      rw [hzero, eq_of_beq hu']
    · simp [hu, hu'] at h
    · simp [hu, hu'] at h
    · simp only [hu, hu', Bool.false_eq_true, if_false, List.cons.injEq, String.append_right_inj, Nat.repr_inj] at h
      exact UInt32.toNat_inj.1 h.1
  · intro h
    simp [limitLines, EntryFlow.unlimited, h]

/-- A table of percentages is known from its lines. -/
theorem percentageLines_inj (list : String) {p q : Percentages} (hp : ∀ e ∈ p.entries, e.2.isFinite = true)
    (hq : ∀ e ∈ q.entries, e.2.isFinite = true) : percentageLines list p = percentageLines list q ↔ p = q := by
  constructor
  · intro h
    have hblank (n : Nat) : ' ' ∉ n.repr.toList := not_mem_digits rfl n
    have hentries : p.entries.map id = q.entries.map id := by
      unfold percentageLines at h
      rw [List.map_eq_flatMap, List.map_eq_flatMap] at h
      refine map_eq_of_flatMap_eq (by simp) (by simp) ?_ h
      rintro ⟨a, v⟩ ha ⟨b, w⟩ hb r r' hline
      obtain ⟨hline, hrest⟩ := List.cons.inj hline
      simp only [String.append_assoc] at hline
      rw [String.append_right_inj, String.append_right_inj, String.append_right_inj,
        append_separator_inj ' ' (by simp) (hblank _) (hblank _), String.append_left_inj, Nat.repr_inj,
        UInt32.toNat_inj, Binary64.text_inj (hp _ ha) (hq _ hb)] at hline
      exact ⟨Prod.ext hline.1 hline.2, hrest⟩
    rw [List.map_id, List.map_id] at hentries
    obtain ⟨entries, sorted⟩ := p
    obtain rfl : entries = q.entries := hentries
    rfl
  · rintro rfl
    rfl

/-! ## What the lines of a node tell -/

/-- A kind is known from its command and its lines. -/
theorem kindLines_inj {k k' : NodeKind} (hk : k.FiniteNumbers) (hk' : k'.FiniteNumbers) :
    marker k = marker k' ∧ kindLines k = kindLines k' ↔ k = k' := by
  constructor
  · rintro ⟨hmarker, hlines⟩
    cases k with
    | regular => cases k' <;> simp [marker] at hmarker ⊢
    | entryPoint flow generated =>
      cases k' with
      | regular | exitPoint _ _ => simp [marker] at hmarker
      | entryPoint flow' generated' =>
        -- Behind the percentages stand three lines, whatever the flow.
        have hsize : (percentageLines "entry-percentages" generated).length =
            (percentageLines "entry-percentages" generated').length := by
          have hlength := congrArg List.length hlines
          simp only [kindLines, List.length_append, List.length_singleton, length_limitLines] at hlength
          omega
        simp only [kindLines, List.append_assoc] at hlines
        obtain ⟨hshares, hrest⟩ := List.append_inj hlines hsize
        simp only [List.singleton_append, List.cons.injEq, String.append_right_inj, limitLines_inj] at hrest
        rw [Binary64.text_inj (hk.rate _ rfl) (hk'.rate _ rfl)] at hrest
        have hgenerated : generated = generated' := (percentageLines_inj _ hk.shares hk'.shares).1 hshares
        obtain ⟨rate, limit⟩ := flow
        rw [hgenerated, NodeKind.entryPoint.injEq, EntryFlow.mk.injEq]
        exact ⟨hrest, rfl⟩
    | exitPoint rate absorbed =>
      cases k' with
      | regular | entryPoint _ _ => simp [marker] at hmarker
      | exitPoint rate' absorbed' =>
        obtain ⟨hshares, hrate⟩ := List.append_inj' hlines rfl
        simp only [List.cons.injEq, String.append_right_inj, and_true] at hrate
        rw [Binary64.text_inj (hk.rate _ rfl) (hk'.rate _ rfl)] at hrate
        have habsorbed : absorbed = absorbed' := (percentageLines_inj _ hk.shares hk'.shares).1 hshares
        rw [habsorbed, hrate]
  · rintro rfl
    exact ⟨rfl, rfl⟩

/-- The lines of a node without the one that closes them. -/
def openLines (n : Node) : List String :=
  ["  ask " ++ patch n.position ++ " [sprout-beacons 1 [",
   "    " ++ marker n.kind,
   "    set intersection-width " ++ n.geometry.width.toInt.repr,
   "    set intersection-height " ++ n.geometry.height.toInt.repr,
   "    set intersection-radius " ++ n.geometry.radius.toInt.repr] ++ kindLines n.kind

theorem nodeLines_eq (n : Node) : nodeLines n = openLines n ++ ["  ]]"] := rfl

theorem nodeLines_ne_nil (n : Node) : nodeLines n ≠ [] := List.cons_ne_nil _ _

theorem prefix_append {start : List Char} {line : String} (h : start <+: line.toList) (rest : String) :
    start <+: (line ++ rest).toList := by
  rw [String.toList_append]
  exact h.trans (List.prefix_append _ _)

/-- The lines of a kind stand further in than those around them. -/
theorem indented_kindLines (k : NodeKind) : ∀ line ∈ kindLines k, "   ".toList <+: line.toList := by
  have hshares (list : String) (p : Percentages) : ∀ line ∈ percentageLines list p, "   ".toList <+: line.toList := by
    intro line h
    obtain ⟨e, -, rfl⟩ := List.mem_map.1 h
    simp only [String.append_assoc]
    exact prefix_append (by decide) _
  have hlimit (flow : EntryFlow) : ∀ line ∈ limitLines flow, "   ".toList <+: line.toList := by
    intro line h
    unfold limitLines at h
    split at h
    · fin_cases h <;> decide
    · fin_cases h
      · exact prefix_append (by decide) _
      · decide
  intro line h
  cases k with
  | regular => cases h
  | entryPoint flow generated =>
    rcases List.mem_append.1 h with h | h
    · rcases List.mem_append.1 h with h | h
      · exact hshares _ _ line h
      · fin_cases h
        exact prefix_append (by decide) _
    · exact hlimit flow line h
  | exitPoint rate absorbed =>
    rcases List.mem_append.1 h with h | h
    · exact hshares _ _ line h
    · fin_cases h
      exact prefix_append (by decide) _

theorem prefix_openLines (n : Node) :
    ∀ line ∈ openLines n, "  a".toList <+: line.toList ∨ "   ".toList <+: line.toList := by
  intro line h
  rcases List.mem_append.1 h with h | h
  · fin_cases h
    · left
      simp only [String.append_assoc]
      exact prefix_append (by decide) _
    all_goals
      right
      exact prefix_append (by decide) _
  · exact .inr (indented_kindLines _ _ h)

/-- Only the last line of a node closes it. -/
theorem closing_not_mem_openLines (n : Node) : "  ]]" ∉ openLines n := by
  intro h
  exact absurd (prefix_openLines n _ h) (by decide)

theorem openLines_inj {m n : Node} (hm : m.kind.FiniteNumbers) (hn : n.kind.FiniteNumbers) :
    openLines m = openLines n ↔ m.beacon = n.beacon := by
  unfold openLines Node.beacon
  simp only [List.cons_append, List.nil_append, List.cons.injEq, String.append_right_inj, String.append_left_inj,
    patch_inj, Int.repr_inj, Int32.toInt_inj, Beacon.mk.injEq, ← kindLines_inj hm hn]
  tauto

/-- The lines of a node tell its beacon and where they end. -/
theorem nodeLines_append_inj {m n : Node} (hm : m.kind.FiniteNumbers) (hn : n.kind.FiniteNumbers) {r r' : List String}
    (h : nodeLines m ++ r = nodeLines n ++ r') : m.beacon = n.beacon ∧ r = r' := by
  rw [nodeLines_eq, nodeLines_eq, List.append_assoc, List.append_assoc] at h
  obtain ⟨hopen, hrest⟩ := append_mark_inj (closing_not_mem_openLines m) (closing_not_mem_openLines n) h
  exact ⟨(openLines_inj hm hn).1 hopen, hrest⟩

/-- The number and the speed of a node do not show. -/
theorem nodeLines_beacon (n : Node) : nodeLines n.beacon.node = nodeLines n := rfl

/-! ## What the lines of a street tell -/

theorem streetCommand_inj (d d' : Bool) : streetCommand d = streetCommand d' ↔ d = d' := by
  cases d <;> cases d' <;> simp [streetCommand]

theorem streetLines_inj {e e' : Edge} (he : e.weight.isFinite = true) (he' : e'.weight.isFinite = true)
    {c d c' d' : Coordinate} :
    streetLines e c d = streetLines e' c' d' ↔
      (c = c' ∧ d = d') ∧ e.directed = e'.directed ∧ e.width = e'.width ∧ e.weight = e'.weight := by
  have hcommand {a a' : Bool} {s s' : String} :
      streetCommand a ++ (" beacons-on " ++ s) = streetCommand a' ++ (" beacons-on " ++ s') ↔ a = a' ∧ s = s' := by
    have hblank (d : Bool) : ' ' ∉ (streetCommand d).toList := by cases d <;> decide
    rw [append_separator_inj ' ' (by simp) (hblank _) (hblank _), streetCommand_inj]
  simp only [streetLines, String.append_assoc, List.cons.injEq, String.append_right_inj, String.append_left_inj,
    patch_inj, hcommand, Int.repr_inj, Int32.toInt_inj, Binary64.text_inj he he', and_true]
  tauto

theorem streetLines_ne_nil (e : Edge) (c d : Coordinate) : streetLines e c d ≠ [] := List.cons_ne_nil _ _

theorem length_streetLines (e : Edge) (c d : Coordinate) : (streetLines e c d).length = 4 := rfl

end Script

end BeaconMap
