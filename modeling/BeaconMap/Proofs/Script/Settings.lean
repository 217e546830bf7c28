import BeaconMap.Proofs.Script.Lines
/-!
# The lines that set the numbers of a graph

Between the line that begins a beacon and the line that ends it, and in the first procedure, a line is fixed, ends in a
plain decimal, or puts a share in a list (`Setting`). What such a line can hold is read off these three forms.
-/

namespace BeaconMap

namespace Script

/-! ## Plain decimals -/

/-- One or more digits. -/
def Digits (text : List Char) : Prop := text ≠ [] ∧ text.all Char.isDigit = true

instance (text : List Char) : Decidable (Digits text) :=
  inferInstanceAs (Decidable (text ≠ [] ∧ text.all Char.isDigit = true))

theorem digits_iff {text : List Char} : Digits text ↔ text ≠ [] ∧ ∀ c ∈ text, c.isDigit = true := by
  rw [Digits, List.all_eq_true]

/-- Digits, before them at most a minus, and behind them at most a point with digits. -/
def PlainDecimal (text : List Char) : Prop :=
  ∃ sign whole places, text = sign ++ (whole ++ places) ∧ (sign = [] ∨ sign = ['-']) ∧ Digits whole ∧
    (places = [] ∨ ∃ digits, places = '.' :: digits ∧ Digits digits)

theorem Digits.plainDecimal {text : List Char} (h : Digits text) : PlainDecimal text :=
  ⟨[], text, [], by simp, .inl rfl, h, .inl rfl⟩

theorem PlainDecimal.mem {text : List Char} (h : PlainDecimal text) {c : Char} (hc : c ∈ text) :
    c.isDigit = true ∨ c = '-' ∨ c = '.' := by
  obtain ⟨sign, whole, places, rfl, hsign, hwhole, hplaces⟩ := h
  rcases List.mem_append.1 hc with hc | hc
  · rcases hsign with rfl | rfl
    · cases hc
    · exact .inr (.inl (List.mem_singleton.1 hc))
  rcases List.mem_append.1 hc with hc | hc
  · exact .inl ((digits_iff.1 hwhole).2 c hc)
  · rcases hplaces with rfl | ⟨digits, rfl, hdigits⟩
    · cases hc
    · rcases List.mem_cons.1 hc with rfl | hc
      · exact .inr (.inr rfl)
      · exact .inl ((digits_iff.1 hdigits).2 c hc)

theorem PlainDecimal.ne_nil {text : List Char} (h : PlainDecimal text) : text ≠ [] := by
  obtain ⟨sign, whole, places, rfl, -, hwhole, -⟩ := h
  simp [hwhole.1]

theorem digits_repr (n : Nat) : Digits n.repr.toList := by
  rw [Nat.toList_repr]
  exact digits_iff.2 ⟨Nat.toDigits_ne_nil, NumberStyle.isDigit_toDigits n⟩

theorem plainDecimal_integer (i : Int) : PlainDecimal i.repr.toList := by
  rw [Int.repr_eq_if]
  split
  · exact (digits_repr _).plainDecimal
  · rw [String.toList_append]
    exact ⟨['-'], _, [], by rw [List.append_nil]; rfl, .inr rfl, digits_repr _, .inl rfl⟩

/-- A point is written only where digits follow it. -/
theorem places_plain_ne_nil (d : Decimal) : (NumberStyle.plain.ofDecimal d).places ≠ some [] := by
  unfold NumberStyle.ofDecimal NumberStyle.plain
  dsimp only
  split
  · simp
  · unfold NumberStyle.inPlace
    split
    · simp [Nat.toDigits_ne_nil]
    · dsimp only
      split
      · simp
      · rename_i hlong
        simp only [ne_eq, Option.some.injEq, List.drop_eq_nil_iff]
        exact hlong

theorem plainDecimal_text {x : Binary64} (h : x.isFinite = true) : PlainDecimal x.text.toList := by
  have hpositional := NumberStyle.positional_plain (Shortest.decimal NumberStyle.plain.ties x)
  rw [Binary64.text_of_isFinite h, NumberStyle.numeral, Numeral.toList_text hpositional.exponent]
  refine ⟨_, _, _, rfl, ?_, digits_iff.2 ⟨hpositional.nonempty, hpositional.whole⟩, ?_⟩
  · split <;> simp
  · unfold Numeral.placesText
    cases hplaces : (NumberStyle.plain.ofDecimal (Shortest.decimal NumberStyle.plain.ties x)).places with
    | none => exact .inl rfl
    | some digits =>
      refine .inr ⟨digits, rfl, digits_iff.2 ⟨?_, hpositional.places digits hplaces⟩⟩
      rintro rfl
      exact places_plain_ne_nil _ hplaces

/-! ## The three forms -/

/-- The lines that hold no number of a graph. -/
def fixedLines : List String :=
  ["  resize-world 0 new-world-width 0 new-world-height", "  generate-beacons", "  generate-interest-points",
   "  connect-beacons", "  draw-squares", "  draw-streets", "  make-patches-non-wall",
   "    make-beacon-normal", "    make-beacon-entry", "    make-beacon-exit",
   "    set entry-limit 0", "    set entry-infinity? true", "    set entry-infinity? false"]

/-- What stands before the number of a line that ends in a number. -/
def numberedLines : List String :=
  ["  let new-world-width 2 * world-offset + ", "  let new-world-height 2 * world-offset + ",
   "    set intersection-width ", "    set intersection-height ", "    set intersection-radius ",
   "    set entry-rate ", "    set exit-rate ", "    set entry-limit ", "      set weight "]

/-- The lines of the bodies that begin and end no beacon and no street. -/
inductive Setting : String → Prop
  | fixed {line : String} (h : line ∈ fixedLines) : Setting line
  | number {before number : String} (h : before ∈ numberedLines) (hn : PlainDecimal number.toList) :
    Setting (before ++ number)
  | share {list behavior share : String} (h : list ∈ ["entry-percentages", "exit-percentages"])
    (hb : PlainDecimal behavior.toList) (hs : PlainDecimal share.toList) :
    Setting ("    set " ++ list ++ " lput [" ++ behavior ++ " " ++ share ++ "] " ++ list)

/-- The lines of the first procedure between the first and the last. -/
def worldBody (g : Graph) : List String :=
  ["  let new-world-width 2 * world-offset + " ++ g.maxEast.toInt.repr,
   "  let new-world-height 2 * world-offset + " ++ g.maxNorth.toInt.repr,
   "  resize-world 0 new-world-width 0 new-world-height",
   "  generate-beacons",
   "  generate-interest-points",
   "  connect-beacons",
   "  draw-squares",
   "  draw-streets",
   "  make-patches-non-wall"]

theorem worldLines_eq (g : Graph) : worldLines g = "to generate-map" :: (worldBody g ++ ["end "]) := rfl

theorem setting_worldBody (g : Graph) : ∀ line ∈ worldBody g, Setting line := by
  intro line hl
  fin_cases hl
  · exact .number (by decide) (plainDecimal_integer _)
  · exact .number (by decide) (plainDecimal_integer _)
  all_goals exact .fixed (by decide)

theorem setting_percentageLines {list : String} (hlist : list ∈ ["entry-percentages", "exit-percentages"])
    {p : Percentages} (h : ∀ e ∈ p.entries, e.2.isFinite = true) : ∀ line ∈ percentageLines list p, Setting line := by
  intro line hl
  obtain ⟨e, he, rfl⟩ := List.mem_map.1 hl
  exact .share hlist (digits_repr _).plainDecimal (plainDecimal_text (h e he))

theorem setting_limitLines (flow : EntryFlow) : ∀ line ∈ limitLines flow, Setting line := by
  intro line hl
  unfold limitLines at hl
  split at hl
  · fin_cases hl <;> exact .fixed (by decide)
  · fin_cases hl
    · exact .number (by decide) (digits_repr _).plainDecimal
    · exact .fixed (by decide)

theorem setting_kindLines {k : NodeKind} (h : k.FiniteNumbers) : ∀ line ∈ kindLines k, Setting line := by
  intro line hl
  cases k with
  | regular => cases hl
  | entryPoint flow generated =>
    simp only [kindLines, List.mem_append, List.mem_singleton] at hl
    rcases hl with (hl | rfl) | hl
    · exact setting_percentageLines (by decide) h.shares line hl
    · exact .number (by decide) (plainDecimal_text (h.rate _ rfl))
    · exact setting_limitLines flow line hl
  | exitPoint rate absorbed =>
    simp only [kindLines, List.mem_append, List.mem_singleton] at hl
    rcases hl with hl | rfl
    · exact setting_percentageLines (by decide) h.shares line hl
    · exact .number (by decide) (plainDecimal_text (h.rate _ rfl))

/-- The lines of a beacon between the first and the last. -/
def beaconBody (n : Node) : List String :=
  ["    " ++ marker n.kind,
   "    set intersection-width " ++ n.geometry.width.toInt.repr,
   "    set intersection-height " ++ n.geometry.height.toInt.repr,
   "    set intersection-radius " ++ n.geometry.radius.toInt.repr] ++ kindLines n.kind

theorem setting_beaconBody {n : Node} (h : n.kind.FiniteNumbers) : ∀ line ∈ beaconBody n, Setting line := by
  intro line hl
  rcases List.mem_append.1 hl with hl | hl
  · fin_cases hl
    · have hmarker : ∀ name ∈ ["make-beacon-normal", "make-beacon-entry", "make-beacon-exit"],
          "    " ++ name ∈ fixedLines := by decide +kernel
      refine .fixed (hmarker _ ?_)
      cases n.kind <;> simp [marker]
    all_goals exact .number (by decide) (plainDecimal_integer _)
  · exact setting_kindLines h line hl

end Script

end BeaconMap
