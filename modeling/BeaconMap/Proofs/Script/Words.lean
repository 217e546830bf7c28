import BeaconMap.Proofs.Script.Patches
/-!
# Words

Blanks and brackets separate the words of a line (`words`). Every word of a script is a plain decimal (`PlainDecimal`)
or one of a few names (`Spelled`), because the numbers of a graph are finite and stand between separators. A phrase
without separators stands inside one word (`exists_word_of_infix`), so a line has no phrase that none of its names has.
-/

namespace BeaconMap

namespace Script

/-! ## The words of a line -/

/-- The character stands between words. -/
def separates (c : Char) : Bool := [' ', '[', ']', '(', ')'].contains c

/-- The words of a line. -/
def words (line : String) : List String :=
  ((line.toList.splitOnP separates).filter (fun word => word ≠ [])).map String.ofList

/-- A text with no separator is one word. -/
theorem words_eq_singleton {word : String} (hne : word.toList ≠ []) (h : ∀ c ∈ word.toList, separates c = false) :
    words word = [word] := by
  rw [words, List.splitOnP_eq_singleton h]
  simp [hne, String.ofList_toList]

/-- The text begins with a separator. -/
def StartsApart (text : String) : Prop := text.toList.head?.any separates = true

instance (text : String) : Decidable (StartsApart text) :=
  inferInstanceAs (Decidable (text.toList.head?.any separates = true))

/-- The text ends in a separator. -/
def EndsApart (text : String) : Prop := text.toList.getLast?.any separates = true

instance (text : String) : Decidable (EndsApart text) :=
  inferInstanceAs (Decidable (text.toList.getLast?.any separates = true))

theorem StartsApart.append {text : String} (h : StartsApart text) (rest : String) : StartsApart (text ++ rest) := by
  obtain ⟨c, hc, hseparates⟩ := (Option.any_eq_true _ _).1 h
  obtain ⟨later, hlater⟩ := List.head?_eq_some_iff.1 hc
  exact (Option.any_eq_true _ _).2 ⟨c, by rw [String.toList_append, hlater]; rfl, hseparates⟩

/-- Two texts that meet at a separator have their own words. -/
theorem words_append {a b : String} (h : EndsApart a ∨ StartsApart b) : words (a ++ b) = words a ++ words b := by
  unfold words
  rw [String.toList_append, ← List.map_append]
  congr 1
  rcases h with h | h
  · obtain ⟨c, hc, hseparates⟩ := (Option.any_eq_true _ _).1 h
    obtain ⟨front, hfront⟩ := List.getLast?_eq_some_iff.1 hc
    rw [hfront, List.append_assoc, List.singleton_append, List.splitOnP_append_cons _ _ hseparates,
      List.splitOnP_append_cons _ _ hseparates, List.splitOnP_nil]
    simp
  · obtain ⟨c, hc, hseparates⟩ := (Option.any_eq_true _ _).1 h
    obtain ⟨rest, hrest⟩ := List.head?_eq_some_iff.1 hc
    rw [hrest, List.splitOnP_append_cons _ _ hseparates, ← List.nil_append (c :: rest),
      List.splitOnP_append_cons _ _ hseparates, List.splitOnP_nil]
    simp

/-- The first piece of a text begins with what stands before the first separator. -/
theorem splitOnP_append {phrase : List Char} (hphrase : ∀ c ∈ phrase, separates c = false) (rest : List Char) :
    (phrase ++ rest).splitOnP separates = (rest.splitOnP separates).modifyHead (phrase ++ ·) := by
  induction phrase with
  | nil => cases h : rest.splitOnP separates <;> simp [h]
  | cons c phrase ih =>
    rw [List.cons_append, List.splitOnP_cons_eq_if_modifyHead, hphrase c List.mem_cons_self,
      ih fun d hd => hphrase d (List.mem_cons_of_mem _ hd)]
    cases rest.splitOnP separates <;> simp

/-- A phrase without separators stands inside one piece. -/
theorem exists_piece_of_infix {phrase : List Char} (hphrase : ∀ c ∈ phrase, separates c = false) {text : List Char}
    (h : phrase <:+: text) : ∃ piece ∈ text.splitOnP separates, phrase <:+: piece := by
  obtain ⟨front, rest, rfl⟩ := h
  rw [List.append_assoc]
  induction front with
  | nil =>
    obtain ⟨piece, pieces, hpieces⟩ := List.exists_cons_of_ne_nil (List.splitOnP_ne_nil separates rest)
    rw [List.nil_append, splitOnP_append hphrase, hpieces]
    exact ⟨phrase ++ piece, List.mem_cons_self, (List.prefix_append _ _).isInfix⟩
  | cons c front ih =>
    obtain ⟨piece, hpiece, hstands⟩ := ih
    rw [List.cons_append, List.splitOnP_cons_eq_if_modifyHead]
    split
    · exact ⟨piece, List.mem_cons_of_mem _ hpiece, hstands⟩
    · obtain ⟨first, pieces, hpieces⟩ := List.exists_cons_of_ne_nil (List.splitOnP_ne_nil separates _)
      rw [hpieces] at hpiece ⊢
      rcases List.mem_cons.1 hpiece with rfl | hpiece
      · exact ⟨c :: piece, List.mem_cons_self, hstands.trans (List.suffix_cons _ _).isInfix⟩
      · exact ⟨piece, List.mem_cons_of_mem _ hpiece, hstands⟩

theorem exists_word_of_infix {phrase : List Char} (hne : phrase ≠ []) (hphrase : ∀ c ∈ phrase, separates c = false)
    {line : String} (h : phrase <:+: line.toList) : ∃ word ∈ words line, phrase <:+: word.toList := by
  obtain ⟨piece, hpiece, hstands⟩ := exists_piece_of_infix hphrase h
  have hpieceNe : piece ≠ [] := by
    rintro rfl
    exact hne (List.infix_nil.1 hstands)
  refine ⟨String.ofList piece, List.mem_map_of_mem (List.mem_filter.2 ⟨hpiece, by simpa using hpieceNe⟩), ?_⟩
  rwa [String.toList_ofList]

/-! ## Lines of names and decimals -/

/-- Every word of the line is a plain decimal or one of these names. -/
def Spelled (names : List String) (line : String) : Prop :=
  ∀ word ∈ words line, PlainDecimal word.toList ∨ word ∈ names

/-- Every word of the line is made of digits or one of these names. -/
def Checked (names : List String) (line : String) : Prop := ∀ word ∈ words line, Digits word.toList ∨ word ∈ names

instance (names : List String) (line : String) : Decidable (Checked names line) :=
  inferInstanceAs (Decidable (∀ word ∈ words line, Digits word.toList ∨ word ∈ names))

section
variable {names : List String}

theorem Spelled.mono {names' : List String} {line : String} (h : Spelled names line) (hnames : names ⊆ names') :
    Spelled names' line := fun word hword => (h word hword).imp_right fun hmem => hnames hmem

/-- A fixed text is checked word by word. -/
theorem Checked.spelled {line : String} (h : Checked names line) : Spelled names line :=
  fun word hword => (h word hword).imp_left Digits.plainDecimal

theorem spelled_of_plainDecimal {text : String} (h : PlainDecimal text.toList) : Spelled names text := by
  have hwords : words text = [text] := by
    refine words_eq_singleton h.ne_nil fun c hc => ?_
    rcases h.mem hc with hdigit | rfl | rfl
    · unfold separates
      rw [List.contains_eq_mem, decide_eq_false_iff_not]
      rintro hmem
      fin_cases hmem <;> cases hdigit
    · rfl
    · rfl
  intro word hword
  rw [hwords, List.mem_singleton] at hword
  exact .inl (hword ▸ h)

theorem Spelled.append {a b : String} (ha : Spelled names a) (hb : Spelled names b) (h : EndsApart a ∨ StartsApart b) :
    Spelled names (a ++ b) := by
  intro word hword
  rw [words_append h] at hword
  rcases List.mem_append.1 hword with hword | hword
  · exact ha word hword
  · exact hb word hword

/-- A text between two that part it from them. -/
theorem Spelled.around {before middle after : String} (hbefore : Spelled names before) (hmiddle : Spelled names middle)
    (hafter : Spelled names after) (hends : EndsApart before) (hstarts : StartsApart after) :
    Spelled names (before ++ (middle ++ after)) :=
  hbefore.append (hmiddle.append hafter (.inr hstarts)) (.inl hends)

/-- A phrase that is no number and stands in none of the names does not stand in the line. -/
theorem Spelled.not_infix {line : String} (h : Spelled names line) {phrase : List Char} {letter : Char}
    (hletter : letter ∈ phrase) (hother : ¬ (letter.isDigit = true ∨ letter = '-' ∨ letter = '.'))
    (hphrase : phrase.any separates = false) (hnames : ∀ name ∈ names, ¬ phrase <:+: name.toList) :
    ¬ phrase <:+: line.toList := by
  intro hstands
  rw [List.any_eq_false] at hphrase
  obtain ⟨word, hword, hstands⟩ := exists_word_of_infix (List.ne_nil_of_mem hletter)
    (fun c hc => Bool.eq_false_iff.2 (hphrase c hc)) hstands
  rcases h word hword with hdecimal | hname
  · exact hother (hdecimal.mem (hstands.subset hletter))
  · exact hnames word hname hstands

end

/-! ## The lines of a script -/

/-- The names that the bodies of the procedures use, but for the commands that make beacons and streets. -/
def bodyNames : List String :=
  ["let", "new-world-width", "new-world-height", "resize-world", "generate-beacons", "generate-interest-points",
   "connect-beacons", "draw-squares", "draw-streets", "make-patches-non-wall",
   "ask", "patch", "world-offset", "+", "*", "set",
   "make-beacon-normal", "make-beacon-entry", "make-beacon-exit",
   "intersection-width", "intersection-height", "intersection-radius",
   "lput", "entry-percentages", "exit-percentages", "entry-rate", "exit-rate",
   "entry-limit", "entry-infinity?", "true", "false",
   "beacons-on", "weight", "street-width"]

/-- The commands that make beacons and streets. -/
def makingNames : List String := ["sprout-beacons", "create-streets-with", "create-directed-streets-to"]

theorem Setting.spelled {line : String} (h : Setting line) : Spelled bodyNames line := by
  cases h with
  | fixed h =>
    have hfixed : ∀ line ∈ fixedLines, Checked bodyNames line := by decide +kernel
    exact (hfixed line h).spelled
  | @number before number h hn =>
    have hbefore : ∀ before ∈ numberedLines, Checked bodyNames before ∧ EndsApart before := by decide +kernel
    obtain ⟨hchecked, hends⟩ := hbefore before h
    exact hchecked.spelled.append (spelled_of_plainDecimal hn) (.inl hends)
  | @share list behavior share h hb hs =>
    have hlist : ∀ list ∈ ["entry-percentages", "exit-percentages"],
        (Checked bodyNames ("    set " ++ list ++ " lput [") ∧ EndsApart ("    set " ++ list ++ " lput [")) ∧
          Checked bodyNames ("] " ++ list) ∧ StartsApart ("] " ++ list) := by decide +kernel
    have hblank : Checked bodyNames " " ∧ EndsApart " " ∧ StartsApart " " := by decide +kernel
    obtain ⟨⟨hbefore, hends⟩, hafter, hstarts⟩ := hlist list h
    have hrest : Spelled bodyNames (" " ++ (share ++ ("] " ++ list))) :=
      hblank.1.spelled.around (spelled_of_plainDecimal hs) hafter.spelled hblank.2.1 hstarts
    have hline : Spelled bodyNames ("    set " ++ list ++ " lput [" ++ (behavior ++ (" " ++ (share ++ ("] " ++ list))))) :=
      hbefore.spelled.around (spelled_of_plainDecimal hb) hrest hends (hblank.2.2.append _)
    simpa only [String.append_assoc] using hline

/-! ## The lines that begin and end a beacon or a street -/

theorem spelled_patch (c : Coordinate) : Spelled bodyNames (patch c) := by
  have hfirst : Checked bodyNames "patch (world-offset + " ∧ EndsApart "patch (world-offset + " := by decide +kernel
  have hsecond : Checked bodyNames ") (world-offset + " ∧
      EndsApart ") (world-offset + " ∧ StartsApart ") (world-offset + " := by decide +kernel
  have hlast : Checked bodyNames ")" ∧ StartsApart ")" := by decide +kernel
  have hrest : Spelled bodyNames (") (world-offset + " ++ (c.y.toInt.repr ++ ")")) :=
    hsecond.1.spelled.around (spelled_of_plainDecimal (plainDecimal_integer _)) hlast.1.spelled hsecond.2.1 hlast.2
  unfold patch
  rw [String.append_assoc, String.append_assoc, String.append_assoc]
  exact hfirst.1.spelled.around (spelled_of_plainDecimal (plainDecimal_integer _)) hrest hfirst.2 (hsecond.2.2.append _)

/-- A line with one patch in it. -/
theorem spelled_around_patch {names : List String} (hnames : bodyNames ⊆ names) {before after : String}
    (hbefore : Checked names before ∧ EndsApart before) (hafter : Checked names after ∧ StartsApart after)
    (c : Coordinate) : Spelled names (before ++ patch c ++ after) := by
  rw [String.append_assoc]
  exact hbefore.1.spelled.around ((spelled_patch c).mono hnames) hafter.1.spelled hbefore.2 hafter.2

theorem spelled_sproutLine (n : Node) : Spelled ("sprout-beacons" :: bodyNames) (sproutLine n) :=
  spelled_around_patch (List.subset_cons_self _ _) (by decide +kernel) (by decide +kernel) _

theorem spelled_sourceLine (c : Coordinate) : Spelled bodyNames (sourceLine c) :=
  spelled_around_patch (List.Subset.refl _) (by decide +kernel) (by decide +kernel) _

theorem spelled_targetLine (directed : Bool) (c : Coordinate) :
    Spelled (streetCommand directed :: bodyNames) (targetLine directed c) := by
  have hbefore : ∀ directed, Checked (streetCommand directed :: bodyNames)
        ("    " ++ streetCommand directed ++ " beacons-on ") ∧
      EndsApart ("    " ++ streetCommand directed ++ " beacons-on ") := by decide +kernel
  have hafter : ∀ directed, Checked (streetCommand directed :: bodyNames) " [" ∧ StartsApart " [" := by decide +kernel
  exact spelled_around_patch (List.subset_cons_self _ _) (hbefore directed) (hafter directed) _

theorem spelled_widthLine (width : Int32) : Spelled bodyNames ("      set street-width " ++ width.toInt.repr ++ "]]") := by
  have hbefore : Checked bodyNames "      set street-width " ∧ EndsApart "      set street-width " := by decide +kernel
  have hafter : Checked bodyNames "]]" ∧ StartsApart "]]" := by decide +kernel
  rw [String.append_assoc]
  exact hbefore.1.spelled.around (spelled_of_plainDecimal (plainDecimal_integer _)) hafter.1.spelled hbefore.2 hafter.2

end Script

end BeaconMap
