import BeaconMap.Proofs.Script.Settings
/-!
# The patches that a line names

A line names the patch at the offsets `x` and `y` when the text of that patch (`patchText`) stands somewhere in it
(`Names`). A line with one patch in it names no other (`names_around_iff`), and one without a parenthesis names none
(`not_names_of_plain`). So a beacon's lines name the patch it stands on and a street's lines those of its ends.
-/

namespace BeaconMap

/-- The coordinate has these offsets. -/
def Coordinate.At (c : Coordinate) (x y : Int) : Prop := c.x.toInt = x ∧ c.y.toInt = y

theorem Coordinate.at_unique {c d : Coordinate} {x y : Int} (hc : c.At x y) (hd : d.At x y) : c = d := by
  obtain ⟨_, _⟩ := c
  rw [Coordinate.mk.injEq]
  exact ⟨Int32.toInt_inj.1 (hc.1.trans hd.1.symm), Int32.toInt_inj.1 (hc.2.trans hd.2.symm)⟩

namespace Script

/-! ## Lines without a patch -/

/-- No parenthesis is opened in the line. -/
def Plain (line : String) : Prop := '(' ∉ line.toList

instance (line : String) : Decidable (Plain line) := inferInstanceAs (Decidable ('(' ∉ line.toList))

theorem plain_append (a b : String) : Plain (a ++ b) ↔ Plain a ∧ Plain b := by
  simp [Plain]

/-- No character of a number is a parenthesis. -/
theorem plain_of_plainDecimal {text : String} (h : PlainDecimal text.toList) : Plain text := by
  intro hopen
  rcases h.mem hopen with hopen | hopen | hopen <;> cases hopen

theorem plain_integer (i : Int) : Plain i.repr := plain_of_plainDecimal (plainDecimal_integer i)

theorem Setting.plain {line : String} (h : Setting line) : Plain line := by
  cases h with
  | fixed h =>
    have hfixed : ∀ line ∈ fixedLines, Plain line := by decide
    exact hfixed line h
  | @number before number h hn =>
    have hbefore : ∀ before ∈ numberedLines, Plain before := by decide
    exact (plain_append _ _).2 ⟨hbefore before h, plain_of_plainDecimal hn⟩
  | @share list behavior share h hb hs =>
    have hlist : ∀ list ∈ ["entry-percentages", "exit-percentages"], Plain list := by decide
    simp only [plain_append, hlist list h, plain_of_plainDecimal hb, plain_of_plainDecimal hs, and_true]
    decide

/-! ## The text of a patch -/

/-- The expression for the patch at these offsets. -/
def patchText (x y : Int) : String := "patch (world-offset + " ++ x.repr ++ ") (world-offset + " ++ y.repr ++ ")"

/-- The expression for the patch at these offsets stands in the line. -/
def Names (line : String) (x y : Int) : Prop := (patchText x y).toList <:+: line.toList

theorem patch_eq (c : Coordinate) : patch c = patchText c.x.toInt c.y.toInt := rfl

/-- What stands in a parenthesis, and its end. -/
def offsetText (i : Int) : String := "world-offset + " ++ i.repr ++ ")"

theorem toList_patchText (x y : Int) :
    (patchText x y).toList = "patch ".toList ++ '(' :: ((offsetText x).toList ++ ' ' :: '(' :: (offsetText y).toList) := by
  have hfirst : "patch (world-offset + " = "patch " ++ ("(" ++ "world-offset + ") := by decide
  have hsecond : ") (world-offset + " = ")" ++ (" (" ++ "world-offset + ") := by decide
  have hopen : "(".toList = ['('] := by decide
  have hblank : " (".toList = [' ', '('] := by decide
  unfold patchText offsetText
  rw [hfirst, hsecond]
  simp only [String.append_assoc, String.toList_append, hopen, hblank, List.cons_append, List.nil_append,
    List.append_assoc]

theorem plain_offsetText (i : Int) : Plain (offsetText i) := by
  unfold offsetText
  rw [plain_append, plain_append]
  exact ⟨⟨by decide, plain_integer i⟩, by decide⟩

/-- An offset is known from its text, and so is what follows it. -/
theorem offsetText_append_inj {i j : Int} {r r' : List Char}
    (h : (offsetText i).toList ++ r = (offsetText j).toList ++ r') : i = j ∧ r = r' := by
  have hmark (i : Int) : ')' ∉ i.repr.toList := not_mem_integer (by decide) (by decide) i
  have hclose : ")".toList = [')'] := by decide
  unfold offsetText at h
  rw [String.append_assoc, String.append_assoc, String.toList_append, String.toList_append, List.append_assoc,
    List.append_assoc, String.toList_append, String.toList_append, hclose, List.append_assoc, List.append_assoc] at h
  obtain ⟨hrepr, hrest⟩ := append_mark_inj (hmark i) (hmark j) (List.append_cancel_left h)
  exact ⟨Int.repr_inj.1 (String.toList_inj.1 hrepr), hrest⟩

theorem count_patchText (x y : Int) : (patchText x y).toList.count '(' = 2 := by
  have hnone (i : Int) : (offsetText i).toList.count '(' = 0 := List.count_eq_zero.2 (plain_offsetText i)
  have hword : "patch ".toList.count '(' = 0 := by decide
  rw [toList_patchText]
  simp only [List.count_append, List.count_cons_self, List.count_cons, hnone, hword]
  decide

theorem not_names_of_plain {line : String} (h : Plain line) (x y : Int) : ¬ Names line x y := by
  intro hn
  have hmem : '(' ∈ (patchText x y).toList := List.count_pos_iff.1 (by rw [count_patchText]; decide)
  exact h (hn.subset hmem)

/-- Where one patch stands between plain texts, the line names this patch and no other. -/
theorem names_around_iff {before after : String} (hb : Plain before) (ha : Plain after) (c : Coordinate) (x y : Int) :
    Names (before ++ patch c ++ after) x y ↔ c.At x y := by
  constructor
  · rintro ⟨s, t, h⟩
    -- The line has no more parentheses than the patch, so nothing is left for what stands before it.
    have hcount := congrArg (List.count '(') h
    simp only [patch_eq, String.toList_append, List.count_append, count_patchText, List.count_eq_zero.2 hb,
      List.count_eq_zero.2 ha] at hcount
    have hword : Plain "patch " := by decide
    have hs : '(' ∉ s ++ "patch ".toList := by
      have hzero : s.count '(' = 0 := by omega
      rw [List.mem_append, not_or]
      exact ⟨List.count_eq_zero.1 hzero, hword⟩
    have hb' : '(' ∉ before.toList ++ "patch ".toList := by
      rw [List.mem_append, not_or]
      exact ⟨hb, hword⟩
    rw [patch_eq, String.toList_append, String.toList_append, toList_patchText, toList_patchText] at h
    simp only [List.append_assoc, List.cons_append] at h
    rw [← List.append_assoc, ← List.append_assoc before.toList] at h
    obtain ⟨hx, hrest⟩ := offsetText_append_inj (append_mark_inj hs hb' h).2
    simp only [List.cons.injEq, true_and] at hrest
    exact ⟨hx.symm, (offsetText_append_inj hrest).1.symm⟩
  · rintro ⟨rfl, rfl⟩
    exact ⟨before.toList, after.toList, by rw [patch_eq, String.toList_append, String.toList_append]⟩

/-! ## The lines of a beacon -/

/-- The line that sprouts a beacon. -/
def sproutLine (n : Node) : String := "  ask " ++ patch n.position ++ " [sprout-beacons 1 ["

theorem names_sproutLine_iff (n : Node) (x y : Int) : Names (sproutLine n) x y ↔ n.position.At x y := by
  have hbefore : Plain "  ask " := by decide
  have hafter : Plain " [sprout-beacons 1 [" := by decide
  exact names_around_iff hbefore hafter ..

/-- The lines of a beacon after the first. -/
def furtherLines (n : Node) : List String :=
  ["    " ++ marker n.kind,
   "    set intersection-width " ++ n.geometry.width.toInt.repr,
   "    set intersection-height " ++ n.geometry.height.toInt.repr,
   "    set intersection-radius " ++ n.geometry.radius.toInt.repr] ++ kindLines n.kind ++ ["  ]]"]

theorem nodeLines_eq_cons (n : Node) : nodeLines n = sproutLine n :: furtherLines n := rfl

theorem furtherLines_eq (n : Node) : furtherLines n = beaconBody n ++ ["  ]]"] := rfl

theorem plain_furtherLines {n : Node} (h : n.kind.FiniteNumbers) : ∀ line ∈ furtherLines n, Plain line := by
  intro line hl
  rw [furtherLines_eq] at hl
  rcases List.mem_append.1 hl with hl | hl
  · exact (setting_beaconBody h line hl).plain
  · fin_cases hl
    decide

/-- The lines of a beacon name its patch only. -/
theorem names_nodeLines {n : Node} (h : n.kind.FiniteNumbers) {line : String} (hl : line ∈ nodeLines n) {x y : Int}
    (hn : Names line x y) : n.position.At x y := by
  rw [nodeLines_eq_cons] at hl
  rcases List.mem_cons.1 hl with rfl | hl
  · exact (names_sproutLine_iff n x y).1 hn
  · exact absurd hn (not_names_of_plain (plain_furtherLines h line hl) x y)

/-! ## The lines of a street -/

/-- The line that asks the beacon at one end of a street. -/
def sourceLine (source : Coordinate) : String := "  ask beacons-on " ++ patch source ++ " ["

/-- The line that names the other end. -/
def targetLine (directed : Bool) (target : Coordinate) : String :=
  "    " ++ streetCommand directed ++ " beacons-on " ++ patch target ++ " ["

theorem names_sourceLine_iff (c : Coordinate) (x y : Int) : Names (sourceLine c) x y ↔ c.At x y := by
  have hbefore : Plain "  ask beacons-on " := by decide
  have hafter : Plain " [" := by decide
  exact names_around_iff hbefore hafter ..

theorem names_targetLine_iff (directed : Bool) (c : Coordinate) (x y : Int) :
    Names (targetLine directed c) x y ↔ c.At x y := by
  have hbefore : Plain ("    " ++ streetCommand directed ++ " beacons-on ") := by cases directed <;> decide
  have hafter : Plain " [" := by decide
  exact names_around_iff hbefore hafter ..

theorem streetLines_eq (e : Edge) (c d : Coordinate) :
    streetLines e c d = [sourceLine c, targetLine e.directed d, "      set weight " ++ e.weight.text,
      "      set street-width " ++ e.width.toInt.repr ++ "]]"] := rfl

/-- The lines of a street name the patches of its ends only. -/
theorem names_streetLines {e : Edge} (h : e.weight.isFinite = true) {c d : Coordinate} {line : String}
    (hl : line ∈ streetLines e c d) {x y : Int} (hn : Names line x y) : c.At x y ∨ d.At x y := by
  rw [streetLines_eq] at hl
  fin_cases hl
  · exact .inl ((names_sourceLine_iff c x y).1 hn)
  · exact .inr ((names_targetLine_iff e.directed d x y).1 hn)
  · have hweight : Setting ("      set weight " ++ e.weight.text) := .number (by decide) (plainDecimal_text h)
    exact absurd hn (not_names_of_plain hweight.plain x y)
  · refine absurd hn (not_names_of_plain ?_ x y)
    rw [plain_append, plain_append]
    exact ⟨⟨by decide, plain_integer _⟩, by decide⟩

end Script

end BeaconMap
