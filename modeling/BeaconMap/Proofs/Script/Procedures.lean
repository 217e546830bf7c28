import BeaconMap.Proofs.Script.Block
import BeaconMap.Proofs.Script.Brackets
/-!
# Three procedures

The block of a graph is three procedures (`Procedure`), the first without anything that depends on a node or an edge but
the extents. In the second every node has its statement, in the third every edge; what a statement opens it closes, only
the first and the last line of a procedure have the words `to` and `end`, and each statement has one line that makes its
beacon or its street. So the block is well-formed text with one statement for each node and each edge, in their order
(`mapBlock_wellFormed`).
-/

namespace BeaconMap

open Script

namespace Script

/-! ## Procedures -/

/-- The names that a script uses. -/
def scriptNames : List String := ["to", "end", "generate-map"] ++ (makingNames ++ bodyNames)

/-- The line that opens a procedure, its statements of one or more lines each, and the line that closes it. -/
structure Procedure where
  opening : String
  statements : List (List String)
  closing : String

def Procedure.lines (p : Procedure) : List String := p.opening :: (p.statements.flatten ++ [p.closing])

/-- The lines of a procedure up to the end of its first `k` statements. -/
def Procedure.upTo (p : Procedure) (k : Nat) : List String := p.opening :: (p.statements.take k).flatten

/-- The procedure has this name. It is opened and closed by one line each, there is no other such line between these, no
bracket is left open after its first line, after each statement and at its end, and every word is a plain decimal or one
of the names of a script. -/
structure Procedure.Proper (p : Procedure) (name : String) : Prop where
  opening : words p.opening = ["to", name]
  closing : words p.closing = ["end"]
  inside : ∀ line ∈ p.statements.flatten, "to" ∉ words line ∧ "end" ∉ words line
  balanced : Balanced [p.opening] ∧ (∀ statement ∈ p.statements, Balanced statement) ∧ Balanced [p.closing]
  spelled : ∀ line ∈ p.lines, Spelled scriptNames line

theorem Procedure.forall_lines {p : Procedure} {q : String → Prop} (hopening : q p.opening)
    (hstatements : ∀ statement ∈ p.statements, ∀ line ∈ statement, q line) (hclosing : q p.closing) :
    ∀ line ∈ p.lines, q line := by
  intro line hl
  rcases List.mem_cons.1 hl with rfl | hl
  · exact hopening
  rcases List.mem_append.1 hl with hl | hl
  · obtain ⟨statement, hs, hl⟩ := List.mem_flatten.1 hl
    exact hstatements statement hs line hl
  · exact List.mem_singleton.1 hl ▸ hclosing

/-- What a procedure has of lines of some sort, when those that open and close it are not of that sort. -/
theorem Procedure.filter_lines {p : Procedure} {q : String → Bool} (hopening : q p.opening = false)
    (hclosing : q p.closing = false) : p.lines.filter q = p.statements.flatMap (List.filter q) := by
  rw [lines, List.filter_cons, hopening, List.filter_append, List.filter_flatten, ← List.flatMap_def,
    List.filter_cons, hclosing]
  simp

theorem Procedure.Proper.balanced_lines {p : Procedure} {name : String} (h : p.Proper name) : Balanced p.lines :=
  h.balanced.1.append ((balanced_flatten h.balanced.2.1).append h.balanced.2.2)

theorem Procedure.Proper.balanced_upTo {p : Procedure} {name : String} (h : p.Proper name) (k : Nat) :
    Balanced (p.upTo k) :=
  h.balanced.1.append (balanced_flatten fun statement hs => h.balanced.2.1 statement (List.mem_of_mem_take hs))

/-- A line of a statement has neither `to` nor `end` among its words. -/
theorem Spelled.not_keyword {names : List String} {line : String} (h : Spelled names line)
    (hnames : names ⊆ makingNames ++ bodyNames) : "to" ∉ words line ∧ "end" ∉ words line := by
  have hkeywords : "to" ∉ makingNames ++ bodyNames ∧ "end" ∉ makingNames ++ bodyNames := by decide +kernel
  have hdecimals : ¬ PlainDecimal "to".toList ∧ ¬ PlainDecimal "end".toList := by
    constructor
    · intro hdecimal
      exact absurd (hdecimal.mem (c := 't') (by decide)) (by decide)
    · intro hdecimal
      exact absurd (hdecimal.mem (c := 'd') (by decide)) (by decide)
  constructor
  · intro hword
    exact (h _ hword).elim hdecimals.1 fun hname => hkeywords.1 (hnames hname)
  · intro hword
    exact (h _ hword).elim hdecimals.2 fun hname => hkeywords.2 (hnames hname)

/-! ## Lines that make a beacon or a street -/

/-- The phrase stands in the line. -/
def Contains (line phrase : String) : Prop := phrase.toList <:+: line.toList

instance (line phrase : String) : Decidable (Contains line phrase) :=
  inferInstanceAs (Decidable (phrase.toList <:+: line.toList))

/-- The line makes a beacon. -/
def MakesBeacon (line : String) : Prop := Contains line "sprout-beacons 1"

instance (line : String) : Decidable (MakesBeacon line) := inferInstanceAs (Decidable (Contains line "sprout-beacons 1"))

/-- The line makes a street. -/
def MakesStreet (line : String) : Prop :=
  Contains line "create-streets-with" ∨ Contains line "create-directed-streets-to"

instance (line : String) : Decidable (MakesStreet line) :=
  inferInstanceAs (Decidable (Contains line "create-streets-with" ∨ Contains line "create-directed-streets-to"))

theorem Contains.append_left {a phrase : String} (h : Contains a phrase) (b : String) : Contains (a ++ b) phrase := by
  rw [Contains, String.toList_append]
  exact h.trans (List.prefix_append _ _).isInfix

theorem Contains.append_right {b phrase : String} (h : Contains b phrase) (a : String) : Contains (a ++ b) phrase := by
  rw [Contains, String.toList_append]
  exact h.trans (List.suffix_append _ _).isInfix

/-- A command that makes a beacon or a street stands in no other name. -/
theorem making_apart : ∀ name ∈ makingNames, ('s' ∈ name.toList ∧ name.toList.any separates = false) ∧
    ∀ other ∈ makingNames ++ bodyNames, name.toList <:+: other.toList → other = name := by decide +kernel

/-- A line with one command among its words contains no other. -/
theorem Spelled.not_contains {command line : String} (h : Spelled (command :: bodyNames) line) {name : String}
    (hcommand : command ∈ makingNames) (hname : name ∈ makingNames) (hne : command ≠ name) : ¬ Contains line name := by
  obtain ⟨⟨hletter, hone⟩, hapart⟩ := making_apart name hname
  refine h.not_infix hletter (by decide) hone fun other hother hstands => ?_
  rcases List.mem_cons.1 hother with rfl | hbody
  · exact hne (hapart _ (List.mem_append_left _ hcommand) hstands)
  · have hnot : ∀ name ∈ makingNames, name ∉ bodyNames := by decide +kernel
    exact hnot name hname (hapart other (List.mem_append_right _ hbody) hstands ▸ hbody)

theorem streetCommand_mem (directed : Bool) : streetCommand directed ∈ makingNames := by cases directed <;> decide

/-- What a street may be spelled with does not make a beacon. -/
theorem not_makesBeacon {directed : Bool} {line : String} (h : Spelled (streetCommand directed :: bodyNames) line) :
    ¬ MakesBeacon line := by
  have hfront : "sprout-beacons".toList <+: "sprout-beacons 1".toList := by decide +kernel
  have hne : streetCommand directed ≠ "sprout-beacons" := by cases directed <;> decide
  intro hmakes
  exact h.not_contains (streetCommand_mem directed) (by decide) hne (hfront.isInfix.trans hmakes)

/-- What a beacon may be spelled with does not make a street. -/
theorem not_makesStreet {line : String} (h : Spelled ("sprout-beacons" :: bodyNames) line) : ¬ MakesStreet line := by
  rintro (hmakes | hmakes)
  · exact h.not_contains (by decide) (by decide) (by decide) hmakes
  · exact h.not_contains (by decide) (by decide) (by decide) hmakes

/-- A line of other names makes neither. -/
theorem makes_none {line : String} (h : Spelled bodyNames line) : ¬ MakesBeacon line ∧ ¬ MakesStreet line := by
  have hcommand : Spelled (streetCommand true :: bodyNames) line := h.mono (List.subset_cons_self _ _)
  exact ⟨not_makesBeacon hcommand, not_makesStreet (h.mono (List.subset_cons_self _ _))⟩

theorem makesBeacon_sproutLine (n : Node) : MakesBeacon (sproutLine n) := by
  have hsprout : Contains " [sprout-beacons 1 [" "sprout-beacons 1" := by decide +kernel
  exact hsprout.append_right _

theorem makesStreet_targetLine (directed : Bool) (c : Coordinate) : MakesStreet (targetLine directed c) := by
  have hcommand : Contains (targetLine directed c) (streetCommand directed) := by
    have hself : Contains (streetCommand directed) (streetCommand directed) := List.infix_refl _
    exact (((hself.append_right "    ").append_left " beacons-on ").append_left (patch c)).append_left " ["
  cases directed with
  | false => exact .inl hcommand
  | true => exact .inr hcommand

/-! ## Statements -/

/-- The lines of a beacon but the first. -/
theorem spelled_furtherLines {n : Node} (h : n.kind.FiniteNumbers) :
    ∀ line ∈ furtherLines n, Spelled bodyNames line := by
  have hlast : Checked bodyNames "  ]]" := by decide +kernel
  intro line hl
  rw [furtherLines_eq] at hl
  rcases List.mem_append.1 hl with hl | hl
  · exact (setting_beaconBody h line hl).spelled
  · exact List.mem_singleton.1 hl ▸ hlast.spelled

theorem spelled_nodeLines {n : Node} (h : n.kind.FiniteNumbers) :
    ∀ line ∈ nodeLines n, Spelled ("sprout-beacons" :: bodyNames) line := by
  intro line hl
  rw [nodeLines_eq_cons] at hl
  rcases List.mem_cons.1 hl with rfl | hl
  · exact spelled_sproutLine n
  · exact (spelled_furtherLines h line hl).mono (List.subset_cons_self _ _)

theorem spelled_weightLine {weight : Binary64} (h : weight.isFinite = true) :
    Spelled bodyNames ("      set weight " ++ weight.text) := by
  have hsetting : Setting ("      set weight " ++ weight.text) := .number (by decide) (plainDecimal_text h)
  exact hsetting.spelled

theorem spelled_streetLines {e : Edge} (h : e.weight.isFinite = true) (c d : Coordinate) :
    ∀ line ∈ streetLines e c d, Spelled (streetCommand e.directed :: bodyNames) line := by
  have hbody {line : String} (h : Spelled bodyNames line) : Spelled (streetCommand e.directed :: bodyNames) line :=
    h.mono (List.subset_cons_self _ _)
  rw [streetLines_eq]
  simp only [List.forall_mem_cons, List.not_mem_nil, false_imp_iff, implies_true, and_true]
  exact ⟨hbody (spelled_sourceLine c), spelled_targetLine e.directed d, hbody (spelled_weightLine h),
    hbody (spelled_widthLine e.width)⟩

/-- Of the lines of a beacon only the first makes it. -/
theorem filter_makesBeacon_nodeLines {n : Node} (h : n.kind.FiniteNumbers) :
    (nodeLines n).filter (fun line => MakesBeacon line) = [sproutLine n] := by
  have hfurther : ∀ line ∈ furtherLines n, ¬ MakesBeacon line :=
    fun line hl => (makes_none (spelled_furtherLines h line hl)).1
  rw [nodeLines_eq_cons, List.filter_cons, if_pos (decide_eq_true (makesBeacon_sproutLine n)),
    List.filter_eq_nil_iff.2]
  simpa using hfurther

/-- Of the lines of a street only the second makes it. -/
theorem filter_makesStreet_streetLines {e : Edge} (h : e.weight.isFinite = true) (c d : Coordinate) :
    (streetLines e c d).filter (fun line => MakesStreet line) = [targetLine e.directed d] := by
  have hsource := (makes_none (spelled_sourceLine c)).2
  have hweight := (makes_none (spelled_weightLine h)).2
  have hwidth := (makes_none (spelled_widthLine e.width)).2
  rw [streetLines_eq]
  simp only [List.filter_cons, hsource, makesStreet_targetLine, hweight, hwidth, decide_false, decide_true,
    Bool.false_eq_true, if_false, if_true, List.filter_nil]

theorem Spelled.oneLine {line : String} (h : Spelled scriptNames line) : '\n' ∉ line.toList := by
  have hnames : ∀ name ∈ scriptNames, ¬ ['\n'] <:+: name.toList := by decide +kernel
  intro hmem
  exact h.not_infix List.mem_cons_self (by decide) (by decide) hnames ((List.singleton_infix_iff _ _).2 hmem)

/-! ## Blocks -/

/-- The lines of three procedures, with an empty line after the first. -/
def joined (first second third : Procedure) : List String := first.lines ++ [""] ++ second.lines ++ third.lines

/-- The lines are three proper procedures with an empty line after the first. No line has a line end in it. Reading the
lines in order, brackets are never closed before they are opened, and none is left open at the end of a procedure and of
each statement. Each node and each edge of the graph has its statement and one line that makes it, in order, the nodes in
the second procedure and the edges in the third. -/
structure WellFormed (block : List String) (first second third : Procedure) (g : Graph) : Prop where
  lines : block = joined first second third
  world : first.Proper "generate-map"
  beacons : second.Proper "generate-beacons"
  streets : third.Proper "connect-beacons"
  nodes : second.statements = g.nodes.toList.map nodeLines
  edges : third.statements =
    g.edges.toList.map fun e => streetLines e (g.positionOf e.source) (g.positionOf e.target)
  oneLine : ∀ line ∈ block, '\n' ∉ line.toList
  nested : ∀ front, front <+: block.flatMap String.toList →
    front.count ']' ≤ front.count '[' ∧ front.count ')' ≤ front.count '('
  closed : Balanced first.lines ∧ Balanced (first.lines ++ [""] ++ second.lines) ∧ Balanced block
  closedWithin : ∀ k, Balanced (first.upTo k) ∧ Balanced (first.lines ++ [""] ++ second.upTo k) ∧
    Balanced (first.lines ++ [""] ++ second.lines ++ third.upTo k)
  makingBeacons : block.filter (fun line => MakesBeacon line) = g.nodes.toList.map sproutLine
  beaconsWithin : ∀ line ∈ first.lines ++ third.lines, ¬ MakesBeacon line
  makingStreets : block.filter (fun line => MakesStreet line) =
    g.edges.toList.map fun e => targetLine e.directed (g.positionOf e.target)
  streetsWithin : ∀ line ∈ first.lines ++ second.lines, ¬ MakesStreet line

section
variable {first second third : Procedure} {name name' name'' : String} (h : first.Proper name) (h' : second.Proper name')
  (h'' : third.Proper name'')
include h h' h''

theorem oneLine_joined : ∀ line ∈ joined first second third, '\n' ∉ line.toList := by
  intro line hl
  simp only [joined, List.mem_append, List.mem_singleton] at hl
  rcases hl with ((hl | rfl) | hl) | hl
  · exact (h.spelled line hl).oneLine
  · decide
  · exact (h'.spelled line hl).oneLine
  · exact (h''.spelled line hl).oneLine

theorem balanced_joined : Balanced first.lines ∧ Balanced (first.lines ++ [""] ++ second.lines) ∧
    Balanced (joined first second third) := by
  have hblank : Balanced [""] := by decide
  have hsecond := (h.balanced_lines.append hblank).append h'.balanced_lines
  exact ⟨h.balanced_lines, hsecond, hsecond.append h''.balanced_lines⟩

theorem balanced_upTo (k : Nat) : Balanced (first.upTo k) ∧ Balanced (first.lines ++ [""] ++ second.upTo k) ∧
    Balanced (first.lines ++ [""] ++ second.lines ++ third.upTo k) := by
  have hblank : Balanced [""] := by decide
  obtain ⟨hfirst, hsecond, -⟩ := balanced_joined h h' h''
  exact ⟨h.balanced_upTo k, (hfirst.append hblank).append (h'.balanced_upTo k), hsecond.append (h''.balanced_upTo k)⟩

end

/-- Lines of some sort that only one of three procedures has. -/
theorem filter_joined {q : String → Prop} [DecidablePred q] {first second third : Procedure} (hblank : ¬ q "")
    (hfirst : ∀ line ∈ first.lines, ¬ q line) :
    (joined first second third).filter (fun line => q line) =
      second.lines.filter (fun line => q line) ++ third.lines.filter fun line => q line := by
  have hnil : (first.lines ++ [""]).filter (fun line => q line) = [] := by
    refine List.filter_eq_nil_iff.2 fun line hl => ?_
    rw [decide_eq_true_eq]
    rcases List.mem_append.1 hl with hl | hl
    · exact hfirst line hl
    · exact List.mem_singleton.1 hl ▸ hblank
  rw [joined, List.append_assoc, List.filter_append, hnil, List.nil_append, List.filter_append]

/-- The first procedure; each of its commands has one line. -/
def worldProcedure (g : Graph) : Procedure := ⟨"to generate-map", (worldBody g).map fun line => [line], "end "⟩

/-- The second procedure. -/
def beaconProcedure (g : Graph) : Procedure := ⟨"to generate-beacons", g.nodes.toList.map nodeLines, "end"⟩

/-- The third procedure. -/
def streetProcedure (g : Graph) : Procedure :=
  ⟨"to connect-beacons", g.edges.toList.map fun e => streetLines e (g.positionOf e.source) (g.positionOf e.target), "end"⟩

theorem worldProcedure_lines (g : Graph) : (worldProcedure g).lines = worldLines g := rfl

theorem beaconProcedure_lines (g : Graph) : (beaconProcedure g).lines = beaconLines g := by
  rw [beaconLines, List.flatMap_def]
  rfl

theorem streetProcedure_lines (g : Graph) :
    (streetProcedure g).lines = ["to connect-beacons"] ++ g.streets ++ ["end"] := by
  rw [Graph.streets, List.flatMap_def]
  rfl

theorem cons_bodyNames_subset {name : String} (h : name ∈ makingNames) : name :: bodyNames ⊆ makingNames ++ bodyNames :=
  List.cons_subset.2 ⟨List.mem_append_left _ h, List.subset_append_right _ _⟩

/-- The line has these words, and no bracket or command. -/
def Frames (line : String) (keywords : List String) : Prop :=
  words line = keywords ∧ Closed line ∧ Checked scriptNames line ∧ ¬ MakesBeacon line ∧ ¬ MakesStreet line

instance (line : String) (keywords : List String) : Decidable (Frames line keywords) :=
  inferInstanceAs (Decidable (words line = keywords ∧ Closed line ∧ Checked scriptNames line ∧ ¬ MakesBeacon line ∧
    ¬ MakesStreet line))

/-- A procedure between lines that mark its ends, whose statements are balanced and use the names of a script. -/
theorem Procedure.proper {p : Procedure} {name : String} (hopening : Frames p.opening ["to", name])
    (hclosing : Frames p.closing ["end"]) (hstatements : ∀ statement ∈ p.statements, Balanced statement ∧
      ∀ line ∈ statement, Spelled (makingNames ++ bodyNames) line) : p.Proper name where
  opening := hopening.1
  closing := hclosing.1
  inside line hl := by
    obtain ⟨statement, hstatement, hl⟩ := List.mem_flatten.1 hl
    exact ((hstatements statement hstatement).2 line hl).not_keyword (List.Subset.refl _)
  balanced := by
    refine ⟨balanced_of_closed ?_, fun statement hs => (hstatements statement hs).1, balanced_of_closed ?_⟩ <;>
      rw [List.forall_mem_singleton]
    · exact hopening.2.1
    · exact hclosing.2.1
  spelled := Procedure.forall_lines hopening.2.2.1.spelled
    (fun statement hs line hl => ((hstatements statement hs).2 line hl).mono (List.subset_append_right _ _))
    hclosing.2.2.1.spelled

end Script

namespace Graph

theorem frames_world : Frames "to generate-map" ["to", "generate-map"] ∧ Frames "end " ["end"] := by decide +kernel

theorem frames_beacons : Frames "to generate-beacons" ["to", "generate-beacons"] := by decide +kernel

theorem frames_streets : Frames "to connect-beacons" ["to", "connect-beacons"] := by decide +kernel

theorem frames_end : Frames "end" ["end"] := by decide +kernel

theorem world_proper (g : Graph) : (worldProcedure g).Proper "generate-map" := by
  refine Procedure.proper frames_world.1 frames_world.2 fun statement hs => ?_
  obtain ⟨line, hl, rfl⟩ := List.mem_map.1 hs
  have hsetting := setting_worldBody g line hl
  refine ⟨balanced_of_closed ?_, ?_⟩ <;> rw [List.forall_mem_singleton]
  · exact hsetting.closed
  · exact hsetting.spelled.mono (List.subset_append_right _ _)

/-- The first procedure makes neither beacons nor streets. -/
theorem world_makes_none (g : Graph) : ∀ line ∈ (worldProcedure g).lines, ¬ MakesBeacon line ∧ ¬ MakesStreet line := by
  refine Procedure.forall_lines frames_world.1.2.2.2 (fun statement hs line hl => ?_) frames_world.2.2.2.2
  obtain ⟨command, hcommand, rfl⟩ := List.mem_map.1 hs
  obtain rfl := List.mem_singleton.1 hl
  exact makes_none (setting_worldBody g line hcommand).spelled

variable {g : Graph} (hg : g.Made)
include hg

theorem Made.beacons_proper : (beaconProcedure g).Proper "generate-beacons" := by
  refine Procedure.proper frames_beacons frames_end fun statement hs => ?_
  obtain ⟨n, hn, rfl⟩ := List.mem_map.1 hs
  have hfinite := hg.finiteNumbers (Array.mem_toList_iff.1 hn)
  exact ⟨balanced_nodeLines hfinite, fun line hl =>
    (spelled_nodeLines hfinite line hl).mono (cons_bodyNames_subset (by decide))⟩

theorem Made.beacons_make_no_street : ∀ line ∈ (beaconProcedure g).lines, ¬ MakesStreet line := by
  refine Procedure.forall_lines frames_beacons.2.2.2.2 (fun statement hs line hl => ?_) frames_end.2.2.2.2
  obtain ⟨n, hn, rfl⟩ := List.mem_map.1 hs
  exact not_makesStreet (spelled_nodeLines (hg.finiteNumbers (Array.mem_toList_iff.1 hn)) line hl)

theorem Made.filter_makesBeacon :
    (beaconProcedure g).lines.filter (fun line => MakesBeacon line) = g.nodes.toList.map sproutLine := by
  rw [Procedure.filter_lines (decide_eq_false frames_beacons.2.2.2.1) (decide_eq_false frames_end.2.2.2.1),
    beaconProcedure, List.flatMap_map, List.map_eq_flatMap]
  refine List.flatMap_congr fun n hn => ?_
  exact filter_makesBeacon_nodeLines (hg.finiteNumbers (Array.mem_toList_iff.1 hn))

theorem Made.streets_proper : (streetProcedure g).Proper "connect-beacons" := by
  refine Procedure.proper frames_streets frames_end fun statement hs => ?_
  obtain ⟨e, he, rfl⟩ := List.mem_map.1 hs
  have hfinite := (hg.sound.streets e (Array.mem_toList_iff.1 he)).2.1
  exact ⟨balanced_streetLines hfinite _ _, fun line hl =>
    (spelled_streetLines hfinite _ _ line hl).mono (cons_bodyNames_subset (streetCommand_mem e.directed))⟩

theorem Made.streets_make_no_beacon : ∀ line ∈ (streetProcedure g).lines, ¬ MakesBeacon line := by
  refine Procedure.forall_lines frames_streets.2.2.2.1 (fun statement hs line hl => ?_) frames_end.2.2.2.1
  obtain ⟨e, he, rfl⟩ := List.mem_map.1 hs
  exact not_makesBeacon (spelled_streetLines (hg.sound.streets e (Array.mem_toList_iff.1 he)).2.1 _ _ line hl)

theorem Made.filter_makesStreet : (streetProcedure g).lines.filter (fun line => MakesStreet line) =
    g.edges.toList.map fun e => targetLine e.directed (g.positionOf e.target) := by
  rw [Procedure.filter_lines (decide_eq_false frames_streets.2.2.2.2) (decide_eq_false frames_end.2.2.2.2),
    streetProcedure, List.flatMap_map, List.map_eq_flatMap]
  refine List.flatMap_congr fun e he => ?_
  exact filter_makesStreet_streetLines (hg.sound.streets e (Array.mem_toList_iff.1 he)).2.1 _ _

theorem Made.makingBeacons : (joined (worldProcedure g) (beaconProcedure g) (streetProcedure g)).filter
    (fun line => MakesBeacon line) = g.nodes.toList.map sproutLine := by
  have hstreets : (streetProcedure g).lines.filter (fun line => MakesBeacon line) = [] :=
    List.filter_eq_nil_iff.2 fun line hl => by simpa using hg.streets_make_no_beacon line hl
  rw [filter_joined (by decide +kernel) fun line hl => (world_makes_none g line hl).1, hg.filter_makesBeacon, hstreets,
    List.append_nil]

theorem Made.makingStreets : (joined (worldProcedure g) (beaconProcedure g) (streetProcedure g)).filter
    (fun line => MakesStreet line) = g.edges.toList.map fun e => targetLine e.directed (g.positionOf e.target) := by
  have hbeacons : (beaconProcedure g).lines.filter (fun line => MakesStreet line) = [] :=
    List.filter_eq_nil_iff.2 fun line hl => by simpa using hg.beacons_make_no_street line hl
  rw [filter_joined (by decide +kernel) fun line hl => (world_makes_none g line hl).2, hg.filter_makesStreet, hbeacons,
    List.nil_append]

theorem Made.wellFormed : WellFormed (joined (worldProcedure g) (beaconProcedure g) (streetProcedure g))
    (worldProcedure g) (beaconProcedure g) (streetProcedure g) g where
  lines := rfl
  world := world_proper g
  beacons := hg.beacons_proper
  streets := hg.streets_proper
  nodes := rfl
  edges := rfl
  oneLine := oneLine_joined (world_proper g) hg.beacons_proper hg.streets_proper
  nested front hfront := by
    have hall := (balanced_joined (world_proper g) hg.beacons_proper hg.streets_proper).2.2
    exact ⟨hall.count_le hfront rfl, hall.count_le hfront rfl⟩
  closed := balanced_joined (world_proper g) hg.beacons_proper hg.streets_proper
  closedWithin := balanced_upTo (world_proper g) hg.beacons_proper hg.streets_proper
  makingBeacons := hg.makingBeacons
  beaconsWithin line hl := by
    rcases List.mem_append.1 hl with hl | hl
    · exact (world_makes_none g line hl).1
    · exact hg.streets_make_no_beacon line hl
  makingStreets := hg.makingStreets
  streetsWithin line hl := by
    rcases List.mem_append.1 hl with hl | hl
    · exact (world_makes_none g line hl).2
    · exact hg.beacons_make_no_street line hl

/-- Every graph that a builder made has a block, and it is well-formed: three procedures, the first to size the world,
one statement for each node in the second and one for each edge in the third. -/
theorem mapBlock_wellFormed : ∃ block first second third, g.mapBlock = .ok block ∧
    WellFormed block first second third g := by
  have hlines := hg.mapBlock_eq
  rw [← worldProcedure_lines, ← beaconProcedure_lines, ← streetProcedure_lines] at hlines
  exact ⟨_, worldProcedure g, beaconProcedure g, streetProcedure g, hlines, hg.wellFormed⟩

omit hg in
/-- The block of a crossing, in the run that builds it, has three lines that make a beacon and two that make a street. -/
theorem mapBlock_wellFormed_crossing :
    ∃ g : Graph, (Call.runAll (Call.crossing.take 12) {}).2.product = some g ∧ g.Made ∧
      ∃ block first second third, g.mapBlock = .ok block ∧ WellFormed block first second third g ∧
        (block.filter fun line => MakesBeacon line).length = 3 ∧
          (block.filter fun line => MakesStreet line).length = 2 := by
  obtain ⟨g, hg⟩ : ∃ g, (Call.runAll (Call.crossing.take 12) {}).2.product = some g :=
    Option.isSome_iff_exists.1 (by decide +kernel)
  have hmade : g.Made := ⟨_, .inl hg⟩
  have hsizes : (Call.runAll (Call.crossing.take 12) {}).2.product.map (fun g => (g.nodes.size, g.edges.size)) =
      some (3, 2) := by decide +kernel
  rw [hg, Option.map_some, Option.some.injEq, Prod.mk.injEq] at hsizes
  obtain ⟨block, first, second, third, hblock, hformed⟩ := mapBlock_wellFormed hmade
  refine ⟨g, hg, hmade, block, first, second, third, hblock, hformed, ?_, ?_⟩
  · rw [hformed.makingBeacons, List.length_map, Array.length_toList]
    exact hsizes.1
  · rw [hformed.makingStreets, List.length_map, Array.length_toList]
    exact hsizes.2

end Graph

end BeaconMap
