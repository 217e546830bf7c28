import BeaconMap.Proofs.Script.Block
import BeaconMap.Proofs.Script.Patches
/-!
# The parts of a block fit together

A block is read as text: `procedure` finds the lines of a procedure, `sproutLines` those that sprout a beacon. In the
block of a graph that a builder made (`mapBlock_coherent`), every patch that the streets name is sprouted by one line,
no patch is sprouted twice, and no named patch lies beyond the extents that the header prints, so that the resized world
has room for all of them.
-/

namespace BeaconMap

open Script

/-! ## The largest coordinates -/

instance lawfulOrderMax_int32 : Std.LawfulOrderMax Int32 where
  max_le_iff a b c := by
    simp only [Max.max, Int32.le_iff_toInt_le]
    split <;> omega
  max_eq_or a b := by
    simp only [Max.max]
    split <;> simp

/-- The largest of some numbers, 0 when there is none. -/
theorem getD_max?_spec (l : List Int32) : (∀ a ∈ l, a ≤ l.max?.getD 0) ∧ (l.max?.getD 0 ∈ l ∨ l = []) := by
  cases h : l.max? with
  | none =>
    obtain rfl := List.max?_eq_none_iff.1 h
    exact ⟨fun a ha => absurd ha List.not_mem_nil, .inr rfl⟩
  | some m =>
    obtain ⟨hm, hle⟩ := List.max?_eq_some_iff.1 h
    exact ⟨hle, .inl hm⟩

namespace Graph

variable (g : Graph)

/-- The extents are those of the nodes that lie furthest to the east and to the north. -/
theorem extents_spec :
    (∀ n ∈ g.nodes, n.position.x ≤ g.maxEast ∧ n.position.y ≤ g.maxNorth) ∧
      ((∃ n ∈ g.nodes, n.position.x = g.maxEast) ∧ (∃ n ∈ g.nodes, n.position.y = g.maxNorth) ∨
        g.nodes = #[] ∧ g.maxEast = 0 ∧ g.maxNorth = 0) := by
  obtain ⟨heast, hx⟩ := getD_max?_spec (g.nodes.toList.map (·.position.x))
  obtain ⟨hnorth, hy⟩ := getD_max?_spec (g.nodes.toList.map (·.position.y))
  refine ⟨fun n hn => ?_, ?_⟩
  · have hn' := Array.mem_toList_iff.2 hn
    exact ⟨heast _ (List.mem_map_of_mem hn'), hnorth _ (List.mem_map_of_mem hn')⟩
  · by_cases hempty : g.nodes = #[]
    · exact .inr ⟨hempty, by rw [maxEast, hempty]; rfl, by rw [maxNorth, hempty]; rfl⟩
    · left
      rw [List.map_eq_nil_iff, Array.toList_eq_nil_iff, or_iff_left hempty, List.mem_map] at hx hy
      obtain ⟨m, hm, hmx⟩ := hx
      obtain ⟨n, hn, hny⟩ := hy
      exact ⟨⟨m, Array.mem_toList_iff.1 hm, hmx⟩, ⟨n, Array.mem_toList_iff.1 hn, hny⟩⟩

end Graph

namespace Script

/-! ## Reading a block -/

/-- The lines between a header and the next line that ends a procedure. -/
def procedure (header : String) (block : List String) : List String :=
  ((block.dropWhile (· ≠ header)).drop 1).takeWhile fun line => line ≠ "end" ∧ line ≠ "end "

/-- The line asks for one beacon. -/
def Sprouting (line : String) : Prop :=
  "  ask ".toList <+: line.toList ∧ " [sprout-beacons 1 [".toList <:+ line.toList

instance (line : String) : Decidable (Sprouting line) :=
  inferInstanceAs (Decidable ("  ask ".toList <+: line.toList ∧ " [sprout-beacons 1 [".toList <:+ line.toList))

/-- The lines that sprout a beacon. -/
def sproutLines (block : List String) : List String :=
  (procedure "to generate-beacons" block).filter fun line => Sprouting line

/-- The sprout line at a place names this patch. -/
def SproutsAt (block : List String) (i : Nat) (x y : Int) : Prop :=
  ∃ line, (sproutLines block)[i]? = some line ∧ Names line x y

/-- The header sizes the world with these extents. -/
def Sizes (block : List String) (w h : Int) : Prop :=
  block.take 4 = ["to generate-map", "  let new-world-width 2 * world-offset + " ++ w.repr,
    "  let new-world-height 2 * world-offset + " ++ h.repr, "  resize-world 0 new-world-width 0 new-world-height"]

theorem Sizes.unique {block : List String} {w h w' h' : Int} (hs : Sizes block w h) (hs' : Sizes block w' h') :
    w = w' ∧ h = h' := by
  have heq := hs.symm.trans hs'
  simp only [List.cons.injEq, String.append_right_inj, Int.repr_inj, and_true, true_and] at heq
  exact heq

/-- The parts of a block fit together. -/
structure Coherent (block : List String) (w h : Int) : Prop where
  sizes : Sizes block w h
  /-- A street is between patches that are sprouted, each by one line. -/
  sprouted : ∀ line ∈ procedure "to connect-beacons" block, ∀ x y, Names line x y → ∃! i, SproutsAt block i x y
  once : ∀ i j x y, SproutsAt block i x y → SproutsAt block j x y → i = j
  within : ∀ line ∈ block, ∀ x y, Names line x y → x ≤ w ∧ y ≤ h

/-- A block shows a graph: the sprout lines are of its nodes in order, each edge has the lines for its two ends, every
patch is that of a node, and the extents are those of the outermost nodes. -/
structure Shows (block : List String) (w h : Int) (g : Graph) : Prop where
  sprouts : ∀ i x y, SproutsAt block i x y ↔ ∃ n, g.nodes[i]? = some n ∧ n.position.At x y
  ends : ∀ e ∈ g.edges, ∃ m ∈ g.nodes, ∃ n ∈ g.nodes, m.id = e.source ∧ n.id = e.target ∧
    ∃ first second, [first, second] <:+: procedure "to connect-beacons" block ∧
      Names first m.position.x.toInt m.position.y.toInt ∧ Names second n.position.x.toInt n.position.y.toInt
  named : ∀ line ∈ block, ∀ x y, Names line x y → ∃ n ∈ g.nodes, n.position.At x y
  extents : (∃ n ∈ g.nodes, n.position.x.toInt = w) ∧ (∃ n ∈ g.nodes, n.position.y.toInt = h) ∨
    g.nodes = #[] ∧ w = 0 ∧ h = 0

/-! ## Where a procedure stands -/

/-- The line belongs to a body. -/
def Indented (line : String) : Prop := "  ".toList <+: line.toList

instance (line : String) : Decidable (Indented line) := inferInstanceAs (Decidable ("  ".toList <+: line.toList))

theorem indented_append {a : String} (h : Indented a) (b : String) : Indented (a ++ b) := prefix_append h b

theorem indented_nodeLines (n : Node) : ∀ line ∈ nodeLines n, Indented line := by
  intro line h
  rw [nodeLines_eq] at h
  rcases List.mem_append.1 h with h | h
  · rcases prefix_openLines n line h with h | h
    · exact List.IsPrefix.trans (by decide) h
    · exact List.IsPrefix.trans (by decide) h
  · fin_cases h
    decide

theorem indented_streetLines (e : Edge) (c d : Coordinate) : ∀ line ∈ streetLines e c d, Indented line := by
  intro line h
  fin_cases h
  · exact indented_append (indented_append (by decide) _) _
  · exact indented_append (indented_append (indented_append (indented_append (by decide) _) _) _) _
  · exact indented_append (by decide) _
  · exact indented_append (indented_append (by decide) _) _

/-- A procedure is found behind the first line that is its header. -/
theorem procedure_eq {header : String} {front body rest : List String} (hheader : header ∉ front)
    (hbody : ∀ line ∈ body, Indented line) :
    procedure header (front ++ header :: (body ++ "end" :: rest)) = body := by
  have hfront : ∀ line ∈ front, decide (line ≠ header) = true := by
    intro line hl
    rw [decide_eq_true_eq]
    rintro rfl
    exact hheader hl
  have hopen : ∀ line ∈ body, decide (line ≠ "end" ∧ line ≠ "end ") = true := by
    intro line hl
    rw [decide_eq_true_eq]
    constructor
    · rintro rfl
      exact absurd (hbody _ hl) (by decide)
    · rintro rfl
      exact absurd (hbody _ hl) (by decide)
  rw [procedure, List.dropWhile_append_of_pos hfront, List.dropWhile_cons_of_neg (by simp), List.drop_one,
    List.tail_cons, List.takeWhile_append_of_pos hopen, List.takeWhile_cons_of_neg (by simp), List.append_nil]

/-- The first procedure has no header but its own. -/
theorem not_mem_worldLines (g : Graph) {header : String} (hi : ¬ Indented header) (hfirst : header ≠ "to generate-map")
    (hlast : header ≠ "end ") : header ∉ worldLines g := by
  intro h
  fin_cases h
  · exact hfirst rfl
  · exact hi (indented_append (by decide) _)
  · exact hi (indented_append (by decide) _)
  all_goals first | exact hi (by decide) | exact hlast rfl

theorem plain_worldLines (g : Graph) : ∀ line ∈ worldLines g, Plain line := by
  have hframe : Plain "to generate-map" ∧ Plain "end " := by decide
  intro line h
  rw [worldLines_eq] at h
  rcases List.mem_cons.1 h with rfl | h
  · exact hframe.1
  rcases List.mem_append.1 h with h | h
  · exact (setting_worldBody g line h).plain
  · exact List.mem_singleton.1 h ▸ hframe.2

/-- Of the lines of a beacon only the first sprouts it. -/
theorem filter_nodeLines (n : Node) : (nodeLines n).filter (fun line => Sprouting line) = [sproutLine n] := by
  have hfurther : ∀ line ∈ furtherLines n, ¬ Sprouting line := by
    rintro line hl ⟨hask, -⟩
    -- They stand further in than a line that asks, or close the beacon.
    have hfar : ¬ "   ".toList <+: line.toList := by
      intro hfar
      exact absurd (List.prefix_of_prefix_length_le hfar hask (by decide)) (by decide)
    rcases List.mem_append.1 hl with hl | hl
    · rcases List.mem_append.1 hl with hl | hl
      · fin_cases hl <;> exact hfar (prefix_append (by decide) _)
      · exact hfar (indented_kindLines _ _ hl)
    · fin_cases hl
      exact absurd hask (by decide)
  have hfirst : Sprouting (sproutLine n) := by
    refine ⟨prefix_append (prefix_append (List.prefix_refl _) _) _, ?_⟩
    rw [sproutLine, String.toList_append]
    exact List.suffix_append _ _
  rw [nodeLines_eq_cons, List.filter_cons, if_pos (decide_eq_true hfirst), List.filter_eq_nil_iff.2]
  simpa using hfurther

end Script

/-! ## The block of a graph -/

namespace Graph

section
variable {g : Graph} (hg : g.Made)
include hg

/-- The streets name the patches of nodes only. -/
theorem Made.names_streets {line : String} (hl : line ∈ g.streets) {x y : Int} (hn : Names line x y) :
    ∃ n ∈ g.nodes, n.position.At x y := by
  obtain ⟨e, he, hl⟩ := List.mem_flatMap.1 hl
  have he := Array.mem_toList_iff.1 he
  obtain ⟨⟨m, hm, hsource⟩, ⟨n, hn', htarget⟩⟩ := hg.sound.ends e he
  rw [← hsource, ← htarget, hg.indexed.positionOf_id hm, hg.indexed.positionOf_id hn'] at hl
  rcases names_streetLines (hg.sound.streets e he).2.1 hl hn with hat | hat
  · exact ⟨m, hm, hat⟩
  · exact ⟨n, hn', hat⟩

/-- The lines for the two ends of an edge stand next to each other. -/
theorem Made.ends_named {e : Edge} (he : e ∈ g.edges) : ∃ m ∈ g.nodes, ∃ n ∈ g.nodes, m.id = e.source ∧ n.id = e.target ∧
    [sourceLine m.position, targetLine e.directed n.position] <:+: g.streets := by
  obtain ⟨⟨m, hm, hsource⟩, ⟨n, hn, htarget⟩⟩ := hg.sound.ends e he
  refine ⟨m, hm, n, hn, hsource, htarget, ?_⟩
  have hlines : streetLines e m.position n.position <:+: g.streets := by
    rw [streets, List.flatMap_def, ← hg.indexed.positionOf_id hm, ← hg.indexed.positionOf_id hn, hsource, htarget]
    exact List.infix_of_mem_flatten (List.mem_map_of_mem (Array.mem_toList_iff.2 he))
  rw [streetLines_eq] at hlines
  exact List.IsInfix.trans (List.prefix_append [_, _] [_, _]).isInfix hlines

section
variable {block : List String} (hblock : g.mapBlock = .ok block)
include hblock

theorem Made.procedure_beacons : procedure "to generate-beacons" block = g.nodes.toList.flatMap nodeLines := by
  have hshape : block = (worldLines g ++ [""]) ++ "to generate-beacons" ::
      (g.nodes.toList.flatMap nodeLines ++ "end" :: ("to connect-beacons" :: (g.streets ++ ["end"]))) := by
    rw [← Except.ok.inj (hg.mapBlock_eq.symm.trans hblock)]
    simp only [beaconLines, List.append_assoc, List.cons_append, List.nil_append]
  have hheader : "to generate-beacons" ∉ worldLines g ++ [""] := by
    rw [List.mem_append, not_or]
    exact ⟨not_mem_worldLines g (by decide) (by decide) (by decide), by decide⟩
  have hbody : ∀ line ∈ g.nodes.toList.flatMap nodeLines, Indented line := by
    rw [List.forall_mem_flatMap]
    exact fun n _ => indented_nodeLines n
  rw [hshape]
  exact procedure_eq hheader hbody

theorem Made.procedure_streets : procedure "to connect-beacons" block = g.streets := by
  have hshape : block = (worldLines g ++ [""] ++ beaconLines g) ++ "to connect-beacons" :: (g.streets ++ ["end"]) := by
    rw [← Except.ok.inj (hg.mapBlock_eq.symm.trans hblock)]
    simp only [List.append_assoc, List.cons_append, List.nil_append]
  have hheader : "to connect-beacons" ∉ worldLines g ++ [""] ++ beaconLines g := by
    have hnodes : "to connect-beacons" ∉ g.nodes.toList.flatMap nodeLines := by
      intro h
      obtain ⟨n, -, hn⟩ := List.mem_flatMap.1 h
      exact absurd (indented_nodeLines n _ hn) (by decide)
    simp only [beaconLines, List.mem_append, not_or]
    exact ⟨⟨not_mem_worldLines g (by decide) (by decide) (by decide), by decide⟩, ⟨by decide, hnodes⟩, by decide⟩
  have hbody : ∀ line ∈ g.streets, Indented line := by
    rw [streets, List.forall_mem_flatMap]
    exact fun e _ => indented_streetLines e _ _
  rw [hshape]
  exact procedure_eq hheader hbody

theorem Made.sproutLines_eq : sproutLines block = g.nodes.toList.map sproutLine := by
  rw [sproutLines, hg.procedure_beacons hblock, List.filter_flatMap]
  simp only [filter_nodeLines]
  exact List.map_eq_flatMap.symm

theorem Made.sproutsAt_iff (i : Nat) (x y : Int) :
    SproutsAt block i x y ↔ ∃ n, g.nodes[i]? = some n ∧ n.position.At x y := by
  rw [SproutsAt, hg.sproutLines_eq hblock]
  simp only [List.getElem?_map, Array.getElem?_toList, Option.map_eq_some_iff]
  constructor
  · rintro ⟨_, ⟨n, hn, rfl⟩, hnames⟩
    exact ⟨n, hn, (names_sproutLine_iff n x y).1 hnames⟩
  · rintro ⟨n, hn, hat⟩
    exact ⟨_, ⟨n, hn, rfl⟩, (names_sproutLine_iff n x y).2 hat⟩

/-- The whole block names the patches of nodes only. -/
theorem Made.names_block {line : String} (hl : line ∈ block) {x y : Int} (hn : Names line x y) :
    ∃ n ∈ g.nodes, n.position.At x y := by
  have hplain (h : Plain line) : ∃ n ∈ g.nodes, n.position.At x y := absurd hn (not_names_of_plain h x y)
  obtain rfl := Except.ok.inj (hg.mapBlock_eq.symm.trans hblock)
  simp only [beaconLines, List.mem_append, List.mem_singleton, List.mem_flatMap] at hl
  -- The first procedure and an empty line, then the beacons and then the streets between their header and their end.
  rcases hl with ((hworld | rfl) | ((rfl | ⟨n, hn', hl⟩) | rfl)) | ((rfl | hl) | rfl)
  · exact hplain (plain_worldLines g line hworld)
  · exact hplain (by decide)
  · exact hplain (by decide)
  · have hn' := Array.mem_toList_iff.1 hn'
    exact ⟨n, hn', names_nodeLines (hg.finiteNumbers hn') hl hn⟩
  · exact hplain (by decide)
  · exact hplain (by decide)
  · exact hg.names_streets hl hn
  · exact hplain (by decide)

theorem Made.shows : Shows block g.maxEast.toInt g.maxNorth.toInt g where
  sprouts := hg.sproutsAt_iff hblock
  ends e he := by
    obtain ⟨m, hm, n, hn, hsource, htarget, hlines⟩ := hg.ends_named he
    rw [hg.procedure_streets hblock]
    exact ⟨m, hm, n, hn, hsource, htarget, _, _, hlines, (names_sourceLine_iff ..).2 ⟨rfl, rfl⟩,
      (names_targetLine_iff ..).2 ⟨rfl, rfl⟩⟩
  named _ hl _ _ hn := hg.names_block hblock hl hn
  extents := by
    rcases g.extents_spec.2 with ⟨⟨m, hm, heast⟩, n, hn, hnorth⟩ | ⟨hempty, heast, hnorth⟩
    · exact .inl ⟨⟨m, hm, congrArg Int32.toInt heast⟩, n, hn, congrArg Int32.toInt hnorth⟩
    · exact .inr ⟨hempty, congrArg Int32.toInt heast, congrArg Int32.toInt hnorth⟩

/-- No two sprout lines name one patch, since no two nodes stand at one coordinate. -/
theorem Made.sprouts_once {i j : Nat} {x y : Int} (hi : SproutsAt block i x y) (hj : SproutsAt block j x y) : i = j := by
  obtain ⟨m, hm, hmx, hmy⟩ := (hg.sproutsAt_iff hblock i x y).1 hi
  obtain ⟨n, hn, hnx, hny⟩ := (hg.sproutsAt_iff hblock j x y).1 hj
  refine hg.indexed.byCoordinate.place_unique hm hn ?_
  exact Coordinate.at_unique ⟨hmx, hmy⟩ ⟨hnx, hny⟩

theorem Made.coherent : Coherent block g.maxEast.toInt g.maxNorth.toInt where
  sizes := by
    rw [Sizes, ← Except.ok.inj (hg.mapBlock_eq.symm.trans hblock)]
    rfl
  sprouted line hl x y hnames := by
    rw [hg.procedure_streets hblock] at hl
    obtain ⟨n, hn, hat⟩ := hg.names_streets hl hnames
    -- The end of a street is a node, and the sprout lines are in the order of the nodes.
    obtain ⟨i, hi⟩ := Array.mem_iff_getElem?.1 hn
    have hsprouts : SproutsAt block i x y := (hg.sproutsAt_iff hblock i x y).2 ⟨n, hi, hat⟩
    exact ⟨i, hsprouts, fun j hj => hg.sprouts_once hblock hj hsprouts⟩
  once _ _ _ _ hi hj := hg.sprouts_once hblock hi hj
  within _ hl _ _ hnames := by
    obtain ⟨n, hn, rfl, rfl⟩ := hg.names_block hblock hl hnames
    obtain ⟨heast, hnorth⟩ := g.extents_spec.1 n hn
    exact ⟨Int32.le_iff_toInt_le.1 heast, Int32.le_iff_toInt_le.1 hnorth⟩

end

/-- The block of a graph that a builder made fits together and shows the graph. With an offset that leaves no node
outside the world to the west or the south, every named patch lies in the resized world. -/
theorem mapBlock_coherent : ∃ block w h, g.mapBlock = .ok block ∧ Coherent block w h ∧ Shows block w h g ∧
    ∀ offset : Int, 0 ≤ offset →
      (∀ n ∈ g.nodes, 0 ≤ offset + n.position.x.toInt ∧ 0 ≤ offset + n.position.y.toInt) →
        ∀ line ∈ block, ∀ x y, Names line x y →
          (0 ≤ offset + x ∧ offset + x ≤ 2 * offset + w) ∧ (0 ≤ offset + y ∧ offset + y ≤ 2 * offset + h) := by
  have hblock := hg.mapBlock_eq
  refine ⟨_, _, _, hblock, hg.coherent hblock, hg.shows hblock, fun offset hoffset hinside line hl x y hnames => ?_⟩
  obtain ⟨hx, hy⟩ := (hg.coherent hblock).within line hl x y hnames
  obtain ⟨n, hn, rfl, rfl⟩ := hg.names_block hblock hl hnames
  obtain ⟨hwest, hsouth⟩ := hinside n hn
  omega

end

/-- A street between two corners of the grid, from the far west to the far south. -/
def corners : List Call :=
  [.start, .regularNode (.at (-2147483648) 7), .exitPoint (.at (-3) (-2147483648)) (.ofNat 1),
    .street true ⟨-2147483648, 7⟩ ⟨-3, -2147483648⟩ 1 (.ofNat 4)]

/-- The world of the corners ends at -3 and 7, and the offset that suits every coordinate has all named patches in it. -/
theorem mapBlock_coherent_corners :
    ∃ g : Graph, (Call.runAll corners {}).2.product = some g ∧ g.Made ∧ ∃ block, g.mapBlock = .ok block ∧
      Coherent block (-3) 7 ∧ Shows block (-3) 7 g ∧
      ∀ line ∈ block, ∀ x y, Names line x y →
        (0 ≤ 2147483648 + x ∧ x ≤ 2147483645) ∧ (0 ≤ 2147483648 + y ∧ y ≤ 2147483655) := by
  obtain ⟨g, hg⟩ : ∃ g, (Call.runAll corners {}).2.product = some g :=
    Option.isSome_iff_exists.1 (by decide +kernel)
  have hmade : g.Made := ⟨_, .inl hg⟩
  obtain ⟨block, w, h, hblock, hcoherent, hshows, hworld⟩ := mapBlock_coherent hmade
  have hprinted : (Call.runAll corners {}).2.product.map (fun g => g.mapBlock.toOption.map (List.take 4)) =
      some (some ["to generate-map", "  let new-world-width 2 * world-offset + " ++ (-3 : Int).repr,
        "  let new-world-height 2 * world-offset + " ++ (7 : Int).repr,
        "  resize-world 0 new-world-width 0 new-world-height"]) := by decide +kernel
  rw [hg, Option.map_some, hblock] at hprinted
  have hsizes : Sizes block (-3) 7 := Option.some.inj (Option.some.inj hprinted)
  obtain ⟨rfl, rfl⟩ := hcoherent.sizes.unique hsizes
  refine ⟨g, hg, hmade, block, hblock, hcoherent, hshows, fun line hl x y hn => ?_⟩
  have hinside := hworld 2147483648 (by decide) (fun n _ => by
    have hx := n.position.x.le_toInt
    have hy := n.position.y.le_toInt
    omega) line hl x y hn
  omega

end Graph

end BeaconMap
