import BeaconMap.Proofs.Script.Words
/-!
# Brackets

A text is read character by character with the brackets that are open (`openAfter`); the reading fails where a bracket
is closed that is not the innermost open one. What a text does to the brackets it opens itself does not depend on those
around it (`openAfter_append_right`), so balanced texts can stand next to each other and inside one another. The lines
of a script are balanced but for those that begin or end a beacon or a street: each of these opens two square brackets
and closes them a few lines later.
-/

namespace BeaconMap

namespace Script

/-! ## Reading brackets -/

/-- The bracket that a closing bracket closes. -/
def opener : Char → Option Char
  | ']' => some '['
  | ')' => some '('
  | _ => none

/-- The brackets that are open after one more character, the innermost first. -/
def bracketStep (opened : List Char) (c : Char) : Option (List Char) :=
  if c = '[' ∨ c = '(' then some (c :: opened)
  else
    match opener c with
    | none => some opened
    | some bracket => if opened.head? = some bracket then some opened.tail else none

/-- The brackets that are open after a text, the innermost first; none when a bracket is closed that is not the
innermost open one. -/
def openAfter (opened text : List Char) : Option (List Char) := text.foldlM bracketStep opened

theorem openAfter_cons (opened : List Char) (c : Char) (text : List Char) :
    openAfter opened (c :: text) = (bracketStep opened c).bind fun next => openAfter next text := rfl

theorem openAfter_append (opened text rest : List Char) :
    openAfter opened (text ++ rest) = (openAfter opened text).bind fun next => openAfter next rest :=
  List.foldlM_append

/-- A character opens a bracket, closes the innermost one or is none. -/
theorem bracketStep_eq_some_iff {opened left : List Char} {c : Char} :
    bracketStep opened c = some left ↔
      (c = '[' ∨ c = '(') ∧ left = c :: opened ∨
        ¬ (c = '[' ∨ c = '(') ∧ opener c = none ∧ left = opened ∨
          ¬ (c = '[' ∨ c = '(') ∧ ∃ bracket, opener c = some bracket ∧ opened = bracket :: left := by
  unfold bracketStep
  by_cases hopens : c = '[' ∨ c = '('
  · simp only [hopens, if_true, Option.some.injEq, true_and, not_true, false_and, or_false, eq_comm]
  · simp only [hopens, if_false, false_and, false_or, not_false_eq_true, true_and]
    cases hcloses : opener c with
    | none => simp [eq_comm]
    | some bracket => cases opened <;> simp [and_comm, eq_comm]

/-- The brackets below those that a character closes stay as they are. -/
theorem bracketStep_append_right {opened left : List Char} {c : Char} (h : bracketStep opened c = some left)
    (below : List Char) : bracketStep (opened ++ below) c = some (left ++ below) := by
  rw [bracketStep_eq_some_iff] at h ⊢
  rcases h with ⟨hopens, rfl⟩ | ⟨hopens, hcloses, rfl⟩ | ⟨hopens, bracket, hcloses, rfl⟩
  · exact .inl ⟨hopens, rfl⟩
  · exact .inr (.inl ⟨hopens, hcloses, rfl⟩)
  · exact .inr (.inr ⟨hopens, bracket, hcloses, rfl⟩)

theorem openAfter_append_right {opened left text : List Char} (h : openAfter opened text = some left)
    (below : List Char) : openAfter (opened ++ below) text = some (left ++ below) := by
  induction text generalizing opened with
  | nil =>
    rw [Option.some.inj h]
    rfl
  | cons c text ih =>
    rw [openAfter_cons] at h ⊢
    obtain ⟨next, hstep, hrest⟩ := Option.bind_eq_some_iff.1 h
    rw [bracketStep_append_right hstep below, Option.bind_some]
    exact ih hrest

/-! ## Counting brackets -/

theorem opener_eq_some_iff {bracket closing : Char} :
    opener closing = some bracket ↔ bracket = '[' ∧ closing = ']' ∨ bracket = '(' ∧ closing = ')' := by
  unfold opener
  split <;> simp_all [eq_comm]

theorem count_bracketStep {bracket closing : Char} (hpair : opener closing = some bracket) {opened left : List Char}
    {c : Char} (h : bracketStep opened c = some left) :
    left.count bracket + [c].count closing = opened.count bracket + [c].count bracket := by
  rw [opener_eq_some_iff] at hpair
  rcases bracketStep_eq_some_iff.1 h with ⟨hopens, rfl⟩ | ⟨hopens, hcloses, rfl⟩ | ⟨-, top, hcloses, rfl⟩
  · rcases hpair with ⟨rfl, rfl⟩ | ⟨rfl, rfl⟩ <;> rcases hopens with rfl | rfl <;> simp
  · have hclosing : c ≠ closing := by
      rintro rfl
      rw [opener_eq_some_iff.2 hpair] at hcloses
      cases hcloses
    rw [not_or] at hopens
    rcases hpair with ⟨rfl, rfl⟩ | ⟨rfl, rfl⟩ <;> simp [hopens, hclosing]
  · rcases hpair with ⟨rfl, rfl⟩ | ⟨rfl, rfl⟩ <;>
      rcases opener_eq_some_iff.1 hcloses with ⟨rfl, rfl⟩ | ⟨rfl, rfl⟩ <;> simp

/-- What is open or was closed had been open before or was opened. -/
theorem count_openAfter {bracket closing : Char} (hpair : opener closing = some bracket) {opened left text : List Char}
    (h : openAfter opened text = some left) :
    left.count bracket + text.count closing = opened.count bracket + text.count bracket := by
  induction text generalizing opened with
  | nil => rw [Option.some.inj h, List.count_nil, List.count_nil]
  | cons c text ih =>
    rw [openAfter_cons] at h
    obtain ⟨next, hstep, hrest⟩ := Option.bind_eq_some_iff.1 h
    have hfirst := count_bracketStep hpair hstep
    have hlater := ih hrest
    have hcons (a : Char) : (c :: text).count a = [c].count a + text.count a := by
      rw [← List.count_append, List.singleton_append]
    rw [hcons, hcons]
    omega

/-! ## Balanced lines -/

/-- Every bracket that the lines close is the innermost one that they have opened, and none is left open. -/
def Balanced (lines : List String) : Prop := openAfter [] (lines.flatMap String.toList) = some []

instance (lines : List String) : Decidable (Balanced lines) :=
  inferInstanceAs (Decidable (openAfter [] (lines.flatMap String.toList) = some []))

/-- Balanced lines leave open what was open before them. -/
theorem Balanced.openAfter_eq {lines : List String} (h : Balanced lines) (opened : List Char) :
    openAfter opened (lines.flatMap String.toList) = some opened := openAfter_append_right h opened

theorem balanced_nil : Balanced [] := rfl

theorem Balanced.append {lines rest : List String} (h : Balanced lines) (hrest : Balanced rest) :
    Balanced (lines ++ rest) := by
  rw [Balanced, List.flatMap_append, openAfter_append, h, Option.bind_some]
  exact hrest

theorem balanced_flatten {pieces : List (List String)} (h : ∀ piece ∈ pieces, Balanced piece) :
    Balanced pieces.flatten := by
  induction pieces with
  | nil => exact balanced_nil
  | cons piece pieces ih =>
    exact (h piece List.mem_cons_self).append (ih fun p hp => h p (List.mem_cons_of_mem _ hp))

/-- Reading balanced lines, no more brackets of a kind are closed than have been opened. -/
theorem Balanced.count_le {lines : List String} (h : Balanced lines) {front : List Char}
    (hfront : front <+: lines.flatMap String.toList) {bracket closing : Char} (hpair : opener closing = some bracket) :
    front.count closing ≤ front.count bracket := by
  obtain ⟨rest, hrest⟩ := hfront
  rw [Balanced, ← hrest, openAfter_append] at h
  obtain ⟨opened, hopened, -⟩ := Option.bind_eq_some_iff.1 h
  have hcount := count_openAfter hpair hopened
  rw [List.count_nil] at hcount
  omega

/-! ## The lines of a script -/

/-- One balanced line. -/
def Closed (line : String) : Prop := openAfter [] line.toList = some []

instance (line : String) : Decidable (Closed line) := inferInstanceAs (Decidable (openAfter [] line.toList = some []))

/-- One text after the other. -/
theorem openAfter_trans {a b : String} {opened next left : List Char} (ha : openAfter opened a.toList = some next)
    (hb : openAfter next b.toList = some left) : openAfter opened (a ++ b).toList = some left := by
  rw [String.toList_append, openAfter_append, ha, Option.bind_some]
  exact hb

/-- A closed text leaves open what was open before it. -/
theorem Closed.openAfter_eq {text : String} (h : Closed text) (opened : List Char) :
    openAfter opened text.toList = some opened := openAfter_append_right h opened

theorem balanced_of_closed {lines : List String} (h : ∀ line ∈ lines, Closed line) : Balanced lines := by
  induction lines with
  | nil => exact balanced_nil
  | cons line lines ih =>
    rw [Balanced, List.flatMap_cons, openAfter_append, h line List.mem_cons_self, Option.bind_some]
    exact ih fun l hl => h l (List.mem_cons_of_mem _ hl)

/-- No character of a number is a bracket. -/
theorem closed_of_plainDecimal {text : String} (h : PlainDecimal text.toList) : Closed text := by
  have hstep : ∀ c ∈ text.toList, bracketStep [] c = some [] := by
    intro c hc
    rcases h.mem hc with hdigit | rfl | rfl
    · rw [bracketStep_eq_some_iff]
      refine .inr (.inl ⟨?_, ?_, rfl⟩)
      · rintro (rfl | rfl) <;> cases hdigit
      · cases hcloses : opener c with
        | none => rfl
        | some bracket => rcases opener_eq_some_iff.1 hcloses with ⟨-, rfl⟩ | ⟨-, rfl⟩ <;> cases hdigit
    · rfl
    · rfl
  unfold Closed
  generalize text.toList = characters at hstep
  induction characters with
  | nil => rfl
  | cons c characters ih =>
    rw [openAfter_cons, hstep c List.mem_cons_self, Option.bind_some]
    exact ih fun d hd => hstep d (List.mem_cons_of_mem _ hd)

theorem closed_patch (c : Coordinate) : Closed (patch c) := by
  have hx := closed_of_plainDecimal (plainDecimal_integer c.x.toInt)
  have hy := closed_of_plainDecimal (plainDecimal_integer c.y.toInt)
  have hfirst : openAfter [] "patch (world-offset + ".toList = some ['('] := by decide +kernel
  have hsecond : openAfter ['('] ") (world-offset + ".toList = some ['('] := by decide +kernel
  have hlast : openAfter ['('] ")".toList = some [] := by decide +kernel
  have hopen := openAfter_trans (openAfter_trans hfirst (hx.openAfter_eq _)) hsecond
  exact openAfter_trans (openAfter_trans hopen (hy.openAfter_eq _)) hlast

theorem Setting.closed {line : String} (h : Setting line) : Closed line := by
  cases h with
  | fixed h =>
    have hfixed : ∀ line ∈ fixedLines, Closed line := by decide +kernel
    exact hfixed line h
  | @number before number h hn =>
    have hbefore : ∀ before ∈ numberedLines, Closed before := by decide +kernel
    exact openAfter_trans (hbefore before h) (closed_of_plainDecimal hn)
  | @share list behavior share h hb hs =>
    have hlist : ∀ list ∈ ["entry-percentages", "exit-percentages"],
        openAfter [] ("    set " ++ list ++ " lput [").toList = some ['['] ∧
          openAfter ['['] " ".toList = some ['['] ∧ openAfter ['['] ("] " ++ list).toList = some [] := by
      decide +kernel
    obtain ⟨hbefore, hblank, hafter⟩ := hlist list h
    have hopen := openAfter_trans (openAfter_trans hbefore ((closed_of_plainDecimal hb).openAfter_eq _)) hblank
    have hline := openAfter_trans (openAfter_trans hopen ((closed_of_plainDecimal hs).openAfter_eq _)) hafter
    simpa only [Closed, String.append_assoc] using hline

/-! ## Beacons, streets, procedures -/

/-- Balanced lines between those that open brackets and those that close them. -/
theorem balanced_between {opening body closing : List String} {opened : List Char}
    (hopening : openAfter [] (opening.flatMap String.toList) = some opened) (hbody : Balanced body)
    (hclosing : openAfter opened (closing.flatMap String.toList) = some []) :
    Balanced (opening ++ (body ++ closing)) := by
  rw [Balanced, List.flatMap_append, List.flatMap_append, openAfter_append, hopening, Option.bind_some,
    openAfter_append, hbody.openAfter_eq, Option.bind_some]
  exact hclosing

theorem balanced_nodeLines {n : Node} (h : n.kind.FiniteNumbers) : Balanced (nodeLines n) := by
  have hask : openAfter [] "  ask ".toList = some [] := by decide +kernel
  have hsprout : openAfter [] " [sprout-beacons 1 [".toList = some ['[', '['] := by decide +kernel
  have hclosing : openAfter ['[', '['] (["  ]]"].flatMap String.toList) = some [] := by decide +kernel
  have hbody := balanced_of_closed fun line hl => (setting_beaconBody h line hl).closed
  have hopening : openAfter [] ([sproutLine n].flatMap String.toList) = some ['[', '['] := by
    rw [List.flatMap_singleton]
    exact openAfter_trans (openAfter_trans hask (closed_patch n.position)) hsprout
  rw [nodeLines_eq_cons, furtherLines_eq, ← List.singleton_append]
  exact balanced_between hopening hbody hclosing

theorem balanced_streetLines {e : Edge} (h : e.weight.isFinite = true) (c d : Coordinate) :
    Balanced (streetLines e c d) := by
  have hask : openAfter [] "  ask beacons-on ".toList = some [] := by decide +kernel
  have hcommand : ∀ directed,
      openAfter ['['] ("    " ++ streetCommand directed ++ " beacons-on ").toList = some ['['] := by decide +kernel
  have hopen (opened : List Char) : openAfter opened " [".toList = some ('[' :: opened) := rfl
  have hwidth : Closed "      set street-width " := by decide +kernel
  have hclose : openAfter ['[', '['] "]]".toList = some [] := by decide +kernel
  have hopening : openAfter [] ([sourceLine c, targetLine e.directed d].flatMap String.toList) = some ['[', '['] := by
    have hsource := openAfter_trans (openAfter_trans hask (closed_patch c)) (hopen [])
    have htarget := openAfter_trans (openAfter_trans (hcommand e.directed) ((closed_patch d).openAfter_eq _)) (hopen ['['])
    rw [List.flatMap_cons, List.flatMap_singleton, ← String.toList_append]
    exact openAfter_trans hsource htarget
  have hweight : Setting ("      set weight " ++ e.weight.text) := .number (by decide) (plainDecimal_text h)
  have hbody : Balanced ["      set weight " ++ e.weight.text] :=
    balanced_of_closed fun line hl => List.mem_singleton.1 hl ▸ hweight.closed
  have hclosing : openAfter ['[', '[']
      (["      set street-width " ++ e.width.toInt.repr ++ "]]"].flatMap String.toList) = some [] := by
    have hnumber := closed_of_plainDecimal (plainDecimal_integer e.width.toInt)
    rw [List.flatMap_singleton]
    exact openAfter_trans (openAfter_trans (hwidth.openAfter_eq _) (hnumber.openAfter_eq _)) hclose
  have hlines := balanced_between hopening hbody hclosing
  simpa only [List.cons_append, List.nil_append, streetLines_eq] using hlines

end Script

end BeaconMap
