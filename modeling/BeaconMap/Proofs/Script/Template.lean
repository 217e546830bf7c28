import BeaconMap.Script.Template
import BeaconMap.Proofs.Script.Block
/-!
# What becomes of a template

Bytes have one way to be cut after their line feeds (`cutInto_iff`). A template of which no line names the sentinel is
refused; otherwise what stands before and after the first such line is kept byte for byte around the block, and the end
gets a line feed if it lacks one (`render_replaces_sentinel_line`).
-/

namespace BeaconMap

namespace Bytes

/-! ## Lines -/

/-- Bytes cut after every line feed. -/
inductive CutInto : Bytes → List Bytes → Prop
  | nil : CutInto [] []
  | last {line : Bytes} (nonempty : line ≠ []) (unended : lineFeed ∉ line) : CutInto line [line]
  | line {body rest : Bytes} {lines : List Bytes} (unended : lineFeed ∉ body) (cut : CutInto rest lines) :
      CutInto (body ++ lineFeed :: rest) ((body ++ [lineFeed]) :: lines)

theorem cutLines_of_not_mem {line : Bytes} (hne : line ≠ []) (h : lineFeed ∉ line) : cutLines line = [line] := by
  induction line with
  | nil => exact absurd rfl hne
  | cons b rest ih =>
    rw [List.mem_cons, not_or] at h
    rw [cutLines, if_neg (Ne.symm h.1)]
    cases rest with
    | nil => rfl
    | cons c rest => rw [ih (List.cons_ne_nil _ _) h.2]

theorem cutLines_append {body : Bytes} (h : lineFeed ∉ body) (rest : Bytes) :
    cutLines (body ++ lineFeed :: rest) = (body ++ [lineFeed]) :: cutLines rest := by
  induction body with
  | nil => rfl
  | cons b body ih =>
    rw [List.mem_cons, not_or] at h
    rw [List.cons_append, cutLines, if_neg (Ne.symm h.1), ih h.2]
    rfl

theorem CutInto.eq_cutLines {bytes : Bytes} {lines : List Bytes} (h : CutInto bytes lines) :
    lines = cutLines bytes := by
  induction h with
  | nil => rfl
  | last hne hend => rw [cutLines_of_not_mem hne hend]
  | line hend _ ih => rw [cutLines_append hend, ih]

/-- One byte more at the front belongs to the first line, if there is one. -/
theorem CutInto.cons {bytes : Bytes} {lines : List Bytes} {b : UInt8} (hb : b ≠ lineFeed) :
    CutInto bytes lines →
      CutInto (b :: bytes) (match lines with
        | [] => [[b]]
        | first :: rest => (b :: first) :: rest) := by
  intro h
  have hmem {l : Bytes} (hl : lineFeed ∉ l) : lineFeed ∉ b :: l := by
    rw [List.mem_cons, not_or]
    exact ⟨Ne.symm hb, hl⟩
  cases h with
  | nil => exact .last (List.cons_ne_nil _ _) (hmem List.not_mem_nil)
  | last _ hend => exact .last (List.cons_ne_nil _ _) (hmem hend)
  | @line body rest lines hend hcut =>
    have hline : CutInto (b :: body ++ lineFeed :: rest) ((b :: body ++ [lineFeed]) :: lines) := .line (hmem hend) hcut
    exact hline

theorem cutInto_cutLines (bytes : Bytes) : CutInto bytes (cutLines bytes) := by
  induction bytes with
  | nil => exact .nil
  | cons b rest ih =>
    by_cases hb : b = lineFeed
    · subst hb
      exact .line List.not_mem_nil ih
    · rw [cutLines, if_neg hb]
      exact ih.cons hb

theorem cutInto_iff (bytes : Bytes) (lines : List Bytes) : CutInto bytes lines ↔ lines = cutLines bytes := by
  constructor
  · exact CutInto.eq_cutLines
  · rintro rfl
    exact cutInto_cutLines bytes

/-- Only the last line may lack its line feed. -/
theorem CutInto.split {bytes : Bytes} {before : List Bytes} {line : Bytes} {after : List Bytes}
    (h : CutInto bytes (before ++ line :: after)) :
    (∀ l ∈ before, l.isTerminated = true) ∧ ∃ rest, CutInto rest after ∧ bytes = before.flatten ++ line ++ rest := by
  induction before generalizing bytes with
  | nil =>
    refine ⟨List.forall_mem_nil _, ?_⟩
    cases h with
    | last => exact ⟨[], .nil, by simp⟩
    | line _ hcut => exact ⟨_, hcut, by simp⟩
  | cons first before ih =>
    rw [List.cons_append] at h
    generalize hlines : before ++ line :: after = lines at h
    cases h with
    | last => simp at hlines
    | @line body rest _ hend hcut =>
      subst hlines
      obtain ⟨hterminated, left, hleft, hrest⟩ := ih hcut
      refine ⟨List.forall_mem_cons.2 ⟨?_, hterminated⟩, left, hleft, ?_⟩
      · simp [isTerminated]
      · simp [hrest]

theorem CutInto.flatten {bytes : Bytes} {lines : List Bytes} (h : CutInto bytes lines) : lines.flatten = bytes := by
  rw [h.eq_cutLines, flatten_cutLines]

theorem CutInto.count_lineFeed_le {bytes : Bytes} {lines : List Bytes} (h : CutInto bytes lines) :
    ∀ l ∈ lines, l.count lineFeed ≤ 1 := by
  induction h with
  | nil => exact List.forall_mem_nil _
  | last _ hend =>
    rw [List.forall_mem_singleton, List.count_eq_zero.2 hend]
    exact Nat.zero_le 1
  | line hend _ ih =>
    refine List.forall_mem_cons.2 ⟨?_, ih⟩
    rw [List.count_append, List.count_eq_zero.2 hend]
    decide

/-! ## The end of a copy -/

/-- The line feed that bytes lack at their end. -/
def closing (bytes : Bytes) : Bytes := if bytes ≠ [] ∧ bytes.getLast? ≠ some lineFeed then [lineFeed] else []

theorem closing_append (body rest : Bytes) : closing (body ++ lineFeed :: rest) = closing rest := by
  unfold closing
  cases rest with
  | nil => simp
  | cons b rest => simp [List.getLast?_append, List.getLast?_cons_cons]

theorem terminated_of_isTerminated {line : Bytes} (h : line.isTerminated = true) : line.terminated = line := if_pos h

theorem terminated_eq {line : Bytes} (h : line ≠ []) : line.terminated = line ++ closing line := by
  unfold terminated closing isTerminated
  by_cases hlast : line.getLast? = some lineFeed
  · simp [hlast]
  · simp [hlast, h]

/-- A copy of all the lines is the bytes, with a line feed at the end. -/
theorem CutInto.flatMap_terminated {bytes : Bytes} {lines : List Bytes} (h : CutInto bytes lines) :
    lines.flatMap terminated = bytes ++ closing bytes := by
  induction h with
  | nil => rfl
  | last hne _ => rw [List.flatMap_singleton, terminated_eq hne]
  | @line body rest lines _ _ ih =>
    have hline : (body ++ [lineFeed]).terminated = body ++ [lineFeed] :=
      terminated_of_isTerminated (by simp [isTerminated])
    rw [List.flatMap_cons, hline, ih, closing_append]
    simp

/-- Lines that have their line feeds are copied as they are. -/
theorem flatMap_terminated_of_isTerminated {lines : List Bytes} (h : ∀ l ∈ lines, l.isTerminated = true) :
    lines.flatMap terminated = lines.flatten := by
  rw [List.flatMap_def, List.map_congr_left fun l hl => terminated_of_isTerminated (h l hl), List.map_id']

/-! ## The sentinel line -/

/-- `rest` is `line` without `last` at its end, if it ends so. -/
def Without (last : UInt8) (line rest : Bytes) : Prop :=
  line = rest ++ [last] ∨ line.getLast? ≠ some last ∧ line = rest

theorem without_iff (last : UInt8) (line rest : Bytes) : Without last line rest ↔ rest = line.dropEnd last := by
  unfold Without dropEnd
  by_cases h : line.getLast? = some last
  · obtain ⟨init, rfl⟩ := List.getLast?_eq_some_iff.1 h
    simp [eq_comm]
  · have hno : line ≠ rest ++ [last] := by
      rintro rfl
      exact h (by simp)
    simp [h, hno, eq_comm]

/-- Without a line feed and then a carriage return at its end, if it ends so, the line is the sentinel. -/
def Marks (sentinel : String) (line : Bytes) : Prop :=
  ∃ chopped, Without lineFeed line chopped ∧ Without carriageReturn chopped (utf8 sentinel)

theorem marks_iff (sentinel : String) (line : Bytes) : Marks sentinel line ↔ line.content = utf8 sentinel := by
  simp only [Marks, without_iff, exists_eq_left, content]
  exact eq_comm

end Bytes

open Bytes

namespace Script

/-! ## The two copies -/

theorem preamble_unmarked {sentinel : String} {lines : List Bytes} (h : ∀ l ∈ lines, ¬ Marks sentinel l) :
    preamble sentinel (.ofLines lines none) = .error (.malformedTemplate sentinel) := by
  induction lines with
  | nil => rfl
  | cons l lines ih =>
    obtain ⟨hl, hlines⟩ := List.forall_mem_cons.1 h
    rw [marks_iff] at hl
    rw [LineStream.ofLines, preamble, if_neg hl, ih hlines]
    rfl

theorem preamble_marked {sentinel : String} {before : List Bytes} {line : Bytes} (after : List Bytes)
    (hbefore : ∀ l ∈ before, ¬ Marks sentinel l) (hline : Marks sentinel line) :
    preamble sentinel (.ofLines (before ++ line :: after) none) =
      .ok (before.flatMap terminated, .ofLines after none) := by
  induction before with
  | nil => rw [List.nil_append, LineStream.ofLines, preamble, if_pos ((marks_iff _ _).1 hline)]; rfl
  | cons l before ih =>
    obtain ⟨hl, hbefore⟩ := List.forall_mem_cons.1 hbefore
    rw [marks_iff] at hl
    rw [List.cons_append, LineStream.ofLines, preamble, if_neg hl, ih hbefore]
    rfl

theorem postamble_ofLines (lines : List Bytes) : postamble (.ofLines lines none) = .ok (lines.flatMap terminated) := by
  induction lines with
  | nil => rfl
  | cons l lines ih =>
    rw [LineStream.ofLines, postamble, ih]
    rfl

/-! ## The script -/

theorem render_of_unmarked {sentinel : String} (g : Graph) {template : Bytes} {lines : List Bytes}
    (hcut : CutInto template lines) (hnone : ∀ l ∈ lines, ¬ Marks sentinel l) :
    render sentinel g { bytes := template } = .error (.malformedTemplate sentinel) := by
  unfold render Source.lineStream
  rw [← hcut.eq_cutLines, preamble_unmarked hnone]
  rfl

theorem render_of_marked {sentinel : String} {g : Graph} {block : List String} (hblock : g.mapBlock = .ok block)
    {template : Bytes} {before : List Bytes} {line : Bytes} {after : List Bytes}
    (hcut : CutInto template (before ++ line :: after)) (hbefore : ∀ l ∈ before, ¬ Marks sentinel l)
    (hline : Marks sentinel line) :
    render sentinel g { bytes := template } =
      .ok (before.flatten ++ (block.flatMap fun line => utf8 line ++ [lineFeed]) ++ after.flatten ++
        closing after.flatten) := by
  obtain ⟨hterminated, rest, hrest, -⟩ := hcut.split
  unfold render Source.lineStream
  rw [← hcut.eq_cutLines, preamble_marked after hbefore hline, hblock, flatMap_terminated_of_isTerminated hterminated]
  simp only [bind, Except.bind, Except.mapError, postamble_ofLines, hrest.flatMap_terminated, hrest.flatten, pure,
    Except.pure, List.append_assoc, blockBytes]

/-- The script of a graph that was made, for a template that can be read to its end. The template is cut into lines in
one way only. If none of them is the sentinel line there is no script; otherwise the script is the template with the lines
of the block, each with a line feed, in place of the first sentinel line, closed with a line feed. -/
theorem render_replaces_sentinel_line {g : Graph} (hg : g.Made) (sentinel : String) (template : Bytes) :
    ∃ block lines, g.mapBlock = .ok block ∧ (∀ other, CutInto template other ↔ other = lines) ∧
      ((∀ l ∈ lines, ¬ Marks sentinel l) →
        render sentinel g { bytes := template } = .error (.malformedTemplate sentinel)) ∧
      ∀ before line after, lines = before ++ line :: after → (∀ l ∈ before, ¬ Marks sentinel l) → Marks sentinel line →
        template = before.flatten ++ line ++ after.flatten ∧
          render sentinel g { bytes := template } =
            .ok (before.flatten ++ (block.flatMap fun line => utf8 line ++ [lineFeed]) ++ after.flatten ++
              closing after.flatten) := by
  refine ⟨_, cutLines template, hg.mapBlock_eq, cutInto_iff template, render_of_unmarked g (cutInto_cutLines template), ?_⟩
  intro before line after hlines hbefore hline
  have hcut : CutInto template (before ++ line :: after) := (cutInto_iff _ _).2 hlines.symm
  obtain ⟨-, rest, hrest, htemplate⟩ := hcut.split
  exact ⟨hrest.flatten ▸ htemplate, render_of_marked hg.mapBlock_eq hcut hbefore hline⟩

/-- A template that is not text, with the sentinel line twice, once before a carriage return and once before the end:
the second one stays. -/
theorem render_replaces_sentinel_line_twice :
    ∃ (g : Graph) (block : List String), g.Made ∧ g.mapBlock = .ok block ∧
      render defaultSentinel g { bytes := [255, 10] ++ utf8 defaultSentinel ++ [13, 10] ++ utf8 defaultSentinel } =
        .ok ([255, 10] ++ (block.flatMap fun line => utf8 line ++ [lineFeed]) ++ utf8 defaultSentinel ++ [10]) ∧
      render "begin" g { bytes := utf8 defaultSentinel } = .error (.malformedTemplate "begin") := by
  have hsome : (Call.runAll Call.crossing {}).2.product.isSome = true := by decide +kernel
  obtain ⟨g, hg⟩ := Option.isSome_iff_exists.1 hsome
  have made : g.Made := ⟨_, .inl hg⟩
  obtain ⟨block, lines, hblock, hcut, -, hsplice⟩ :=
    render_replaces_sentinel_line made defaultSentinel
      ([255, 10] ++ utf8 defaultSentinel ++ [13, 10] ++ utf8 defaultSentinel)
  obtain ⟨-, lines', -, hcut', hnone, -⟩ := render_replaces_sentinel_line made "begin" (utf8 defaultSentinel)
  have hlines : lines = [[255, 10], utf8 defaultSentinel ++ [13, 10], utf8 defaultSentinel] :=
    ((hcut _).1 ((cutInto_iff _ _).2 (by decide +kernel))).symm
  have hlines' : lines' = [utf8 defaultSentinel] := ((hcut' _).1 ((cutInto_iff _ _).2 (by decide +kernel))).symm
  refine ⟨g, block, made, hblock, ?_, ?_⟩
  · refine (hsplice [[255, 10]] (utf8 defaultSentinel ++ [13, 10]) [utf8 defaultSentinel] hlines ?_ ?_).2
    · simp only [marks_iff]
      decide +kernel
    · rw [marks_iff]
      decide +kernel
  · apply hnone
    simp only [hlines', marks_iff]
    decide +kernel

/-! ## A script is not its template -/

theorem preamble_eq_ok {sentinel : String} {lines : List Bytes} {copied : Bytes} {stream : LineStream}
    (h : preamble sentinel (.ofLines lines none) = .ok (copied, stream)) :
    ∃ before line after, lines = before ++ line :: after ∧ copied = before.flatMap terminated ∧
      stream = .ofLines after none := by
  induction lines generalizing copied with
  | nil => cases h
  | cons line lines ih =>
    rw [LineStream.ofLines, preamble] at h
    split at h
    · cases h
      exact ⟨[], line, lines, rfl, rfl, rfl⟩
    · obtain ⟨⟨copied', stream'⟩, hcopied, hresult⟩ := (bind_eq_ok_iff _ _ _).1 h
      cases hresult
      obtain ⟨before, marked, after, rfl, rfl, rfl⟩ := ih hcopied
      exact ⟨line :: before, marked, after, rfl, rfl, rfl⟩

theorem length_le_count_blockBytes (lines : List String) : lines.length ≤ (blockBytes lines).count lineFeed := by
  induction lines with
  | nil => exact Nat.zero_le _
  | cons line lines ih =>
    have hcount : (blockBytes (line :: lines)).count lineFeed =
        (utf8 line).count lineFeed + 1 + (blockBytes lines).count lineFeed := by
      simp [blockBytes, List.count_append, Nat.add_assoc, Nat.add_comm 1]
    rw [hcount, List.length_cons]
    omega

theorem length_mapBlock {g : Graph} {block : List String} (h : g.mapBlock = .ok block) : 11 ≤ block.length := by
  obtain ⟨connections, -, hblock⟩ := (bind_eq_ok_iff _ _ _).1 h
  cases hblock
  simp only [List.length_append, Graph.length_worldLines]
  omega

/-- A script has more lines than its template, so the two are never the same. -/
theorem ne_template_of_render {sentinel : String} {g : Graph} {template script : Bytes}
    (h : render sentinel g { bytes := template } = .ok script) : script ≠ template := by
  obtain ⟨⟨copied, stream⟩, hcopied, h⟩ := (bind_eq_ok_iff _ _ _).1 h
  obtain ⟨block, hblock, h⟩ := (bind_eq_ok_iff _ _ _).1 h
  obtain ⟨after, hafter, hscript⟩ := (bind_eq_ok_iff _ _ _).1 h
  cases hscript
  obtain ⟨before, line, rest, hlines, rfl, rfl⟩ := preamble_eq_ok hcopied
  have hcut : CutInto template (before ++ line :: rest) := (cutInto_iff _ _).2 hlines.symm
  obtain ⟨hterminated, left, hleft, htemplate⟩ := hcut.split
  rw [postamble_ofLines, Except.ok.injEq, hleft.flatMap_terminated] at hafter
  rw [flatMap_terminated_of_isTerminated hterminated, ← hafter]
  -- The block ends more lines than the line that it replaces.
  have hline := hcut.count_lineFeed_le line (by simp)
  have hmany : 11 ≤ (blockBytes block).count lineFeed := by
    cases hmap : g.mapBlock with
    | error e => rw [hmap] at hblock; cases hblock
    | ok lines =>
      rw [hmap] at hblock
      cases hblock
      exact (length_mapBlock hmap).trans (length_le_count_blockBytes _)
  intro he
  have hcount := congrArg (List.count lineFeed) (he.trans htemplate)
  simp only [List.count_append] at hcount
  omega

end Script

end BeaconMap
