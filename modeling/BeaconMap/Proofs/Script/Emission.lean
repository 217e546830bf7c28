import BeaconMap.Proofs.Script.Template
import BeaconMap.Script.Template
/-!
# What reaches a sink

A script is rendered exactly from a template that is read to its end and has a sentinel line (`render_eq_ok_iff`); a
stream that fails, wherever it does, fails the script (`render_of_failure`). A sink takes the same bytes whether they
come at once or piece by piece (`Sink.pass_eq`). So what reaches it is nothing, when there is no script, or the script
as far as the sink takes it (`emit_prefix_of_script`).
-/

namespace BeaconMap

open Bytes

/-! ## Sinks -/

namespace Sink

/-- The sink after it has taken some bytes. -/
def after (sink : Sink) (bytes : Bytes) : Sink := { sink with capacity := sink.capacity.map (· - bytes.length) }

/-- Writes pieces one after the other, up to the first that is not taken whole: the outcome, and the bytes that reached
the sink. -/
def pass : List Bytes → Sink → Except ScriptError Unit × Bytes
  | [], _ => (.ok (), [])
  | piece :: rest, sink =>
    match sink.write piece with
    | .error error => (.error error, sink.taken piece)
    | .ok () =>
      let (outcome, bytes) := pass rest (sink.after piece)
      (outcome, piece ++ bytes)

theorem write_of_le {sink : Sink} {bytes : Bytes} (h : ∀ c, sink.capacity = some c → bytes.length ≤ c) :
    sink.write bytes = .ok () ∧ sink.taken bytes = bytes := by
  unfold write taken
  cases hc : sink.capacity with
  | none => exact ⟨rfl, rfl⟩
  | some c => exact ⟨if_pos (h c hc), List.take_of_length_le (h c hc)⟩

theorem write_of_lt {sink : Sink} {bytes : Bytes} {c : Nat} (hc : sink.capacity = some c) (h : c < bytes.length) :
    sink.write bytes = .error (.file sink.failure) ∧ sink.taken bytes = bytes.take c := by
  unfold write taken
  rw [hc]
  exact ⟨if_neg (Nat.not_le.2 h), rfl⟩

/-- A sink has room for bytes, or it fails before their end. -/
theorem room_or_short (sink : Sink) (bytes : Bytes) :
    (∀ c, sink.capacity = some c → bytes.length ≤ c) ∨ ∃ c, sink.capacity = some c ∧ c < bytes.length := by
  cases hc : sink.capacity with
  | none => exact .inl nofun
  | some c =>
    by_cases h : bytes.length ≤ c
    · exact .inl fun c' hc' => Option.some.inj hc' ▸ h
    · exact .inr ⟨c, rfl, Nat.not_le.1 h⟩

/-- Bytes that come piece by piece are taken as if they came at once. -/
theorem pass_eq (pieces : List Bytes) (sink : Sink) :
    pass pieces sink = (sink.write pieces.flatten, sink.taken pieces.flatten) := by
  induction pieces generalizing sink with
  | nil =>
    obtain ⟨hwrite, htaken⟩ := @write_of_le sink [] fun _ _ => Nat.zero_le _
    rw [pass, List.flatten_nil, hwrite, htaken]
  | cons piece rest ih =>
    rw [pass, List.flatten_cons]
    rcases sink.room_or_short piece with hroom | ⟨c, hc, hshort⟩
    · rw [(write_of_le hroom).1]
      dsimp only
      rw [ih]
      -- The piece is taken whole, so the rest meets a sink with so much less room.
      rcases (sink.after piece).room_or_short rest.flatten with hrest | ⟨c, hc, hshort⟩
      · obtain ⟨hwrite, htaken⟩ := write_of_le hrest
        have hwhole : ∀ c, sink.capacity = some c → (piece ++ rest.flatten).length ≤ c := by
          intro c hc
          have hleft := hrest (c - piece.length) (by simp [after, hc])
          have hpiece := hroom c hc
          rw [List.length_append]
          omega
        rw [hwrite, htaken, (write_of_le hwhole).1, (write_of_le hwhole).2]
      · obtain ⟨hwrite, htaken⟩ := write_of_lt hc hshort
        obtain ⟨c', hc', rfl⟩ := Option.map_eq_some_iff.1 hc
        have hpiece := hroom c' hc'
        have hwhole : c' < (piece ++ rest.flatten).length := by
          rw [List.length_append]
          omega
        rw [hwrite, htaken, (write_of_lt hc' hwhole).1, (write_of_lt hc' hwhole).2, List.take_append,
          List.take_of_length_le hpiece]
        rfl
    · have hwhole : c < (piece ++ rest.flatten).length := by
        rw [List.length_append]
        omega
      rw [(write_of_lt hc hshort).1, (write_of_lt hc hshort).2, (write_of_lt hc hwhole).1, (write_of_lt hc hwhole).2,
        List.take_append_of_le_length hshort.le]

end Sink

namespace Script

/-! ## When there is a script -/

/-- The template with the lines of a block, each with a line feed, in place of its first sentinel line, closed with a line
feed. -/
def Spliced (sentinel : String) (block : List String) (template script : Bytes) : Prop :=
  ∃ before line after, CutInto template (before ++ line :: after) ∧ (∀ l ∈ before, ¬ Marks sentinel l) ∧
    Marks sentinel line ∧
      script = before.flatten ++ (block.flatMap fun line => utf8 line ++ [lineFeed]) ++ after.flatten ++
        closing after.flatten

theorem postamble_of_failure (lines : List Bytes) (e : FileError) :
    postamble (.ofLines lines (some e)) = .error (.file e) := by
  induction lines with
  | nil => rfl
  | cons l lines ih =>
    rw [LineStream.ofLines, postamble, ih]
    rfl

/-- Before a failure the sentinel line may be found; the stream behind it fails in the same way. -/
theorem preamble_of_failure (sentinel : String) (lines : List Bytes) (e : FileError) :
    preamble sentinel (.ofLines lines (some e)) = .error (.file e) ∨
      ∃ copied rest, preamble sentinel (.ofLines lines (some e)) = .ok (copied, .ofLines rest (some e)) := by
  induction lines with
  | nil => exact .inl rfl
  | cons l lines ih =>
    rw [LineStream.ofLines, preamble]
    by_cases hl : l.content = utf8 sentinel
    · rw [if_pos hl]
      exact .inr ⟨[], lines, rfl⟩
    · rw [if_neg hl]
      rcases ih with h | ⟨copied, rest, h⟩
      · exact .inl (by rw [h]; rfl)
      · exact .inr ⟨l.terminated ++ copied, rest, by rw [h]; rfl⟩

/-- Where some line is the sentinel, one is the first. -/
theorem exists_first_marked {sentinel : String} {lines : List Bytes} (h : ∃ l ∈ lines, Marks sentinel l) :
    ∃ before line after, lines = before ++ line :: after ∧ (∀ l ∈ before, ¬ Marks sentinel l) ∧ Marks sentinel line := by
  induction lines with
  | nil => simp at h
  | cons l lines ih =>
    by_cases hl : Marks sentinel l
    · exact ⟨[], l, lines, rfl, List.forall_mem_nil _, hl⟩
    · obtain ⟨before, line, after, rfl, hbefore, hline⟩ := ih (by simpa [hl] using h)
      exact ⟨l :: before, line, after, rfl, List.forall_mem_cons.2 ⟨hl, hbefore⟩, hline⟩

section
variable {g : Graph} (hg : g.Made) (sentinel : String) {template : Source}
include hg

/-- A stream that fails gives no script, wherever it fails. -/
theorem render_of_failure {e : FileError} (h : template.failure = some e) :
    render sentinel g template = .error (.file e) := by
  unfold render Source.lineStream
  simp only [h]
  rcases preamble_of_failure sentinel ((cutLines template.bytes).filter isTerminated) e with hp | ⟨copied, rest, hp⟩
  · rw [hp]
    rfl
  · rw [hp, hg.mapBlock_eq]
    simp only [bind, Except.bind, Except.mapError, postamble_of_failure]

/-- A script is rendered exactly from a template that can be read to its end and has a sentinel line. -/
theorem render_eq_ok_iff {block : List String} (hblock : g.mapBlock = .ok block) (script : Bytes) :
    render sentinel g template = .ok script ↔
      template.failure = none ∧ Spliced sentinel block template.bytes script := by
  obtain ⟨bytes, failure⟩ := template
  cases failure with
  | some e => simp [@render_of_failure g hg sentinel ⟨bytes, some e⟩ _ rfl]
  | none =>
    simp only [true_and]
    constructor
    · intro h
      by_cases hmarked : ∃ l ∈ cutLines bytes, Marks sentinel l
      · obtain ⟨before, line, after, hlines, hbefore, hline⟩ := exists_first_marked hmarked
        have hcut : CutInto bytes (before ++ line :: after) := hlines ▸ cutInto_cutLines bytes
        rw [render_of_marked hblock hcut hbefore hline, Except.ok.injEq] at h
        exact ⟨before, line, after, hcut, hbefore, hline, h.symm⟩
      · rw [render_of_unmarked g (cutInto_cutLines bytes) fun l hl hm => hmarked ⟨l, hl, hm⟩] at h
        cases h
    · rintro ⟨before, line, after, hcut, hbefore, hline, rfl⟩
      exact render_of_marked hblock hcut hbefore hline

end

/-! ## What reaches the sink -/

/-- A script is emitted as far as the sink takes it; without a script nothing is. A stream that fails gives no script,
wherever it fails, and neither does one that ends without a sentinel line; every other one does. -/
theorem emit_prefix_of_script {g : Graph} (hg : g.Made) (sentinel : String) (template : Source) (sink : Sink) :
    (∀ e, template.failure = some e → render sentinel g template = .error (.file e)) ∧
      (template.failure = none → ∀ lines, CutInto template.bytes lines →
        ((∀ l ∈ lines, ¬ Marks sentinel l) → render sentinel g template = .error (.malformedTemplate sentinel)) ∧
        ((∃ l ∈ lines, Marks sentinel l) → ∃ script, render sentinel g template = .ok script)) ∧
      (∀ e, render sentinel g template = .error e → emit sentinel g template sink = (.error e, [])) ∧
      ∀ script, render sentinel g template = .ok script →
        (emit sentinel g template sink).2 <+: script ∧
        -- The script may come to the sink in any pieces.
        (∀ pieces : List Bytes, pieces.flatten = script → sink.pass pieces = emit sentinel g template sink) ∧
        ((∀ c, sink.capacity = some c → script.length ≤ c) → emit sentinel g template sink = (.ok (), script)) ∧
        ∀ c, sink.capacity = some c → c < script.length →
          emit sentinel g template sink = (.error (.file sink.failure), script.take c) := by
  refine ⟨fun e he => render_of_failure hg sentinel he, fun hended lines hcut => ⟨fun hnone => ?_, fun hsome => ?_⟩,
    fun e he => ?_, fun script hscript => ?_⟩
  · obtain ⟨bytes, failure⟩ := template
    cases hended
    exact render_of_unmarked g hcut hnone
  · obtain ⟨before, line, after, rfl, hbefore, hline⟩ := exists_first_marked hsome
    exact ⟨_, (render_eq_ok_iff hg sentinel hg.mapBlock_eq _).2
      ⟨hended, before, line, after, hcut, hbefore, hline, rfl⟩⟩
  · rw [emit, he]
  · have hemit : emit sentinel g template sink = (sink.write script, sink.taken script) := by
      rw [emit, hscript]
    rw [hemit]
    refine ⟨?_, fun pieces hpieces => ?_, fun hroom => ?_, fun c hc hshort => ?_⟩
    · rcases sink.room_or_short script with hroom | ⟨c, hc, hshort⟩
      · rw [(Sink.write_of_le hroom).2]
      · rw [(Sink.write_of_lt hc hshort).2]
        exact List.take_prefix c script
    · rw [Sink.pass_eq, hpieces]
    · rw [(Sink.write_of_le hroom).1, (Sink.write_of_le hroom).2]
    · rw [(Sink.write_of_lt hc hshort).1, (Sink.write_of_lt hc hshort).2]

/-- A template that breaks off behind its sentinel line leaves the sink empty; one that ends there fills a sink of three
bytes with the beginning of the script, in whatever pieces it comes. -/
theorem emit_prefix_of_script_short :
    ∃ g : Graph, g.Made ∧
      emit defaultSentinel g ⟨utf8 ";;===start\nto", some (.stream "read failed")⟩ {} =
        (.error (.file (.stream "read failed")), []) ∧
      ∃ script, render defaultSentinel g { bytes := utf8 ";;===start\nto go" } = .ok script ∧
        emit defaultSentinel g { bytes := utf8 ";;===start\nto go" } { capacity := some 3 } =
          (.error (.file (.stream "write failed")), script.take 3) ∧
        Sink.pass [script.take 2, script.drop 2] { capacity := some 3 } =
          (.error (.file (.stream "write failed")), script.take 3) := by
  have hsome : (Call.runAll Call.crossing {}).2.product.isSome = true := by decide +kernel
  obtain ⟨g, hg⟩ := Option.isSome_iff_exists.1 hsome
  have made : g.Made := ⟨_, .inl hg⟩
  obtain ⟨hfailed, -, hnothing, -⟩ := emit_prefix_of_script made defaultSentinel
    ⟨utf8 ";;===start\nto", some (.stream "read failed")⟩ {}
  obtain ⟨-, hended, -, hemitted⟩ := emit_prefix_of_script made defaultSentinel
    { bytes := utf8 ";;===start\nto go" } { capacity := some 3 }
  obtain ⟨script, hscript⟩ := (hended rfl _ (cutInto_cutLines _)).2
    ⟨utf8 ";;===start\n", by decide +kernel, (marks_iff _ _).2 (by decide +kernel)⟩
  obtain ⟨-, hpieces, -, hshort⟩ := hemitted script hscript
  have hlong : 3 < script.length := by
    have hlength : (some g).map (fun g => (render defaultSentinel g { bytes := utf8 ";;===start\nto go" }).toOption.map
        fun script => decide (3 < script.length)) = some (some true) := by
      rw [← hg]
      decide +kernel
    simpa [hscript, Except.toOption] using hlength
  have hemit := hshort 3 rfl hlong
  exact ⟨g, made, hnothing _ (hfailed _ rfl), script, hscript, hemit, (hpieces _ (by simp)).trans hemit⟩

end Script

end BeaconMap
