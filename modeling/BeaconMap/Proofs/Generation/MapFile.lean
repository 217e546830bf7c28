import BeaconMap.Generation.Run
import BeaconMap.Proofs.Files.Places
import BeaconMap.Proofs.Script.Template
/-!
# What writing a map changes

A map is written exactly when its template, its output and the volume allow it (`MapFile.Writes`), and then one file is
put at the place of the output (`write_eq_ok_iff`). When a step fails, the prepared file is taken away and the tree is
what it was (`write_error`), so writing is all or nothing. The template is not spared when the output leads to it.
-/

namespace BeaconMap

open Script

/-! ## The parts -/

/-- A sink that was written to completely took everything. -/
theorem Sink.taken_of_write {sink : Sink} {bytes : Bytes} (h : sink.write bytes = .ok ()) : sink.taken bytes = bytes := by
  unfold write taken at *
  cases hcapacity : sink.capacity with
  | none => rfl
  | some capacity =>
    rw [hcapacity] at h
    dsimp only at h
    split at h
    · rename_i hle
      exact List.take_of_length_le hle
    · cases h

namespace Script

/-- A script that is emitted was rendered, and the sink took it. -/
theorem emit_eq_ok_iff (sentinel : String) (g : Graph) (template : Source) (sink : Sink) (bytes : Bytes) :
    emit sentinel g template sink = (.ok (), bytes) ↔
      render sentinel g template = .ok bytes ∧ sink.write bytes = .ok () := by
  unfold emit
  cases render sentinel g template with
  | error e => simp
  | ok script =>
    rw [Except.ok.injEq, Prod.mk.injEq]
    constructor
    · rintro ⟨hwrite, rfl⟩
      rw [Sink.taken_of_write hwrite]
      exact ⟨rfl, hwrite⟩
    · rintro ⟨rfl, hwrite⟩
      exact ⟨hwrite, Sink.taken_of_write hwrite⟩

/-- A directory can be opened as a template, but not read. -/
theorem render_directory (sentinel : String) (g : Graph) :
    render sentinel g (FileTree.FileEntry.source .directory) = .error (.file .isADirectory) := rfl

end Script

namespace Volume

variable (volume : Volume) (tree : FileTree)

theorem openPath_eq_ok_iff (path : Path) (source : Source) :
    volume.openPath tree path = .ok source ↔
      volume.closed path = none ∧ ∃ entry, tree.find path = .ok entry ∧ source = FileTree.FileEntry.source entry := by
  unfold openPath FileTree.openPath
  cases tree.find path with
  | error e => simp [bind, Except.bind, Except.map]
  | ok entry =>
    cases volume.closed path with
    | none => simp [bind, Except.bind, Except.map, pure, Except.pure, eq_comm]
    | some e => simp [bind, Except.bind, Except.map, throw, throwThe, MonadExceptOf.throw]

/-- A prepared file takes the place of nothing. -/
theorem get?_of_prepare {path : Path} {staged : Location} (h : volume.prepare tree path = .ok staged) :
    tree.get? staged = none := by
  obtain ⟨directory, -, h⟩ := (bind_eq_ok_iff _ _ _).1 h
  obtain ⟨name, hname, hstaged⟩ := (bind_eq_ok_iff _ _ _).1 h
  cases hstaged
  exact volume.unused tree directory name hname

/-- A prepared file is moved to where its path leads in the tree without it, and nothing else stays of it. -/
theorem move_prepared_eq_ok_iff {staged : Location} (hstaged : tree.get? staged = none) (bytes : Bytes) (path : Path)
    (moved : FileTree) :
    volume.move (tree.put staged (.file bytes)) staged bytes path = .ok moved ↔
      volume.fixed path = none ∧
        ∃ target, tree.destination path = .ok target ∧ moved = tree.put target (.file bytes) := by
  have hsame : tree.SameDirectories (tree.put staged (.file bytes)) :=
    FileTree.sameDirectories_put (by simp [hstaged]) bytes
  have htarget (target : Location) : (tree.put staged (.file bytes)).destination path = .ok target ↔
      tree.destination path = .ok target := by
    rw [FileTree.destination_eq_ok_iff, FileTree.destination_eq_ok_iff, hsame.names_iff, ne_eq, hsame.directories]
  unfold move FileTree.move
  simp only [bind_eq_ok_iff, htarget, FileTree.erase_put, FileTree.erase_of_get?_eq_none hstaged]
  cases volume.fixed path with
  | none => simp [pure, Except.pure, eq_comm]
  | some e => simp [throw, throwThe, MonadExceptOf.throw]

end Volume

namespace MapFile

variable (map : MapFile) (volume : Volume) (g : Graph) (tree : FileTree)

/-! ## When a map is written -/

/-- The script of a graph can be written to a location: the template is a file that can be opened and has a script, a
file can be prepared, the script fits into it, and the output leads to that location and can be replaced. -/
structure Writes (script : Bytes) (target : Location) : Prop where
  template : ∃ bytes, tree.find map.template = .ok (.file bytes) ∧ render map.sentinel g { bytes } = .ok script
  opened : volume.closed map.template = none
  prepared : ∃ staged, volume.prepare tree map.output = .ok staged
  fits : volume.room.write script = .ok ()
  output : tree.destination map.output = .ok target
  replaced : volume.fixed map.output = none

variable {map volume g tree}

theorem fill_eq_ok_iff {staged : Location} (hstaged : tree.get? staged = none) (source : Source) (written : FileTree) :
    map.fill g source staged (tree.put staged (.file [])) volume = .ok written ↔
      ∃ script target, render map.sentinel g source = .ok script ∧ volume.room.write script = .ok () ∧
        volume.fixed map.output = none ∧ tree.destination map.output = .ok target ∧
          written = tree.put target (.file script) := by
  unfold fill
  constructor
  · intro h
    rcases hemit : emit map.sentinel g source volume.room with ⟨outcome, script⟩
    rw [hemit] at h
    obtain ⟨⟨⟩, rfl, hmove⟩ := (bind_eq_ok_iff _ _ _).1 h
    obtain ⟨hrender, hfits⟩ := (emit_eq_ok_iff _ _ _ _ _).1 hemit
    rw [mapError_eq_ok_iff, FileTree.put_put, volume.move_prepared_eq_ok_iff tree hstaged] at hmove
    obtain ⟨hfixed, target, htarget, hwritten⟩ := hmove
    exact ⟨script, target, hrender, hfits, hfixed, htarget, hwritten⟩
  · rintro ⟨script, target, hrender, hfits, hfixed, htarget, hwritten⟩
    rw [(emit_eq_ok_iff _ _ _ _ _).2 ⟨hrender, hfits⟩]
    refine (bind_eq_ok_iff _ _ _).2 ⟨(), rfl, ?_⟩
    rw [mapError_eq_ok_iff, FileTree.put_put, volume.move_prepared_eq_ok_iff tree hstaged]
    exact ⟨hfixed, target, htarget, hwritten⟩

/-- Once the template is opened and a file is prepared, filling it comes to writing the map. -/
theorem fill_opened_eq_ok_iff {staged : Location} {source : Source}
    (hopen : volume.openPath tree map.template = .ok source) (hprepare : volume.prepare tree map.output = .ok staged)
    (after : FileTree) :
    map.fill g source staged (tree.put staged (.file [])) volume = .ok after ↔
      ∃ script target, map.Writes volume g tree script target ∧ after = tree.put target (.file script) := by
  obtain ⟨hclosed, entry, hentry, rfl⟩ := (volume.openPath_eq_ok_iff tree map.template source).1 hopen
  rw [fill_eq_ok_iff (volume.get?_of_prepare tree hprepare)]
  constructor
  · rintro ⟨script, target, hrender, hfits, hfixed, htarget, hafter⟩
    refine ⟨script, target, ⟨?_, hclosed, ⟨staged, hprepare⟩, hfits, htarget, hfixed⟩, hafter⟩
    cases entry with
    | file bytes => exact ⟨bytes, hentry, hrender⟩
    | directory =>
      -- It was opened, but cannot be read.
      rw [render_directory] at hrender
      cases hrender
  · rintro ⟨script, target, ⟨⟨bytes, hfind, hrender⟩, -, -, hfits, htarget, hfixed⟩, hafter⟩
    rw [hentry, Except.ok.injEq] at hfind
    rw [hfind]
    exact ⟨script, target, hrender, hfits, hfixed, htarget, hafter⟩

/-- A map is written exactly when its parts allow it, and then the script is put at the place of the output. -/
theorem write_eq_ok_iff (after : FileTree) :
    map.write g tree volume = (.ok (), after) ↔
      ∃ script target, map.Writes volume g tree script target ∧ after = tree.put target (.file script) := by
  unfold write
  generalize hopened : (do return (← volume.openPath tree map.template, ← volume.prepare tree map.output) :
    Except FileError (Source × Location)) = opened
  have hparts (source : Source) (staged : Location) : opened = .ok (source, staged) ↔
      volume.openPath tree map.template = .ok source ∧ volume.prepare tree map.output = .ok staged := by
    rw [← hopened]
    simp [bind_eq_ok_iff, pure, Except.pure]
  cases opened with
  | error e =>
    simp only [Prod.mk.injEq, reduceCtorEq, false_and, false_iff]
    rintro ⟨script, target, hw, -⟩
    obtain ⟨bytes, hfind, -⟩ := hw.template
    obtain ⟨staged, hprepare⟩ := hw.prepared
    have hopen := (volume.openPath_eq_ok_iff tree map.template _).2 ⟨hw.opened, _, hfind, rfl⟩
    cases (hparts _ _).2 ⟨hopen, hprepare⟩
  | ok pair =>
    obtain ⟨source, staged⟩ := pair
    obtain ⟨hopen, hprepare⟩ := (hparts source staged).1 rfl
    rw [← fill_opened_eq_ok_iff hopen hprepare]
    dsimp only
    cases map.fill g source staged (tree.put staged (.file [])) volume <;> simp

/-- A failure leaves nothing behind. -/
theorem write_error {e : ScriptError} {after : FileTree} (h : map.write g tree volume = (.error e, after)) :
    after = tree := by
  unfold write at h
  dsimp only at h
  split at h
  · cases h
    rfl
  · rename_i source staged hopened
    split at h
    · cases h
    · obtain ⟨_, -, hrest⟩ := (bind_eq_ok_iff _ _ _).1 hopened
      obtain ⟨_, hprepare, hpair⟩ := (bind_eq_ok_iff _ _ _).1 hrest
      cases hpair
      cases h
      -- Nothing stood where the file was prepared, so taking it away gives the tree back.
      rw [FileTree.erase_put, FileTree.erase_of_get?_eq_none (volume.get?_of_prepare tree hprepare)]

/-! ## All or nothing -/

/-- Nothing but the output was written, and it holds the script of the graph for what the template held before. -/
structure Written (map : MapFile) (g : Graph) (before after : FileTree) : Prop where
  script : ∃ template script, before.find map.template = .ok (.file template) ∧
    render map.sentinel g { bytes := template } = .ok script ∧ after.find map.output = .ok (.file script)
  elsewhere : ∃ target, before.Names map.output target ∧ ∀ l ≠ target, after.get? l = before.get? l
  home : after.home = before.home

theorem Writes.written {script : Bytes} {target : Location} (h : map.Writes volume g tree script target) :
    map.Written g tree (tree.put target (.file script)) := by
  obtain ⟨bytes, hfind, hrender⟩ := h.template
  obtain ⟨hnames, hplain⟩ := (tree.destination_eq_ok_iff map.output target).1 h.output
  refine ⟨⟨bytes, script, hfind, hrender, FileTree.find_put_self hnames hplain script⟩, ⟨target, hnames, ?_⟩, rfl⟩
  exact fun l hl => tree.get?_put_of_ne _ hl

theorem written_of_write {after : FileTree} (h : map.write g tree volume = (.ok (), after)) :
    map.Written g tree after := by
  obtain ⟨script, target, hw, rfl⟩ := (write_eq_ok_iff after).1 h
  exact hw.written

/-- A map is written exactly when its parts allow it. Then the output holds the script and everything else is what it
was; after a failure everything is what it was. -/
theorem write_all_or_nothing (map : MapFile) (volume : Volume) (g : Graph) (tree : FileTree) :
    ((∃ after, map.write g tree volume = (.ok (), after)) ↔ ∃ script target, map.Writes volume g tree script target) ∧
      (∀ after, map.write g tree volume = (.ok (), after) → map.Written g tree after) ∧
      ∀ e after, map.write g tree volume = (.error e, after) → after = tree := by
  refine ⟨?_, fun after h => written_of_write h, fun e after h => write_error h⟩
  simp only [write_eq_ok_iff]
  exact ⟨fun ⟨_, script, target, h, _⟩ => ⟨script, target, h⟩, fun ⟨script, target, h⟩ => ⟨_, script, target, h, rfl⟩⟩

/-- A working directory with a template and with a map that was written before. -/
def desk : FileTree where
  entries := [(["work"], .directory), (["work", "town.nlogo"], .file (utf8 "; town\n;;===start\n")),
    (["work", "map.nlogo"], .file (utf8 "to generate-map"))]
  home := ["work"]

/-- The map of the template there, with a given sentinel and to a given output. -/
def ofTown (output sentinel : String) : MapFile := ⟨⟨"town.nlogo"⟩, ⟨output⟩, sentinel⟩

/-- The earlier map is replaced; with a sentinel that the template lacks, nothing happens to it. -/
theorem write_all_or_nothing_desk :
    ∃ g : Graph, g.Made ∧
      (∃ after, (ofTown "map.nlogo" defaultSentinel).write g desk = (.ok (), after) ∧
        (ofTown "map.nlogo" defaultSentinel).Written g desk after) ∧
      (ofTown "map.nlogo" "begin").write g desk = (.error (.malformedTemplate "begin"), desk) := by
  have hsome : (Call.runAll Call.crossing {}).2.product.isSome = true := by decide +kernel
  obtain ⟨g, hg⟩ := Option.isSome_iff_exists.1 hsome
  refine ⟨g, ⟨_, .inl hg⟩, ?_, ?_⟩
  · have hok : ((some g).map fun g => ((ofTown "map.nlogo" defaultSentinel).write g desk).1) = some (.ok ()) := by
      rw [← hg]
      decide +kernel
    obtain ⟨-, hwritten, -⟩ := write_all_or_nothing (ofTown "map.nlogo" defaultSentinel) .unlimited g desk
    have hw : (ofTown "map.nlogo" defaultSentinel).write g desk = (.ok (), _) := Prod.ext (Option.some.inj hok) rfl
    exact ⟨_, hw, hwritten _ hw⟩
  · obtain ⟨-, -, hfailed⟩ := write_all_or_nothing (ofTown "map.nlogo" "begin") .unlimited g desk
    have herror : ((ofTown "map.nlogo" "begin").write g desk).1 = .error (.malformedTemplate "begin") := rfl
    exact Prod.ext herror (hfailed _ _ (Prod.ext herror rfl))

/-! ## The template -/

/-- The template is kept exactly when no map is written over it. -/
theorem template_kept_iff (map : MapFile) (volume : Volume) (g : Graph) (tree : FileTree) :
    (map.write g tree volume).2.find map.template = tree.find map.template ↔
      ¬ ((map.write g tree volume).1 = .ok () ∧ ∃ l, tree.Names map.template l ∧ tree.Names map.output l) := by
  rcases hw : map.write g tree volume with ⟨outcome, after⟩
  cases outcome with
  | error e => simp [write_error hw]
  | ok =>
    obtain ⟨script, target, h, rfl⟩ := (write_eq_ok_iff after).1 hw
    obtain ⟨bytes, hfind, hrender⟩ := h.template
    obtain ⟨l, hl, -⟩ := (tree.find_eq_file_iff map.template bytes).1 hfind
    obtain ⟨hnames, hplain⟩ := (tree.destination_eq_ok_iff map.output target).1 h.output
    dsimp only
    by_cases he : l = target
    · subst he
      have hne : script ≠ bytes := ne_template_of_render hrender
      rw [FileTree.find_put_self hl hplain, hfind]
      simp only [Except.ok.injEq, FileEntry.file.injEq, hne, true_and, false_iff, not_not]
      exact ⟨l, hl, hnames⟩
    · rw [hfind, FileTree.find_put_of_ne hplain hl he, hfind]
      simp only [true_and, true_iff]
      rintro ⟨k, hk, hk'⟩
      exact he ((hl.unique hk).trans (hnames.unique hk').symm)

/-- A map that goes to its own template replaces it. -/
theorem template_not_always_kept :
    ∃ g : Graph, g.Made ∧ ((ofTown "town.nlogo" defaultSentinel).write g desk).1 = .ok () ∧
      ((ofTown "town.nlogo" defaultSentinel).write g desk).2.find ⟨"town.nlogo"⟩ ≠ desk.find ⟨"town.nlogo"⟩ := by
  have hsome : (Call.runAll Call.crossing {}).2.product.isSome = true := by decide +kernel
  obtain ⟨g, hg⟩ := Option.isSome_iff_exists.1 hsome
  refine ⟨g, ⟨_, .inl hg⟩, ?_, fun hfind => ?_⟩
  · have hok : ((some g).map fun g => ((ofTown "town.nlogo" defaultSentinel).write g desk).1) = some (.ok ()) := by
      rw [← hg]
      decide +kernel
    exact Option.some.inj hok
  · have hne : ((some g).map fun g => ((ofTown "town.nlogo" defaultSentinel).write g desk).2.find ⟨"town.nlogo"⟩) ≠
        some (desk.find ⟨"town.nlogo"⟩) := by
      rw [← hg]
      decide +kernel
    exact hne (congrArg some hfind)

end MapFile

end BeaconMap
