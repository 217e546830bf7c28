import BeaconMap.Files.Creation
import BeaconMap.Script.Template
/-!
# Volumes

A path may lead to a file that is not opened, or to a place that no file is moved to. A `Volume` is what a program meets
beside the file tree: what is refused in this way, the names of files that are being prepared, and how much they take.
-/

namespace BeaconMap

namespace FileTree

theorem foldl_max_ge (lengths : List Nat) (start : Nat) :
    start ≤ lengths.foldl max start ∧ ∀ n ∈ lengths, n ≤ lengths.foldl max start := by
  induction lengths generalizing start with
  | nil => exact ⟨Nat.le_refl _, fun n hn => nomatch hn⟩
  | cons first rest ih =>
    obtain ⟨hstart, hrest⟩ := ih (max start first)
    refine ⟨Nat.le_trans (Nat.le_max_left ..) hstart, fun n hn => ?_⟩
    rcases List.mem_cons.1 hn with rfl | hn
    · exact Nat.le_trans (Nat.le_max_right ..) hstart
    · exact hrest n hn

/-- An unused name is longer than all names that are in use. -/
theorem length_lt_unusedName (tree : FileTree) {entry : Location × FileEntry} (hentry : entry ∈ tree.entries)
    {name : String} (hname : name ∈ entry.1) : name.length < tree.unusedName.length := by
  have hlength : name.length ∈ tree.entries.flatMap fun entry => entry.1.map String.length :=
    List.mem_flatMap.2 ⟨entry, hentry, List.mem_map_of_mem hname⟩
  have htmp : ".tmp".length = 4 := by decide
  unfold unusedName
  simp only [String.length_append, String.length_ofList, List.length_replicate, htmp]
  exact Nat.lt_of_le_of_lt ((foldl_max_ge _ 0).2 _ hlength) (Nat.lt_add_of_pos_left (by decide))

/-- Nothing has an unused name. -/
theorem get?_unusedName (tree : FileTree) (directory : Location) : tree.get? (directory ++ [tree.unusedName]) = none := by
  rw [get?, if_neg (by simp), List.lookup_eq_none_iff]
  intro entry hentry
  refine bne_iff_ne.2 fun he => ?_
  have hname : tree.unusedName ∈ entry.1 := by
    rw [← he]
    exact List.mem_append_right _ List.mem_cons_self
  exact Nat.lt_irrefl _ (tree.length_lt_unusedName hentry hname)

end FileTree

/-- What a program meets beside the file tree. -/
structure Volume where
  /-- Why the file that a path leads to is not opened, if it is not. -/
  closed : Path → Option FileError := fun _ => none
  /-- The name of a file that is prepared in a directory, or why none can be prepared there. -/
  freshName : FileTree → Location → Except FileError String
  /-- A prepared file takes the place of nothing. -/
  unused : ∀ tree directory name, freshName tree directory = .ok name → tree.get? (directory ++ [name]) = none
  /-- What takes the bytes of a prepared file. -/
  room : Sink := {}
  /-- Why a prepared file is not moved to a path, if it is not. -/
  fixed : Path → Option FileError := fun _ => none
  /-- No directory can be made at a location. -/
  barred : Location → Bool := fun _ => false

namespace Volume

/-- The volume that refuses nothing. -/
def unlimited : Volume where
  freshName tree _ := .ok tree.unusedName
  unused tree directory _ h := by cases h; exact tree.get?_unusedName directory

/-- Opens what a path leads to. -/
def openPath (volume : Volume) (tree : FileTree) (path : Path) : Except FileError Source := do
  let source ← tree.openPath path
  match volume.closed path with
  | some error => throw error
  | none => return source

/-- The text of the file that a path leads to. -/
def readText (volume : Volume) (tree : FileTree) (path : Path) : Except FileError String := do
  (← volume.openPath tree path).text

/-- Opens the file of a path to be appended to: where it stands, and the tree after that. -/
def openToAppend (volume : Volume) (tree : FileTree) (path : Path) : Except FileError (Location × FileTree) := do
  let opened ← tree.openToAppend path
  match volume.closed path with
  | some error => throw error
  | none => return opened

/-- The location of a file to be prepared that is to be moved to a path. -/
def prepare (volume : Volume) (tree : FileTree) (path : Path) : Except FileError Location := do
  let directory ← tree.directoryOf path
  return directory ++ [← volume.freshName tree directory]

/-- Moves a prepared file with these bytes from a location to a path, over the file that is there. -/
def move (volume : Volume) (tree : FileTree) (source : Location) (bytes : Bytes) (path : Path) :
    Except FileError FileTree := do
  let moved ← tree.move source bytes path
  match volume.fixed path with
  | some error => throw error
  | none => return moved

end Volume

end BeaconMap
