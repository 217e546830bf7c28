import BeaconMap.Generation.Log
import BeaconMap.Proofs.Files.Ways
/-!
# What becomes of a log file

A file that is opened to be appended to is there already, or a new empty one is put where the path leads
(`openToAppend_eq_ok_iff`). So opening a log file makes that file and directories on its way, and leaves everything else as
it was (`LogFile.makes_ready`). While it is open it may get longer, and nothing else changes (`FileTree.Grows`): every path
leads where it led before, and what is found in another file is the same.
-/

namespace BeaconMap

namespace FileTree

/-! ## Opening a file to append -/

/-- A file is opened to be appended to exactly when a path leads to it, or to where nothing stands; then it is made. -/
theorem openToAppend_eq_ok_iff (tree : FileTree) (path : Path) (l : Location) (after : FileTree) :
    tree.openToAppend path = .ok (l, after) ↔
      tree.Names path l ∧ ((∃ bytes, tree.get? l = some (.file bytes)) ∧ after = tree ∨
        tree.get? l = none ∧ after = tree.put l (.file [])) := by
  unfold openToAppend
  rw [bind_eq_ok_iff]
  constructor
  · rintro ⟨⟨⟩, hpath, hopen⟩
    obtain ⟨directory, hfollow, hopen⟩ := (bind_eq_ok_iff _ _ _).1 hopen
    cases hlast : path.steps.getLast? with
    | none => rw [hlast] at hopen; cases hopen
    | some name =>
      rw [hlast] at hopen
      obtain ⟨hplain, hopen⟩ := (ite_throw_eq_ok_iff _ _ _ _).1 hopen
      obtain ⟨⟨⟩, hname, hopen⟩ := (bind_eq_ok_iff _ _ _).1 hopen
      simp only [not_or, Bool.not_eq_true] at hplain
      have hnames : tree.Names path (directory ++ [name]) :=
        ⟨hpath, hplain.1, directory, name, hlast, hplain.2.1, hplain.2.2, hname, hfollow, rfl⟩
      cases hget : tree.get? (directory ++ [name]) with
      | none => rw [hget] at hopen; cases hopen; exact ⟨hnames, .inr ⟨hget, rfl⟩⟩
      | some entry =>
        rw [hget] at hopen
        cases entry with
        | file bytes => cases hopen; exact ⟨hnames, .inl ⟨⟨bytes, hget⟩, rfl⟩⟩
        | directory => cases hopen
  · rintro ⟨⟨hpath, hslash, directory, name, hlast, hdot, hup, hname, hfollow, rfl⟩, hentry⟩
    refine ⟨(), hpath, (bind_eq_ok_iff _ _ _).2 ⟨directory, hfollow, ?_⟩⟩
    rw [hlast]
    refine (ite_throw_eq_ok_iff _ _ _ _).2 ⟨by simp [hslash, hdot, hup], (bind_eq_ok_iff _ _ _).2 ⟨(), hname, ?_⟩⟩
    rcases hentry with ⟨⟨bytes, hget⟩, rfl⟩ | ⟨hget, rfl⟩ <;> rw [hget] <;> rfl

/-- A file that is opened to be appended to stands where its path leads, and only it may be new. -/
theorem names_of_openToAppend {tree after : FileTree} {path : Path} {l : Location}
    (h : tree.openToAppend path = .ok (l, after)) :
    after.Names path l ∧ tree.Adds (fun k entry => k = l ∧ entry = .file []) after := by
  obtain ⟨hnames, ⟨-, rfl⟩ | ⟨hnone, rfl⟩⟩ := (tree.openToAppend_eq_ok_iff _ _ _).1 h
  · exact ⟨hnames, .refl _⟩
  · have hsame := sameDirectories_put (show tree.get? l ≠ some .directory by simp [hnone]) []
    exact ⟨(hsame.names_iff _ _).2 hnames, adds_put hnone ⟨rfl, rfl⟩⟩

/-! ## A file that gets longer -/

/-- Everything is as it was, but that the file at a location, if one is given, may have got more at its end. -/
structure Grows (file : Option Location) (before after : FileTree) : Prop where
  home : after.home = before.home
  held : ∀ l, after.get? l = before.get? l ∨ file = some l ∧ ∃ bytes more,
    before.get? l = some (.file bytes) ∧ after.get? l = some (.file (bytes ++ more))

namespace Grows

variable {file : Option Location} {a b c : FileTree}

theorem refl (tree : FileTree) : tree.Grows file tree := ⟨rfl, fun _ => .inl rfl⟩

theorem trans (hab : a.Grows file b) (hbc : b.Grows file c) : a.Grows file c where
  home := hbc.home.trans hab.home
  held l := by
    rcases hbc.held l with h | ⟨hl, bytes, more, hb, hc⟩
    · rw [h]
      exact hab.held l
    · rcases hab.held l with h | ⟨-, bytes', more', ha, hb'⟩
      · exact .inr ⟨hl, bytes, more, h ▸ hb, hc⟩
      · rw [hb, Option.some.injEq, FileEntry.file.injEq] at hb'
        exact .inr ⟨hl, bytes', more' ++ more, ha, by rw [hc, hb', List.append_assoc]⟩

variable (h : a.Grows file b)
include h

theorem get?_of_ne {l : Location} (hl : file ≠ some l) : b.get? l = a.get? l :=
  (h.held l).resolve_right fun hgrown => hl hgrown.1

theorem sameDirectories : a.SameDirectories b where
  home := h.home
  directories l := by
    rcases h.held l with hl | ⟨-, bytes, more, ha, hb⟩
    · rw [hl]
    · simp [ha, hb]

/-- What is found in another file is the same. -/
theorem find_eq_file_iff {path : Path} {l : Location} (hl : a.Names path l) (hne : file ≠ some l) (bytes : Bytes) :
    b.find path = .ok (.file bytes) ↔ a.find path = .ok (.file bytes) := by
  rw [FileTree.find_eq_file_iff, FileTree.find_eq_file_iff]
  simp only [h.sameDirectories.names_iff]
  refine exists_congr fun k => and_congr_right fun hk => ?_
  obtain rfl := hl.unique hk
  rw [h.get?_of_ne hne]

end Grows

theorem grows_append (tree : FileTree) (l : Location) (more : Bytes) : tree.Grows (some l) (tree.append l more) := by
  unfold append
  split
  · rename_i bytes hl
    refine ⟨rfl, fun k => ?_⟩
    by_cases hk : k = l
    · subst hk
      have hne : k ≠ [] := by
        rintro rfl
        cases hl
      exact .inr ⟨rfl, bytes, more, hl, get?_put_self tree _ hne⟩
    · exact .inl (get?_put_of_ne tree _ hk)
  · exact .refl tree

end FileTree

/-- What a volume opens, the tree does. -/
theorem Volume.openToAppend_eq_ok {volume : Volume} {tree : FileTree} {path : Path} {opened : Location × FileTree}
    (h : volume.openToAppend tree path = .ok opened) : tree.openToAppend path = .ok opened := by
  obtain ⟨opened', hopen, hclosed⟩ := (bind_eq_ok_iff _ _ _).1 h
  cases hreason : volume.closed path with
  | none =>
    rw [hreason] at hclosed
    rwa [← Except.ok.inj hclosed]
  | some e =>
    rw [hreason] at hclosed
    cases hclosed

/-! ## Log files -/

namespace LogFile

/-- What may be new for the sake of a log file: directories on its way, and the file itself, with nothing in it. -/
def MayBeNew (name : Option String) (before after : FileTree) (l : Location) (entry : FileEntry) : Prop :=
  ∃ text, name = some text ∧
    (entry = .directory ∧ l ∈ FileTree.visited before.home (path text) ∨ entry = .file [] ∧ after.Names (path text) l)

/-- Nothing is changed or taken away, and what is new is there for the sake of the log file, if there is one. -/
def Makes (name : Option String) (before after : FileTree) : Prop := before.Adds (MayBeNew name before after) after

/-- Whether or not a log file can be opened, nothing is made but for its sake. -/
theorem makes_ready (name : String) (tree : FileTree) (volume : Volume) :
    Makes (some name) tree (ready name tree volume).2 := by
  have hreached (after : FileTree) : tree.Adds (MayBeNew (some name) tree after)
      (FileTree.makeWay volume.barred tree (path name).beforeLastSlash) :=
    (FileTree.makeWay_adds volume.barred tree (path name)).mono fun l entry h => ⟨name, rfl, .inl h⟩
  unfold ready
  generalize FileTree.makeWay volume.barred tree (path name).beforeLastSlash = reached at hreached ⊢
  dsimp only
  cases hopen : volume.openToAppend reached (path name) with
  | error e => exact hreached reached
  | ok opened =>
    obtain ⟨hnames, hadds⟩ := FileTree.names_of_openToAppend (volume.openToAppend_eq_ok hopen)
    exact (hreached _).trans (hadds.mono fun l entry h => ⟨name, rfl, .inr ⟨h.2, h.1 ▸ hnames⟩⟩)

/-- A log file that is open stands where its path leads. -/
theorem names_of_ready {name : String} {tree : FileTree} {volume : Volume} {l : Location}
    (h : (ready name tree volume).1 = .ok l) : (ready name tree volume).2.Names (path name) l := by
  unfold ready at h ⊢
  generalize FileTree.makeWay volume.barred tree (path name).beforeLastSlash = reached at h ⊢
  dsimp only at h ⊢
  cases hopen : volume.openToAppend reached (path name) with
  | error e =>
    rw [hopen] at h
    cases h
  | ok opened =>
    rw [hopen] at h
    cases h
    exact (FileTree.names_of_openToAppend (volume.openToAppend_eq_ok hopen)).1

/-- Messages make a log file longer, and change nothing else. -/
theorem grows_record (file : Option LogFile) (log : Log) (tree : FileTree) :
    tree.Grows (file.map location) (record file log tree) := by
  cases file with
  | none => exact .refl tree
  | some file => exact tree.grows_append file.location (file.more log)

/-- All that a run may leave behind for the sake of a log file: the file is made with directories on its way, and then it
may have got longer. -/
def Leaves (name : Option String) (before after : FileTree) : Prop :=
  ∃ opened log, Makes name before opened ∧
    (∀ l, log = some l → ∃ text, name = some text ∧ opened.Names (path text) l) ∧ opened.Grows log after

end LogFile

end BeaconMap
