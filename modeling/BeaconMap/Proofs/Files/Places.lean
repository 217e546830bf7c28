import BeaconMap.Files.Volume
import BeaconMap.Proofs.Network.Indexes
/-!
# Where paths lead

A path names a file by the directories on its way and by one name in the last of them (`FileTree.Names`). A file that is
put where no directory stands leaves all directories where they are, so each path leads where it led before, and what is
found changes at the location of the file only (`find_put_self`, `find_put_of_ne`).
-/

namespace BeaconMap

namespace FileTree

/-! ## What stands at a location -/

theorem lookup_filter_ne {k l : Location} (h : k ≠ l) (entries : List (Location × FileEntry)) :
    (entries.filter fun (m, _) => m ≠ l).lookup k = entries.lookup k := by
  induction entries with
  | nil => rfl
  | cons entry rest ih =>
    obtain ⟨m, e⟩ := entry
    by_cases hm : m = l
    · subst hm
      rw [List.filter_cons_of_neg (by simp), ih, List.lookup_cons, beq_false_of_ne h]
    · rw [List.filter_cons_of_pos (by simpa using hm), List.lookup_cons, List.lookup_cons, ih]

section
variable (tree : FileTree) {k l : Location} (e : FileEntry)

theorem get?_put_self (h : l ≠ []) : (tree.put l e).get? l = some e := by
  rw [get?, if_neg h, put, List.lookup_cons, beq_self_eq_true]

theorem get?_put_of_ne (h : k ≠ l) : (tree.put l e).get? k = tree.get? k := by
  unfold get? put erase
  rw [List.lookup_cons, beq_false_of_ne h, lookup_filter_ne h]

theorem erase_put : (tree.put l e).erase l = tree.erase l := by
  unfold erase put erase
  rw [List.filter_cons_of_neg (by simp), List.filter_filter]
  simp

theorem put_put (e' : FileEntry) : (tree.put l e).put l e' = tree.put l e' := by
  rw [put, erase_put, put]
  rfl

end

theorem erase_of_get?_eq_none {tree : FileTree} {l : Location} (h : tree.get? l = none) : tree.erase l = tree := by
  have hne : l ≠ [] := by
    rintro rfl
    cases h
  rw [get?, if_neg hne, List.lookup_eq_none_iff] at h
  have hall : tree.entries.filter (fun (m, _) => m ≠ l) = tree.entries := by
    rw [List.filter_eq_self]
    exact fun entry hentry => decide_eq_true (Ne.symm (bne_iff_ne.1 (h entry hentry)))
  rw [erase, hall]

/-! ## Directories -/

/-- The same directories stand in both trees, and they have the same working directory. -/
structure SameDirectories (before after : FileTree) : Prop where
  home : after.home = before.home
  directories : ∀ l, after.get? l = some .directory ↔ before.get? l = some .directory

/-- A file does not take the place of a directory. -/
theorem sameDirectories_put {tree : FileTree} {l : Location} (h : tree.get? l ≠ some .directory) (bytes : Bytes) :
    tree.SameDirectories (tree.put l (.file bytes)) where
  home := rfl
  directories k := by
    by_cases hk : k = l
    · subst hk
      have hne : k ≠ [] := by
        rintro rfl
        exact h rfl
      simp [get?_put_self tree _ hne, h]
    · rw [get?_put_of_ne tree _ hk]

theorem enter_eq_ok_iff (tree : FileTree) (directory : Location) (name : String) (below : Location) :
    tree.enter directory name = .ok below ↔
      name = "." ∧ below = directory ∨ name ≠ "." ∧ name = ".." ∧ below = directory.dropLast ∨
        name ≠ "." ∧ name ≠ ".." ∧ checkName name = .ok () ∧ tree.get? (directory ++ [name]) = some .directory ∧
          below = directory ++ [name] := by
  unfold enter
  by_cases hdot : name = "."
  · simp [hdot, pure, Except.pure, eq_comm]
  by_cases hup : name = ".."
  · simp [hup, pure, Except.pure, eq_comm]
  rw [if_neg hdot, if_neg hup, bind_eq_ok_iff]
  constructor
  · rintro ⟨⟨⟩, hname, henter⟩
    refine .inr (.inr ⟨hdot, hup, hname, ?_⟩)
    cases hentry : tree.get? (directory ++ [name]) with
    | none => rw [hentry] at henter; cases henter
    | some entry =>
      rw [hentry] at henter
      cases entry with
      | file bytes => cases henter
      | directory => cases henter; exact ⟨rfl, rfl⟩
  · rintro (⟨h, -⟩ | ⟨-, h, -⟩ | ⟨-, -, hname, hentry, rfl⟩)
    · exact absurd h hdot
    · exact absurd h hup
    · exact ⟨(), hname, by rw [hentry]; rfl⟩

namespace SameDirectories

variable {before after : FileTree} (h : before.SameDirectories after)
include h

theorem enter_eq_ok_iff (directory : Location) (name : String) (below : Location) :
    after.enter directory name = .ok below ↔ before.enter directory name = .ok below := by
  rw [FileTree.enter_eq_ok_iff, FileTree.enter_eq_ok_iff, h.directories]

theorem follow_eq_ok_iff (path : Path) (names : List String) (directory : Location) :
    after.follow path names = .ok directory ↔ before.follow path names = .ok directory := by
  unfold follow
  rw [h.home]
  generalize (if path.isAbsolute = true then [] else before.home) = start
  induction names generalizing start with
  | nil => rfl
  | cons name rest ih => simp only [List.foldlM_cons, bind_eq_ok_iff, h.enter_eq_ok_iff, ih]

end SameDirectories

/-! ## Paths to files -/

/-- The path leads to a location as the location of a file: through directories to a name in the last of them. -/
def Names (tree : FileTree) (path : Path) (location : Location) : Prop :=
  checkPath .nameWithNul path = .ok () ∧ path.endsInSlash = false ∧
    ∃ directory name, path.steps.getLast? = some name ∧ name ≠ "." ∧ name ≠ ".." ∧ checkName name = .ok () ∧
      tree.follow path path.steps.dropLast = .ok directory ∧ location = directory ++ [name]

section
variable {tree : FileTree} {path : Path} {l : Location}

theorem Names.ne_nil (h : tree.Names path l) : l ≠ [] := by
  obtain ⟨-, -, directory, name, -, -, -, -, -, rfl⟩ := h
  simp

theorem Names.unique (h : tree.Names path l) {l' : Location} (h' : tree.Names path l') : l = l' := by
  obtain ⟨-, -, directory, name, hlast, -, -, -, hfollow, rfl⟩ := h
  obtain ⟨-, -, directory', name', hlast', -, -, -, hfollow', rfl⟩ := h'
  rw [hlast, Option.some.injEq] at hlast'
  rw [hfollow, Except.ok.injEq] at hfollow'
  rw [hlast', hfollow']

theorem SameDirectories.names_iff {before after : FileTree} (h : before.SameDirectories after) (path : Path)
    (l : Location) : after.Names path l ↔ before.Names path l := by
  simp only [Names, h.follow_eq_ok_iff]

/-- Whether a path can be looked up does not depend on how a NUL character is reported. -/
theorem checkPath_eq_ok_iff (withNul withNul' : FileError) (path : Path) :
    checkPath withNul path = .ok () ↔ checkPath withNul' path = .ok () := by
  unfold checkPath
  split <;> simp

/-- What is found is a file exactly when one stands where the path leads. -/
theorem find_eq_file_iff (tree : FileTree) (path : Path) (bytes : Bytes) :
    tree.find path = .ok (.file bytes) ↔ ∃ l, tree.Names path l ∧ tree.get? l = some (.file bytes) := by
  unfold find
  rw [bind_eq_ok_iff]
  constructor
  · rintro ⟨⟨⟩, hpath, hfind⟩
    obtain ⟨directory, hfollow, hfind⟩ := (bind_eq_ok_iff _ _ _).1 hfind
    cases hlast : path.steps.getLast? with
    | none => rw [hlast] at hfind; cases hfind
    | some name =>
      rw [hlast] at hfind
      dsimp only at hfind
      split at hfind
      · obtain ⟨_, -, hdirectory⟩ := (bind_eq_ok_iff _ _ _).1 hfind
        cases hdirectory
      · rename_i hplain
        obtain ⟨⟨⟩, hname, hentry⟩ := (bind_eq_ok_iff _ _ _).1 hfind
        simp only [Bool.or_eq_true, beq_iff_eq, not_or, Bool.not_eq_true] at hplain
        refine ⟨directory ++ [name], ⟨hpath, hplain.1.1, directory, name, hlast, hplain.1.2, hplain.2, hname,
          hfollow, rfl⟩, ?_⟩
        cases hget : tree.get? (directory ++ [name]) with
        | none => rw [hget] at hentry; cases hentry
        | some entry => rw [hget] at hentry; cases hentry; rfl
  · rintro ⟨l, ⟨hpath, hslash, directory, name, hlast, hdot, hup, hname, hfollow, rfl⟩, hget⟩
    refine ⟨(), hpath, (bind_eq_ok_iff _ _ _).2 ⟨directory, hfollow, ?_⟩⟩
    rw [hlast]
    dsimp only
    rw [if_neg (by simp [hslash, hdot, hup]), hname, hget]
    rfl

/-- A check in a sequence is passed, and what follows it succeeds. -/
theorem ite_throw_eq_ok_iff {ε α β : Type} {p : Prop} [Decidable p] (e : ε) (f : β → Except ε α) (x : Except ε α)
    (a : α) : (if p then throw e >>= f else x) = .ok a ↔ ¬ p ∧ x = .ok a :=
  ite_error_eq_ok_iff e x a

/-- A file can be moved to a path exactly when no directory stands where the path leads. -/
theorem destination_eq_ok_iff (tree : FileTree) (path : Path) (l : Location) :
    tree.destination path = .ok l ↔ tree.Names path l ∧ tree.get? l ≠ some .directory := by
  unfold destination
  rw [bind_eq_ok_iff]
  constructor
  · rintro ⟨⟨⟩, hpath, hdestination⟩
    obtain ⟨directory, hfollow, hdestination⟩ := (bind_eq_ok_iff _ _ _).1 hdestination
    cases hlast : path.steps.getLast? with
    | none => rw [hlast] at hdestination; cases hdestination
    | some name =>
      rw [hlast] at hdestination
      obtain ⟨hplain, hdestination⟩ := (ite_throw_eq_ok_iff _ _ _ _).1 hdestination
      obtain ⟨⟨⟩, hname, hdestination⟩ := (bind_eq_ok_iff _ _ _).1 hdestination
      obtain ⟨hslash, hdestination⟩ := (ite_throw_eq_ok_iff _ _ _ _).1 hdestination
      obtain ⟨hget, hl⟩ := (ite_throw_eq_ok_iff _ _ _ _).1 hdestination
      cases hl
      rw [not_or] at hplain
      exact ⟨⟨(checkPath_eq_ok_iff _ _ _).1 hpath, Bool.not_eq_true _ ▸ hslash, directory, name, hlast, hplain.1,
        hplain.2, hname, hfollow, rfl⟩, hget⟩
  · rintro ⟨⟨hpath, hslash, directory, name, hlast, hdot, hup, hname, hfollow, rfl⟩, hget⟩
    refine ⟨(), (checkPath_eq_ok_iff _ _ _).1 hpath, (bind_eq_ok_iff _ _ _).2 ⟨directory, hfollow, ?_⟩⟩
    rw [hlast]
    refine (ite_throw_eq_ok_iff _ _ _ _).2 ⟨by simp [hdot, hup], (bind_eq_ok_iff _ _ _).2 ⟨(), hname, ?_⟩⟩
    refine (ite_throw_eq_ok_iff _ _ _ _).2 ⟨by simp [hslash], ?_⟩
    exact (ite_throw_eq_ok_iff _ _ _ _).2 ⟨hget, rfl⟩

/-! ## Putting a file -/

/-- A file that was put where a path leads is found there. -/
theorem find_put_self (h : tree.Names path l) (hl : tree.get? l ≠ some .directory) (bytes : Bytes) :
    (tree.put l (.file bytes)).find path = .ok (.file bytes) := by
  rw [find_eq_file_iff]
  exact ⟨l, ((sameDirectories_put hl bytes).names_iff path l).2 h, get?_put_self tree _ h.ne_nil⟩

/-- A file that a path leads to is found as before when another one is put elsewhere. -/
theorem find_put_of_ne (hl : tree.get? l ≠ some .directory) {k : Location} (hk : tree.Names path k) (hne : k ≠ l)
    (bytes other : Bytes) :
    (tree.put l (.file other)).find path = .ok (.file bytes) ↔ tree.find path = .ok (.file bytes) := by
  rw [find_eq_file_iff, find_eq_file_iff]
  simp only [(sameDirectories_put hl other).names_iff]
  refine exists_congr fun k' => and_congr_right fun hk' => ?_
  obtain rfl := hk.unique hk'
  rw [get?_put_of_ne tree _ hne]

end

end FileTree

end BeaconMap
