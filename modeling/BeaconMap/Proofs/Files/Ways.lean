import BeaconMap.Files.Creation
import BeaconMap.Proofs.Files.Places
/-!
# What is made on the way of a path

Making directories takes nothing away and changes nothing: a directory is new only where nothing stood (`Adds`), and only
where following the path comes by (`makeWay_adds`).
-/

namespace BeaconMap

namespace FileTree

/-! ## Trees that grow -/

/-- Everything that stood in a tree stands there unchanged, and what is new is as `New` says. -/
structure Adds (New : Location → FileEntry → Prop) (before after : FileTree) : Prop where
  home : after.home = before.home
  kept : ∀ l entry, before.get? l = some entry → after.get? l = some entry
  new : ∀ l entry, before.get? l = none → after.get? l = some entry → New l entry

section
variable {New New' : Location → FileEntry → Prop}

theorem Adds.refl (tree : FileTree) : tree.Adds New tree where
  home := rfl
  kept _ _ h := h
  new _ _ hnone h := by
    rw [hnone] at h
    cases h

theorem Adds.trans {a b c : FileTree} (hab : a.Adds New b) (hbc : b.Adds New c) : a.Adds New c where
  home := hbc.home.trans hab.home
  kept l entry h := hbc.kept l entry (hab.kept l entry h)
  new l entry hnone h := by
    cases hb : b.get? l with
    | none => exact hbc.new l entry hb h
    | some entry' =>
      rw [hbc.kept l entry' hb, Option.some.injEq] at h
      exact h ▸ hab.new l entry' hnone hb

theorem Adds.mono {before after : FileTree} (h : before.Adds New after) (hnew : ∀ l entry, New l entry → New' l entry) :
    before.Adds New' after where
  home := h.home
  kept := h.kept
  new l entry hnone hsome := hnew l entry (h.new l entry hnone hsome)

theorem adds_put {tree : FileTree} {l : Location} (hl : tree.get? l = none) {entry : FileEntry} (hnew : New l entry) :
    tree.Adds New (tree.put l entry) where
  home := rfl
  kept k entry' hk := by
    have hne : k ≠ l := by
      rintro rfl
      rw [hl] at hk
      cases hk
    rwa [get?_put_of_ne tree _ hne]
  new k entry' hnone hk := by
    by_cases he : k = l
    · subst he
      have hne : k ≠ [] := by
        rintro rfl
        cases hl
      rw [get?_put_self tree _ hne, Option.some.injEq] at hk
      exact hk ▸ hnew
    · rw [get?_put_of_ne tree _ he, hnone] at hk
      cases hk

end

/-! ## Making directories -/

/-- The location that a name leads to, whatever stands there. -/
def next (here : Location) (name : String) : Location :=
  if name = "." then here else if name = ".." then here.dropLast else here ++ [name]

/-- The locations that following names from a location comes by. -/
def way (here : Location) : List String → List Location
  | [] => []
  | name :: names => next here name :: way (next here name) names

theorem way_append (here : Location) (names more : List String) :
    ∃ there, way here (names ++ more) = way here names ++ way there more := by
  induction names generalizing here with
  | nil => exact ⟨here, rfl⟩
  | cons name names ih =>
    obtain ⟨there, h⟩ := ih (next here name)
    exact ⟨there, congrArg _ h⟩

theorem way_subset {here : Location} {names more : List String} (h : names <+: more) : way here names ⊆ way here more := by
  obtain ⟨rest, rfl⟩ := h
  obtain ⟨there, h⟩ := way_append here names rest
  rw [h]
  exact List.subset_append_left _ _

theorem visited_eq (home : Location) (path : Path) :
    visited home path = way (if path.isAbsolute then [] else home) path.steps := by
  unfold visited
  generalize (if path.isAbsolute then [] else home) = start
  have hfold (seen : List Location) (names : List String) :
      names.foldl (fun seen name => seen ++ [next (seen.getLast?.getD start) name]) seen =
        seen ++ way (seen.getLast?.getD start) names := by
    induction names generalizing seen with
    | nil => exact (List.append_nil seen).symm
    | cons name names ih =>
      rw [List.foldl_cons, ih, way, List.append_assoc, List.getLast?_concat, Option.getD_some]
      rfl
  exact hfold [] path.steps

theorem eq_next_of_enter {tree : FileTree} {here below : Location} {name : String} (h : tree.enter here name = .ok below) :
    below = next here name := by
  unfold next
  rcases (enter_eq_ok_iff _ _ _ _).1 h with ⟨hdot, rfl⟩ | ⟨hdot, hup, rfl⟩ | ⟨hdot, hup, -, -, rfl⟩
  · rw [if_pos hdot]
  · rw [if_neg hdot, if_pos hup]
  · rw [if_neg hdot, if_neg hup]

theorem checkName_ne_noSuchFile (name : String) : checkName name ≠ .error .noSuchFile := by
  unfold checkName
  split <;> simp

theorem enter_eq_noSuchFile {tree : FileTree} {here : Location} {name : String}
    (h : tree.enter here name = .error .noSuchFile) :
    here ++ [name] = next here name ∧ tree.get? (here ++ [name]) = none := by
  unfold enter at h
  by_cases hdot : name = "."
  · rw [if_pos hdot] at h
    cases h
  by_cases hup : name = ".."
  · rw [if_neg hdot, if_pos hup] at h
    cases h
  rw [if_neg hdot, if_neg hup] at h
  rcases (bind_eq_error_iff _ _ _).1 h with h | ⟨⟨⟩, -, h⟩
  · exact absurd h (checkName_ne_noSuchFile name)
  · refine ⟨by rw [next, if_neg hdot, if_neg hup], ?_⟩
    cases hget : tree.get? (here ++ [name]) with
    | none => rfl
    | some entry =>
      rw [hget] at h
      cases entry <;> cases h

/-- A directory that is made stands where nothing stood, on the way of the names. -/
theorem makeBelow_adds (barred : Location → Bool) (tree : FileTree) (here : Location) (names : List String) :
    tree.Adds (fun l entry => entry = .directory ∧ l ∈ way here names) (makeBelow barred tree here names) := by
  induction names generalizing tree here with
  | nil => exact .refl tree
  | cons name names ih =>
    have hrest (tree : FileTree) : tree.Adds (fun l entry => entry = .directory ∧ l ∈ way here (name :: names))
        (makeBelow barred tree (next here name) names) :=
      (ih tree (next here name)).mono fun l entry h => ⟨h.1, List.mem_cons_of_mem _ h.2⟩
    rw [makeBelow]
    cases henter : tree.enter here name with
    | ok below =>
      rw [eq_next_of_enter henter]
      exact hrest tree
    | error e =>
      cases e with
      | noSuchFile =>
        obtain ⟨hnext, hnone⟩ := enter_eq_noSuchFile henter
        dsimp only
        rw [hnext] at hnone ⊢
        split
        · exact .refl tree
        · exact (adds_put hnone ⟨rfl, List.mem_cons_self⟩).trans (hrest _)
      | _ => exact .refl tree

end FileTree

/-! ## The beginning of a path -/

namespace Path

theorem cutAt_eq_splitOn (mark : Char) (text : List Char) : cutAt mark text = text.splitOn mark := by
  induction text with
  | nil => rfl
  | cons c rest ih =>
    rw [cutAt, List.splitOn_cons_eq_if_modifyHead, ih]
    by_cases hc : c = mark
    · simp [hc]
    · rw [if_neg hc, if_neg (by simpa using hc)]
      cases hpieces : rest.splitOn mark with
      | nil => exact absurd hpieces (List.splitOn_ne_nil _ _)
      | cons piece pieces => rfl

theorem not_mem_of_mem_cutAt {mark : Char} {text piece : List Char} (h : piece ∈ cutAt mark text) : mark ∉ piece := by
  induction text generalizing piece with
  | nil =>
    rw [cutAt, List.mem_singleton] at h
    exact h ▸ List.not_mem_nil
  | cons c rest ih =>
    rw [cutAt] at h
    by_cases hc : c = mark
    · rw [if_pos hc] at h
      rcases List.mem_cons.1 h with rfl | h
      · exact List.not_mem_nil
      · exact ih h
    · rw [if_neg hc] at h
      cases hpieces : cutAt mark rest with
      | nil =>
        rw [hpieces, List.mem_singleton] at h
        exact h ▸ List.not_mem_cons_of_ne_of_not_mem (Ne.symm hc) List.not_mem_nil
      | cons first pieces =>
        rw [hpieces] at h ih
        rcases List.mem_cons.1 h with rfl | h
        · exact List.not_mem_cons_of_ne_of_not_mem (Ne.symm hc) (ih List.mem_cons_self)
        · exact ih (List.mem_cons_of_mem _ h)

theorem intercalate_prefix_intercalate {α : Type} (separator : List α) {pieces all : List (List α)} (h : pieces <+: all) :
    separator.intercalate pieces <+: separator.intercalate all := by
  obtain ⟨more, rfl⟩ := h
  induction pieces with
  | nil => exact List.nil_prefix
  | cons piece pieces ih =>
    cases pieces with
    | nil =>
      cases more with
      | nil => exact List.prefix_rfl
      | cons next more =>
        rw [List.intercalate_singleton, List.singleton_append, List.intercalate_cons_cons, List.append_assoc]
        exact List.prefix_append _ _
    | cons next pieces =>
      rw [List.cons_append, List.cons_append, List.intercalate_cons_cons, List.intercalate_cons_cons]
      exact (List.prefix_append_right_inj _).2 ih

/-- The path with these pieces between its slashes. -/
def ofPieces (pieces : List (List Char)) : Path := ⟨"/".intercalate (pieces.map String.ofList)⟩

theorem toList_ofPieces (pieces : List (List Char)) : (ofPieces pieces).text.toList = ['/'].intercalate pieces := by
  rw [ofPieces, String.toList_intercalate, List.map_map]
  simp [Function.comp_def]

section
variable {p : Path} {pieces : List (List Char)} (h : pieces <+: cutAt '/' p.text.toList)
include h

theorem ofPieces_prefix_steps : (ofPieces pieces).steps <+: p.steps := by
  have hcut : pieces ≠ [] → cutAt '/' (ofPieces pieces).text.toList = pieces := by
    intro hne
    rw [toList_ofPieces, cutAt_eq_splitOn]
    exact List.splitOn_intercalate _ (fun piece hp => not_mem_of_mem_cutAt (h.subset hp)) hne
  by_cases hne : pieces = []
  · subst hne
    exact List.nil_prefix
  · unfold steps
    rw [hcut hne]
    exact h.filterMap _

theorem isAbsolute_ofPieces (hne : (ofPieces pieces).text.isEmpty = false) :
    (ofPieces pieces).isAbsolute = p.isAbsolute := by
  have hprefix : (ofPieces pieces).text.toList <+: p.text.toList := by
    have hall := intercalate_prefix_intercalate ['/'] h
    rwa [cutAt_eq_splitOn, List.intercalate_splitOn, ← toList_ofPieces] at hall
  obtain ⟨rest, hrest⟩ := hprefix
  unfold isAbsolute
  rw [← hrest]
  cases htext : (ofPieces pieces).text.toList with
  | nil => simp [String.toList_eq_nil_iff.1 htext] at hne
  | cons c more => rfl

end

/-- What the parent is made of: the first piece apart, when it counts, and the others from the last. -/
theorem parent_eq (p : Path) :
    ∃ start rest, start ++ rest = cutAt '/' p.text.toList ∧ p.parent = match rest.reverse.dropWhile isIdle with
      | [] => ⟨""⟩
      | _ :: before =>
        if start ++ (before.dropWhile isIdle).reverse = [[]] then ⟨"/"⟩
        else ofPieces (start ++ (before.dropWhile isIdle).reverse) := by
  unfold parent
  split
  rename_i start rest hparts
  refine ⟨start, rest, ?_, rfl⟩
  split at hparts <;> cases hparts <;> simp [*]

theorem parent_prefix_steps (p : Path) : p.parent.steps <+: p.steps := by
  obtain ⟨start, rest, hcut, hparent⟩ := p.parent_eq
  rw [hparent]
  split
  · exact List.nil_prefix
  · rename_i last before hrest
    split
    · exact List.nil_prefix
    · refine ofPieces_prefix_steps ?_
      have hsuffix : before.dropWhile isIdle <:+ rest.reverse :=
        (List.dropWhile_suffix _).trans ((List.suffix_cons last before).trans (hrest ▸ List.dropWhile_suffix _))
      rw [← hcut, List.prefix_append_right_inj]
      simpa using List.reverse_prefix.2 hsuffix

end Path

namespace FileTree

theorem makeable_prefix_steps (p : Path) : makeable p <+: p.steps := by
  unfold makeable
  split
  · exact p.parent_prefix_steps
  · exact List.prefix_rfl

/-- The directories that are made above a path lie on its way. -/
theorem makeWay_adds (barred : Location → Bool) (tree : FileTree) (p : Path) :
    tree.Adds (fun l entry => entry = .directory ∧ l ∈ visited tree.home p) (makeWay barred tree p.beforeLastSlash) := by
  have hpieces : (cutAt '/' p.text.toList).dropLast <+: cutAt '/' p.text.toList := List.dropLast_prefix _
  unfold makeWay
  split
  · rename_i hcheck
    have hne : p.beforeLastSlash.text.isEmpty = false := by
      obtain ⟨-, hcheck⟩ := (ite_error_eq_ok_iff _ _ _).1 hcheck
      obtain ⟨-, hcheck⟩ := (ite_error_eq_ok_iff _ _ _).1 hcheck
      exact Bool.not_eq_true _ ▸ ((ite_error_eq_ok_iff _ _ _).1 hcheck).1
    have hsteps : makeable p.beforeLastSlash <+: p.steps :=
      (makeable_prefix_steps _).trans (Path.ofPieces_prefix_steps hpieces)
    refine (makeBelow_adds barred tree _ _).mono fun l entry h => ⟨h.1, ?_⟩
    rw [visited_eq, ← show p.beforeLastSlash.isAbsolute = _ from Path.isAbsolute_ofPieces hpieces hne]
    exact way_subset hsteps h.2
  · exact .refl tree

end FileTree

end BeaconMap
