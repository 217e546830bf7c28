import BeaconMap.Proofs.Network.Asked
import BeaconMap.Proofs.Network.Runs
/-!
# Placing a description

A description is placed item by item on a new product, up to the first item that fails. All of them are placed when
no item is a misfit and the calls fit together (`Description.Fits`); then the product is the record of the calls, and
`apply` hands it over if it is connected. Otherwise `apply` fails. What the builder held before makes no difference.
-/

namespace BeaconMap

namespace Item

theorem call_ne_start (item : Item) : item.call ≠ .start := by
  rcases item with b | ⟨kind, _, _, _, _⟩ | ⟨⟨kind, _, _, _, _⟩, s⟩ | ⟨id, c, optional⟩ | e <;>
    first | (cases kind <;> exact Call.noConfusion) | exact Call.noConfusion

theorem call_ne_finalize (item : Item) : item.call ≠ .finalize := by
  rcases item with b | ⟨kind, _, _, _, _⟩ | ⟨⟨kind, _, _, _, _⟩, s⟩ | ⟨id, c, optional⟩ | e <;>
    first | (cases kind <;> exact Call.noConfusion) | exact Call.noConfusion

/-- A misfit is refused; any other item is placed by its call. -/
theorem place_run (item : Item) (b : Builder) :
    item.place b = match item.misfit? with
      | some e => .error e b
      | none => match item.call.run b with
        | .ok _ b' => .ok () b'
        | .error e b' => .error e b' := by
  unfold place
  cases item.misfit? with
  | some e => rfl
  | none =>
    simp only [bind, EStateM.bind, pure, EStateM.pure]
    cases item.call.run b <;> rfl

section
variable {b : Builder} {g : Graph} {past : List Call} (h : b.Holds g past)
include h

theorem place_of_fits {item : Item} (hm : item.misfit? = none) (hf : item.call.Fits past) :
    ∃ b' g', item.place b = .ok () b' ∧ b'.Holds g' (past ++ [item.call]) := by
  obtain ⟨a, b', g', hrun, hg'⟩ := h.run_of_fits hf
  refine ⟨b', g', ?_, hg'⟩
  rw [place_run, hm, hrun]

theorem place_of_not_fits {item : Item} (hn : ¬ (item.misfit? = none ∧ item.call.Fits past)) :
    ∃ e, item.place b = .error e b := by
  rw [place_run]
  cases hm : item.misfit? with
  | some e => exact ⟨e, rfl⟩
  | none =>
    obtain ⟨e, he⟩ := h.run_of_not_fits (fun hf => hn ⟨hm, hf⟩) item.call_ne_start item.call_ne_finalize
    exact ⟨e, by rw [he]⟩

end

/-! ## A list of items -/

/-- The items can be placed one after the other behind the calls `past`. -/
def AllFit (past : List Call) (items : List Item) : Prop :=
  (∀ item ∈ items, item.misfit? = none) ∧ Legal past (items.map call)

theorem allFit_cons (past : List Call) (item : Item) (rest : List Item) :
    AllFit past (item :: rest) ↔ (item.misfit? = none ∧ item.call.Fits past) ∧ AllFit (past ++ [item.call]) rest := by
  simp only [AllFit, List.map_cons, Legal, List.forall_mem_cons]
  exact and_and_and_comm

theorem forM_cons (item : Item) (rest : List Item) (b : Builder) :
    (item :: rest).forM place b = match item.place b with
      | .ok _ b' => rest.forM place b'
      | .error e b' => .error e b' := by
  rw [List.forM]
  simp only [bind, EStateM.bind]
  cases item.place b <;> rfl

/-- Items that fit are all placed, and then the product is the record of their calls. -/
theorem forM_place_of_allFit {items : List Item} {b : Builder} {g : Graph} {past : List Call} (h : b.Holds g past)
    (hf : AllFit past items) :
    ∃ b' g', items.forM place b = .ok () b' ∧ b'.Holds g' (past ++ items.map call) := by
  induction items generalizing b g past with
  | nil => exact ⟨b, g, rfl, by simpa using h⟩
  | cons item rest ih =>
    obtain ⟨⟨hm, hc⟩, hrest⟩ := (allFit_cons ..).1 hf
    obtain ⟨b₁, g₁, hplace, h₁⟩ := place_of_fits h hm hc
    obtain ⟨b₂, g₂, hforM, h₂⟩ := ih h₁ hrest
    refine ⟨b₂, g₂, ?_, by simpa using h₂⟩
    rw [forM_cons, hplace]
    exact hforM

/-- Items that do not fit are placed up to the first that does not. -/
theorem forM_place_of_not_allFit {items : List Item} {b : Builder} {g : Graph} {past : List Call} (h : b.Holds g past)
    (hn : ¬ AllFit past items) : ∃ e b', items.forM place b = .error e b' := by
  induction items generalizing b g past with
  | nil => exact absurd ⟨by simp, trivial⟩ hn
  | cons item rest ih =>
    rw [forM_cons]
    by_cases hc : item.misfit? = none ∧ item.call.Fits past
    · obtain ⟨b₁, g₁, hplace, h₁⟩ := place_of_fits h hc.1 hc.2
      rw [hplace]
      exact ih h₁ fun hrest => hn ((allFit_cons ..).2 ⟨hc, hrest⟩)
    · obtain ⟨e, he⟩ := place_of_not_fits h hc
      rw [he]
      exact ⟨e, b, rfl⟩

/-- Items that are placed are the calls of a run, all of which succeed. -/
theorem runAll_of_forM {items : List Item} {b b' : Builder} (h : items.forM place b = .ok () b') :
    (Call.runAll (items.map call) b).2 = b' ∧ ∀ outcome ∈ (Call.runAll (items.map call) b).1, outcome.isOk := by
  induction items generalizing b with
  | nil =>
    cases h
    exact ⟨rfl, by simp [Call.runAll]⟩
  | cons item rest ih =>
    rw [forM_cons, place_run] at h
    cases hm : item.misfit? with
    | some e => simp [hm] at h
    | none =>
      rw [hm] at h
      cases hrun : item.call.run b with
      | error e b₁ => simp [hrun] at h
      | ok a b₁ =>
        rw [hrun] at h
        obtain ⟨hlast, hall⟩ := ih h
        rw [List.map_cons, Call.runAll_cons, (Call.step_eq_ok_iff ..).2 hrun]
        exact ⟨hlast, List.forall_mem_cons.2 ⟨rfl, hall⟩⟩

end Item

/-! ## A whole description -/

namespace Description

/-- All items of the description can be placed on a new product. -/
def Fits (d : Description) : Prop := Item.AllFit [] d.items

theorem apply_eq (d : Description) (b : Builder) :
    d.apply b = match d.items.forM Item.place { product := some .empty, nextId := 0 } with
      | .ok _ b' => Builder.finalize b'
      | .error e b' => .error e b' := by
  -- `start` overwrites whatever the builder held.
  have happly : d.apply b = (do d.items.forM Item.place; Builder.finalize : Build Graph)
      { product := some .empty, nextId := 0 } := rfl
  rw [happly]
  simp only [bind, EStateM.bind]
  cases d.items.forM Item.place { product := some .empty, nextId := 0 } <;> rfl

theorem applyTo_eq (d : Description) (b : Builder) :
    d.applyTo b = match d.items.forM Item.place { product := some .empty, nextId := 0 } with
      | .ok _ b' => match Builder.finalize b' with
        | .ok g b'' => (.ok g, b'')
        | .error e b'' => (.error e, b'')
      | .error e b' => (.error e, b') := by
  unfold applyTo
  rw [apply_eq]
  cases d.items.forM Item.place { product := some .empty, nextId := 0 } <;> rfl

/-- A description that fits is placed, and the product is handed over if it is connected. -/
theorem applyTo_of_fits {d : Description} (h : d.Fits) (b : Builder) :
    ∃ (b' : Builder) (g : Graph), b'.Holds g d.calls ∧ d.applyTo b =
      if g.isConnected then (.ok g, { b' with product := none }) else (.error .incompleteGraph, b') := by
  obtain ⟨b', g, hforM, hg⟩ := Item.forM_place_of_allFit Builder.holds_start h
  have hfinalize := Builder.finalize_run b'
  rw [hg.product] at hfinalize
  refine ⟨b', g, hg, ?_⟩
  rw [applyTo_eq, hforM]
  by_cases hc : g.isConnected = true
  · simp [hfinalize, hc]
  · simp [hfinalize, hc]

/-- A description that does not fit fails. -/
theorem applyTo_of_not_fits {d : Description} (h : ¬ d.Fits) (b : Builder) : ∃ e b', d.applyTo b = (.error e, b') := by
  obtain ⟨e, b', he⟩ := Item.forM_place_of_not_allFit Builder.holds_start h
  refine ⟨e, b', ?_⟩
  rw [applyTo_eq, he]

/-- A description that hands over a graph fits, and the graph is the record of its calls. -/
theorem holds_of_applyTo {d : Description} {b : Builder} {g : Graph} (h : (d.applyTo b).1 = .ok g) :
    d.Fits ∧ g.isConnected = true ∧ (d.applyTo b).2.product = none ∧ ∃ b' : Builder, b'.Holds g d.calls := by
  by_cases hf : d.Fits
  · obtain ⟨b', g', hg', he⟩ := applyTo_of_fits hf b
    rw [he] at h ⊢
    by_cases hc : g'.isConnected = true
    · rw [if_pos hc] at h ⊢
      cases h
      exact ⟨hf, hc, rfl, b', hg'⟩
    · rw [if_neg hc] at h
      cases h
  · obtain ⟨e, b', he⟩ := applyTo_of_not_fits hf b
    rw [he] at h
    cases h

end Description

end BeaconMap
