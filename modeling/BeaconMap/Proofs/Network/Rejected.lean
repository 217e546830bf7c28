import BeaconMap.Proofs.Network.Acceptable
import BeaconMap.Proofs.Network.Failures
/-!
# What a rejected description leaves behind

A description that is rejected for one of its items leaves the builder as the items before that one have made it
(`Item.StopsAt`): their calls are all made, the item itself has left nothing, and the items behind it were never looked
at. The builder holds the record of the calls before, and its counter is the number of nodes, so the network can be
built on from there.
-/

namespace BeaconMap

namespace Item

/-! ## The first item that fails -/

theorem place_keepsOnError (item : Item) : Builder.KeepsOnError item.place := by
  intro b e b' h
  rw [place_run] at h
  cases hm : item.misfit? with
  | some e' =>
    rw [hm] at h
    cases h
    rfl
  | none =>
    rw [hm] at h
    cases hrun : item.call.run b with
    | ok a b₁ => simp [hrun] at h
    | error e' b₁ =>
      rw [hrun] at h
      cases h
      exact item.call.run_error b e b' hrun

theorem forM_append (items more : List Item) (b : Builder) :
    (items ++ more).forM place b = match items.forM place b with
      | .ok _ b' => more.forM place b'
      | .error e b' => .error e b' := by
  induction items generalizing b with
  | nil => rfl
  | cons item rest ih =>
    rw [List.cons_append, forM_cons, forM_cons]
    cases item.place b with
    | ok _ b₁ => exact ih b₁
    | error e b₁ => rfl

/-- Placing items fails where one of them fails that all before it have led to, and changes nothing from there on. -/
theorem forM_place_eq_error_iff (items : List Item) (b b' : Builder) (e : NetworkError) :
    items.forM place b = .error e b' ↔
      ∃ before item after, items = before ++ item :: after ∧
        before.forM place b = .ok () b' ∧ item.place b' = .error e b' := by
  constructor
  · intro h
    induction items generalizing b with
    | nil => cases h
    | cons item rest ih =>
      rw [forM_cons] at h
      cases hp : item.place b with
      | error e' b₁ =>
        rw [hp] at h
        cases h
        obtain rfl := item.place_keepsOnError b e b' hp
        exact ⟨[], item, rest, rfl, rfl, hp⟩
      | ok _ b₁ =>
        rw [hp] at h
        obtain ⟨before, failing, after, rfl, hbefore, hfails⟩ := ih b₁ h
        refine ⟨item :: before, failing, after, rfl, ?_, hfails⟩
        rw [forM_cons, hp]
        exact hbefore
  · rintro ⟨before, item, after, rfl, hbefore, hfails⟩
    rw [forM_append, hbefore]
    dsimp only
    rw [forM_cons, hfails]

/-! ## Where placing stops -/

/-- Items placed on a new product stop behind `before`, at an item that fails with `e`, and leave `left`. -/
structure StopsAt (before : List Item) (item : Item) (e : NetworkError) (left : Builder) : Prop where
  /-- Every item before the failing one can be placed behind those that come before it. -/
  fit : AllFit [] before
  placed : before.forM place { product := some .empty, nextId := 0 } = .ok () left
  /-- The failing item asks for what its kind has no use for, or its call does not fit the calls before. -/
  offends : ¬ (item.misfit? = none ∧ item.call.Fits (before.map call))
  /-- On the builder that the items before have made it fails, and leaves nothing. -/
  fails : item.place left = .error e left

namespace StopsAt

variable {before : List Item} {item : Item} {e : NetworkError} {left : Builder}

theorem of_placed (placed : before.forM place { product := some .empty, nextId := 0 } = .ok () left)
    (fails : item.place left = .error e left) : StopsAt before item e left := by
  have fit : AllFit [] before := by
    by_contra hn
    obtain ⟨e', b', he⟩ := forM_place_of_not_allFit Builder.holds_start hn
    rw [placed] at he
    cases he
  refine ⟨fit, placed, fun ⟨hm, hc⟩ => ?_, fails⟩
  obtain ⟨b', g, hplaced, hg⟩ := forM_place_of_allFit Builder.holds_start fit
  rw [placed] at hplaced
  cases hplaced
  obtain ⟨b₁, g₁, hplace, -⟩ := place_of_fits hg hm hc
  rw [fails] at hplace
  cases hplace

variable (h : StopsAt before item e left)
include h

/-- What is left is the record of the calls before. -/
theorem holds : ∃ g, left.Holds g (before.map call) := by
  obtain ⟨b', g, hplaced, hg⟩ := forM_place_of_allFit Builder.holds_start h.fit
  rw [h.placed] at hplaced
  cases hplaced
  exact ⟨g, hg⟩

/-- What is left is what a run of the calls before makes of any builder, none of which fails. -/
theorem run (b : Builder) :
    (Call.runAll (.start :: before.map call) b).2 = left ∧
      ∀ outcome ∈ (Call.runAll (.start :: before.map call) b).1, outcome.isOk := by
  obtain ⟨hlast, hall⟩ := runAll_of_forM h.placed
  exact ⟨hlast, List.forall_mem_cons.2 ⟨rfl, hall⟩⟩

/-- Items that are placed on what is left are placed as if the failing item had not been tried. -/
theorem forM_left (more : List Item) :
    more.forM place left = (before ++ more).forM place { product := some .empty, nextId := 0 } := by
  rw [forM_append, h.placed]

/-- Every description that begins in the same way is rejected in the same way, by any builder. -/
theorem applyTo {d : Description} (hd : before ++ [item] <+: d.items) (b : Builder) :
    d.applyTo b = (.error e, left) := by
  obtain ⟨after, hafter⟩ := hd
  have hitems : d.items.forM place { product := some .empty, nextId := 0 } = .error e left :=
    (forM_place_eq_error_iff ..).2 ⟨before, item, after, by simp [← hafter], h.placed, h.fails⟩
  rw [Description.applyTo_eq, hitems]

end StopsAt

end Item

namespace Description

variable {d : Description}

/-- A description is rejected for one of its items, unless it is for not being connected. -/
theorem forM_items_of_applyTo {b left : Builder} {e : NetworkError} (h : d.applyTo b = (.error e, left))
    (hc : e ≠ .incompleteGraph) : d.items.forM Item.place { product := some .empty, nextId := 0 } = .error e left := by
  by_cases hf : d.Fits
  · obtain ⟨b', g, -, happly⟩ := applyTo_of_fits hf b
    rw [h] at happly
    by_cases hg : g.isConnected = true
    · rw [if_pos hg] at happly
      cases happly
    · rw [if_neg hg] at happly
      cases happly
      exact absurd rfl hc
  · obtain ⟨e', b', he⟩ := Item.forM_place_of_not_allFit Builder.holds_start hf
    rw [applyTo_eq, he] at h
    cases h
    exact he

/-- The items before the first that fails ask for no more nodes than the description. -/
theorem nodes_length_le {before : List Item} (hb : before <+: d.items) :
    (History.nodes (before.map Item.call)).length ≤ d.nodes.length := by
  have hsub : (History.nodes (before.map Item.call)).length ≤ (History.nodes d.calls).length :=
    ((hb.map Item.call).filterMap Call.node?).length_le
  rwa [d.nodes_calls, List.length_map] at hsub

/-- A description that is rejected for something else than missing links has a first item that cannot be placed. The
error is the one that this item gives behind the items before it, and the builder is left as those have made it. -/
theorem rejected_at_first_offending_item {b left : Builder} {e : NetworkError}
    (h : d.applyTo b = (.error e, left)) (hc : e ≠ .incompleteGraph) :
    ∃ before item after, d.items = before ++ item :: after ∧ Item.StopsAt before item e left ∧
      -- The builder holds the graph of the items before, and the counter is its number of nodes, in 32 bits.
      (∃ g, left.Holds g (before.map Item.call) ∧ left.product = some g ∧ left.nextId = .ofNat g.nodes.size ∧
        (d.nodes.length < 2 ^ 32 → left.nextId.toNat = g.nodes.size)) ∧
      (∀ b', (Call.runAll (.start :: before.map Item.call) b').2 = left ∧
        ∀ outcome ∈ (Call.runAll (.start :: before.map Item.call) b').1, outcome.isOk) ∧
      -- Building can go on: calls that fit succeed, and more items are placed as if the failing one had not been tried.
      (∀ call : Call, call.Fits (before.map Item.call) → (call.step left).1.isOk) ∧
      (∀ more : List Item, more.forM Item.place left =
        (before ++ more).forM Item.place { product := some .empty, nextId := 0 }) ∧
      -- The items behind the failing one make no difference.
      ∀ (d' : Description) (b' : Builder), before ++ [item] <+: d'.items → d'.applyTo b' = (.error e, left) := by
  obtain ⟨before, item, after, hitems, hplaced, hfails⟩ :=
    (Item.forM_place_eq_error_iff ..).1 (forM_items_of_applyTo h hc)
  have hstop := Item.StopsAt.of_placed hplaced hfails
  obtain ⟨g, hg⟩ := hstop.holds
  have hsize : g.nodes.size ≤ d.nodes.length :=
    hg.records.size_eq ▸ nodes_length_le (hitems ▸ List.prefix_append before (item :: after))
  refine ⟨before, item, after, hitems, hstop, ⟨g, hg, hg.product, hg.nextId, fun few => ?_⟩, hstop.run,
    fun call hfits => ?_, hstop.forM_left, fun d' b' hd => hstop.applyTo hd b'⟩
  · rw [hg.nextId, UInt32.toNat_ofNat_of_lt' (lt_of_le_of_lt hsize few)]
  · obtain ⟨a, b', g', hrun, -⟩ := hg.run_of_fits hfits
    rw [(Call.step_eq_ok_iff ..).2 hrun]
    rfl

/-- The junction with two faults: a percentage at its regular node, and a street to where no node stands. -/
def faultyJunction : Description where
  behaviors := junction.behaviors
  nodes := junction.nodes.set 1 ⟨.regular, .at 4 0, .zero true, 0, [⟨1, .ofNat 50⟩]⟩
  edges := [⟨⟨0, 0⟩, ⟨9, 9⟩, 1, .ofNat 4, false⟩]

/-- The faulty junction is rejected for the first of its faults, and what is left is the record of the items before. -/
theorem rejected_at_first_offending_item_faulty :
    (faultyJunction.applyTo {}).1 = .error (.wrongNodeKind ⟨4, 0⟩ .entryPoint) ∧
      ∃ before item after, faultyJunction.items = before ++ item :: after ∧
        Item.StopsAt before item (.wrongNodeKind ⟨4, 0⟩ .entryPoint) (faultyJunction.applyTo {}).2 ∧
        ∃ g, (faultyJunction.applyTo {}).2.Holds g (before.map Item.call) := by
  have hfails : (faultyJunction.applyTo {}).1 = .error (.wrongNodeKind ⟨4, 0⟩ .entryPoint) := by
    apply Call.error_of_map (fun _ => ())
    decide +kernel
  have happly : faultyJunction.applyTo {} =
      (.error (.wrongNodeKind ⟨4, 0⟩ .entryPoint), (faultyJunction.applyTo {}).2) := by
    rw [← hfails]
  obtain ⟨before, item, after, hitems, hstop, ⟨g, hg, -⟩, -⟩ :=
    rejected_at_first_offending_item happly (by decide)
  exact ⟨hfails, before, item, after, hitems, hstop, g, hg⟩

end Description

end BeaconMap
