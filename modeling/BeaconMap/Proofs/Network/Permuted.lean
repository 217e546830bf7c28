import BeaconMap.Proofs.Network.Described
/-!
# Descriptions in another order

A description is permuted when its nodes, edges and behaviors, and the interest points of its behaviors, are listed in
another order (`Description.Permuted`). What a description must say to be accepted does not depend on any order, so a
permuted description is accepted exactly when the description is (`Description.Permuted.accepts_iff`).
-/

namespace BeaconMap

/-- The same behavior with its interest points in another order. -/
structure DescribedBehavior.Permuted (a b : DescribedBehavior) : Prop where
  id : a.id = b.id
  kind : a.kind = b.kind
  core : a.core.Perm b.core
  optional : a.optional.Perm b.optional

theorem DescribedBehavior.Permuted.symm {a b : DescribedBehavior} (h : a.Permuted b) : b.Permuted a :=
  ⟨h.id.symm, h.kind.symm, h.core.symm, h.optional.symm⟩

namespace Description

/-- The same description with its lists in another order. -/
structure Permuted (d d' : Description) : Prop where
  nodes : d.nodes.Perm d'.nodes
  edges : d.edges.Perm d'.edges
  behaviors : ∃ bs, d.behaviors.Perm bs ∧ List.Forall₂ DescribedBehavior.Permuted bs d'.behaviors

namespace Permuted

variable {d d' : Description}

theorem symm (h : d.Permuted d') : d'.Permuted d where
  nodes := h.nodes.symm
  edges := h.edges.symm
  behaviors := by
    obtain ⟨bs, hperm, hall⟩ := h.behaviors
    obtain ⟨bs', hall', hperm'⟩ := List.perm_comp_forall₂ hperm hall
    exact ⟨bs', hperm'.symm, (hall'.imp fun _ _ hab => hab.symm).flip⟩

section
variable (h : d.Permuted d')
include h

theorem behaviorIds : d.behaviorIds.Perm d'.behaviorIds := by
  obtain ⟨bs, hperm, hall⟩ := h.behaviors
  have hids : bs.map DescribedBehavior.id = d'.behaviors.map DescribedBehavior.id :=
    List.forall₂_eq_eq_eq ▸ List.rel_map (fun _ _ hab => hab.id) hall
  exact (hperm.map _).trans (.of_eq hids)

theorem positions : d.positions.Perm d'.positions := h.nodes.map _

/-- Every behavior was described before, with the same interest points. -/
theorem mem_behaviors {b' : DescribedBehavior} (hb' : b' ∈ d'.behaviors) : ∃ b ∈ d.behaviors, b.Permuted b' := by
  obtain ⟨bs, hperm, hall⟩ := h.behaviors
  obtain ⟨b, hb, hbb'⟩ := exists_of_forall₂ hall hb'
  exact ⟨b, hperm.mem_iff.2 hb, hbb'⟩

theorem linked_iff (a b : Coordinate) : d.Linked a b ↔ d'.Linked a b := by
  simp only [Linked, h.edges.mem_iff]

theorem placeable (hp : d.Placeable) : d'.Placeable where
  behaviorIds := h.behaviorIds.nodup_iff.1 hp.behaviorIds
  positions := h.positions.nodup_iff.1 hp.positions
  nodes n hn := hp.nodes n (h.nodes.mem_iff.2 hn)
  percentages n hn s hs := by
    obtain ⟨hid, hper⟩ := hp.percentages n (h.nodes.mem_iff.2 hn) s hs
    exact ⟨h.behaviorIds.mem_iff.1 hid, hper⟩
  interests b' hb' c hc := by
    obtain ⟨b, hb, hbb'⟩ := h.mem_behaviors hb'
    exact h.positions.mem_iff.1 (hp.interests b hb c ((hbb'.core.append hbb'.optional).mem_iff.2 hc))
  ends e he := by
    obtain ⟨hs, ht⟩ := hp.ends e (h.edges.mem_iff.2 he)
    exact ⟨h.positions.mem_iff.1 hs, h.positions.mem_iff.1 ht⟩
  streets e he := hp.streets e (h.edges.mem_iff.2 he)

theorem acceptable (ha : d.Acceptable) : d'.Acceptable where
  toPlaceable := h.placeable ha.toPlaceable
  connected m hm n hn := by
    have hc := ha.connected m (h.nodes.mem_iff.2 hm) n (h.nodes.mem_iff.2 hn)
    exact Relation.ReflTransGen.mono (fun a b hab => (h.linked_iff a b).1 hab) _ _ hc

end

end Permuted

/-! ## Acceptance -/

/-- A graph that is the record of a description is connected exactly when the described coordinates are. -/
theorem isConnected_iff_of_holds {d : Description} {b : Builder} {g : Graph} (h : b.Holds g d.calls) :
    g.isConnected = true ↔ ∀ m ∈ d.nodes, ∀ n ∈ d.nodes, Relation.ReflTransGen d.Linked m.position n.position :=
  h.sound.isConnected_iff.trans (h.records.connected_iff h.indexed)

/-- A description is accepted when there are ids for its nodes and it is acceptable. -/
theorem accepted_iff (d : Description) (b : Builder) :
    (∃ g, (d.applyTo b).1 = .ok g) ↔ d.nodes.length ≤ 2 ^ 32 ∧ d.Acceptable := by
  constructor
  · rintro ⟨g, hg⟩
    obtain ⟨hf, hc, -, b', hh⟩ := holds_of_applyTo hg
    have few : d.nodes.length ≤ 2 ^ 32 := hh.records.described_size ▸ hh.indexed.size_le
    exact ⟨few, { (d.fits_iff_placeable few).1 hf with connected := (isConnected_iff_of_holds hh).1 hc }⟩
  · rintro ⟨few, ha⟩
    obtain ⟨b', g, hh, he⟩ := applyTo_of_fits ((d.fits_iff_placeable few).2 ha.toPlaceable) b
    exact ⟨g, by rw [he, if_pos ((isConnected_iff_of_holds hh).2 ha.connected)]⟩

/-- A permuted description is accepted exactly when the description is, by any builder. -/
theorem Permuted.accepts_iff {d d' : Description} (h : d.Permuted d') (b b' : Builder) :
    (∃ g, (d.applyTo b).1 = .ok g) ↔ ∃ g', (d'.applyTo b').1 = .ok g' := by
  rw [accepted_iff, accepted_iff, h.nodes.length_eq]
  exact and_congr_right fun _ => ⟨h.acceptable, h.symm.acceptable⟩

end Description

end BeaconMap
