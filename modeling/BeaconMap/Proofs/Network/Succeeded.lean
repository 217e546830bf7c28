import BeaconMap.Proofs.Network.Failures
import BeaconMap.Proofs.Network.Unstarted
/-!
# The product is what the calls since the last start made

`Call.sinceStart` are the calls of a run that succeeded after the last `start`. While there is a product it is the record
of exactly these calls (`product_is_record`), and each further call that is not `start` leaves every node, edge, behavior
and interest point where it is (`Graph.Grows`).
-/

namespace BeaconMap

open History

/-! ## Shares of one sort -/

namespace History

/-- The share of a behavior at a coordinate that was asked for last, among the generated or the absorbed shares. -/
def lastShare (past : List Call) (generated : Bool) (position : Coordinate) (id : BehaviorId) : Option Binary64 :=
  ((shares past).filter fun s => s.generated = generated ∧ s.position = position ∧ s.behavior = id).getLast?.map
    Share.percentage

end History

theorem NodeKind.Takes.unique {k : NodeKind} {a b : Bool} (ha : k.Takes a) (hb : k.Takes b) : a = b := by
  cases k with
  | regular => exact ha.elim
  | entryPoint _ _ | exitPoint _ _ => exact Eq.trans (b := _) ha (Eq.symm hb)

/-- A share was asked for at a node that takes it. -/
theorem Legal.share_takes {past : List Call} (h : Legal [] past) {s : Share} (hs : s ∈ shares past) :
    Takes past s.position s.generated := by
  obtain ⟨call, hc, he⟩ := List.mem_filterMap.1 hs
  obtain ⟨before, ⟨rest, hb⟩, hf⟩ := h.fits_of_mem hc
  obtain ⟨-, -, n, hn, hp, ht⟩ := (Call.fits_share_iff before he).1 hf
  refine ⟨n, ?_, hp, ht⟩
  rw [List.nil_append] at hb
  rw [← hb, nodes_append]
  exact List.mem_append_left _ hn

/-- At a node that takes shares of one sort no others were asked for. -/
theorem Builder.Holds.lastShare_eq {b : Builder} {g : Graph} {past : List Call} (h : b.Holds g past) {n : Node}
    (hn : n ∈ g.nodes) {generated : Bool} (ht : n.kind.Takes generated) (id : BehaviorId) :
    lastShare past generated n.position id = shareOf past n.position id := by
  have hsort : ∀ s ∈ shares past, s.position = n.position → s.generated = generated := by
    intro s hs hp
    obtain ⟨m, hm, hmp, hmt⟩ := (h.records.takes_iff _ _).1 (h.legal.share_takes hs)
    obtain rfl := h.indexed.byCoordinate.node_unique hm hn (hmp.trans hp)
    exact hmt.unique ht
  have hfilter : (shares past).filter (fun s => s.generated = generated ∧ s.position = n.position ∧ s.behavior = id) =
      (shares past).filter fun s => s.position = n.position ∧ s.behavior = id := by
    refine List.filter_congr fun s hs => ?_
    rw [decide_eq_decide]
    exact ⟨And.right, fun hc => ⟨hsort s hs hc.1, hc⟩⟩
  rw [lastShare, hfilter, shareOf]

namespace Graph

/-- The graph is what the calls `past` made: the shares of an entry point are the generated ones that were asked for
last, those of an exit point the absorbed ones. -/
structure Recounts (g : Graph) (past : List Call) : Prop extends g.Records past where
  generated : ∀ n ∈ g.nodes, ∀ flow table, n.kind = .entryPoint flow table →
    ∀ id, table.find? id = lastShare past true n.position id
  absorbed : ∀ n ∈ g.nodes, ∀ rate table, n.kind = .exitPoint rate table →
    ∀ id, table.find? id = lastShare past false n.position id

end Graph

theorem Builder.Holds.recounts {b : Builder} {g : Graph} {past : List Call} (h : b.Holds g past) : g.Recounts past where
  toRecords := h.records
  generated n hn flow table hk id := by
    have ht : n.kind.Takes true := by rw [hk]; rfl
    rw [h.lastShare_eq hn ht, ← h.records.shares n hn, hk]
    rfl
  absorbed n hn rate table hk id := by
    have ht : n.kind.Takes false := by rw [hk]; rfl
    rw [h.lastShare_eq hn ht, ← h.records.shares n hn, hk]
    rfl

/-! ## What was made so far stays -/

namespace Graph

/-- What a node keeps while shares are set. -/
def firm (n : Node) : NodeId × Geometry × NodeKind := (n.id, n.geometry, n.kind.bare)

/-- `g'` has the nodes and edges of `g` in the same places, and its behaviors with their interest points. -/
structure Grows (g g' : Graph) : Prop where
  nodes : g.nodes.toList.map firm <+: g'.nodes.toList.map firm
  edges : g.edges.toList <+: g'.edges.toList
  behaviors : ∀ id b, g.behaviors.find? id = some b → ∃ b', g'.behaviors.find? id = some b' ∧ b'.id = b.id ∧
    b'.kind = b.kind ∧ ∀ optional, (b.interests optional).ids ⊆ (b'.interests optional).ids

section
variable (g : Graph)

theorem Grows.refl : g.Grows g where
  nodes := List.prefix_refl _
  edges := List.prefix_refl _
  behaviors _ b hb := ⟨b, hb, rfl, rfl, fun _ => List.Subset.refl _⟩

theorem Grows.trans {g g' g'' : Graph} (h : g.Grows g') (h' : g'.Grows g'') : g.Grows g'' where
  nodes := h.nodes.trans h'.nodes
  edges := h.edges.trans h'.edges
  behaviors id b hb := by
    obtain ⟨b', hb', hid, hkind, hsub⟩ := h.behaviors id b hb
    obtain ⟨b'', hb'', hid', hkind', hsub'⟩ := h'.behaviors id b' hb'
    exact ⟨b'', hb'', hid'.trans hid, hkind'.trans hkind, fun optional => List.Subset.trans (hsub optional) (hsub' optional)⟩

theorem grows_withNode (n : Node) : g.Grows (g.withNode n) :=
  { Grows.refl g with
    nodes := by
      rw [withNode_nodes, Array.toList_push, List.map_append]
      exact List.prefix_append _ _ }

theorem grows_withEdge (e : Edge) : g.Grows (g.withEdge e) :=
  { Grows.refl g with
    edges := by
      rw [withEdge_edges, Array.toList_push]
      exact List.prefix_append _ _ }

theorem grows_withShare (c : Coordinate) (id : BehaviorId) (v : Binary64) : g.Grows (g.withShare c id v) :=
  { Grows.refl g with
    nodes := by
      have hsame : (g.withShare c id v).nodes.toList.map firm = g.nodes.toList.map firm := by
        rw [Graph.withShare, Array.toList_map, List.map_map]
        refine List.map_congr_left fun n _ => ?_
        simp only [Function.comp_apply, firm]
        split <;> simp
      rw [hsame] }

/-- A behavior that takes the place of one with its kind and its interest points, or of none. -/
theorem grows_withBehavior {id : BehaviorId} {added : Behavior}
    (h : ∀ b, g.behaviors.find? id = some b → added.id = b.id ∧ added.kind = b.kind ∧
      ∀ optional, (b.interests optional).ids ⊆ (added.interests optional).ids) : g.Grows (g.withBehavior id added) :=
  { Grows.refl g with
    behaviors := by
      intro k b hb
      rw [withBehavior_behaviors, IdTable.find?_insert]
      by_cases hk : k = id
      · subst hk
        exact ⟨added, if_pos rfl, h b hb⟩
      · rw [if_neg hk]
        exact (Grows.refl g).behaviors k b hb }

end

end Graph

namespace Call

/-- Nothing but `start` takes anything away from a product. -/
theorem grows_of_makes {b b' : Builder} {call : Call} {a : Answer} (hm : Makes b call a b') (hs : call ≠ .start)
    {g g' : Graph} (hg : b.product = some g) (hg' : b'.product = some g') : g.Grows g' := by
  have hsame {p : Graph} (hp : b.product = some p) : p = g := Option.some.inj (hp.symm.trans hg)
  cases hm with
  | start => exact absurd rfl hs
  | finalize => cases hg'
  | node _ holds =>
    obtain rfl := hsame holds
    cases hg'
    exact Graph.grows_withNode _ _
  | edge holds =>
    obtain rfl := hsame holds
    cases hg'
    exact Graph.grows_withEdge _ _
  | behavior holds fresh =>
    obtain rfl := hsame holds
    cases hg'
    refine Graph.grows_withBehavior _ fun b hb => absurd ?_ fresh
    exact (IdTable.mem_ids_iff _ _).2 ⟨b, hb⟩
  | interest holds stands registered =>
    obtain rfl := hsame holds
    cases hg'
    refine Graph.grows_withBehavior _ fun b hb => ?_
    obtain rfl := Option.some.inj (registered.symm.trans hb)
    refine ⟨Behavior.addInterestPoint_id .., Behavior.addInterestPoint_kind .., fun optional k hk => ?_⟩
    exact (Behavior.mem_interests_add ..).2 (.inr hk)
  | share _ holds =>
    obtain rfl := hsame holds
    cases hg'
    exact Graph.grows_withShare _ _ _ _

theorem grows_runAll {calls : List Call} (hs : .start ∉ calls) {b : Builder} (h : b.Recorded) {g g' : Graph}
    (hg : b.product = some g) (hg' : (runAll calls b).2.product = some g') : g.Grows g' := by
  induction calls generalizing b g with
  | nil =>
    obtain rfl : g = g' := Option.some.inj (hg.symm.trans hg')
    exact .refl g
  | cons call rest ih =>
    rw [List.mem_cons, not_or] at hs
    rw [runAll_cons] at hg'
    rcases step_cases h call with ⟨e, he⟩ | ⟨a, b', hstep, hm⟩
    · rw [he] at hg'
      exact ih hs.2 h hg hg'
    · rw [hstep] at hg'
      cases hp : b'.product with
      | some p =>
        have hrest : p.Grows g' := ih hs.2 (recorded_of_makes h hm) hp hg'
        exact (grows_of_makes hm (Ne.symm hs.1) hg hp).trans hrest
      | none =>
        -- The product was handed over, and nothing but `start` makes another.
        rw [runAll_without_product hp hs.2] at hg'
        rw [hp] at hg'
        cases hg'

/-! ## The calls that succeeded -/

theorem runAll_append (first then' : List Call) (b : Builder) :
    runAll (first ++ then') b =
      ((runAll first b).1 ++ (runAll then' (runAll first b).2).1, (runAll then' (runAll first b).2).2) := by
  induction first generalizing b with
  | nil => rfl
  | cons call rest ih => rw [List.cons_append, runAll_cons, runAll_cons, ih]; rfl

theorem succeeding_append (first then' : List Call) (b : Builder) :
    succeeding (first ++ then') b = succeeding first b ++ succeeding then' (runAll first b).2 := by
  induction first generalizing b with
  | nil => rfl
  | cons call rest ih =>
    simp only [List.cons_append, succeeding, ih, runAll_cons]
    split <;> rfl

/-- The calls of a run from a new builder that succeed after the last `start`. -/
def sinceStart (calls : List Call) : List Call := (succeeding calls {}).rtakeWhile (· ≠ .start)

end Call

/-- What the calls that succeeded so far tell of a builder: there is a product when it was started and not handed over
since, and then it is the record of the calls since the start. -/
def Builder.Follows (b : Builder) (made : List Call) : Prop :=
  match b.product with
  | none => .start ∉ made ∨ .finalize ∈ made.rtakeWhile (· ≠ .start)
  | some g => .start ∈ made ∧ b.Holds g (made.rtakeWhile (· ≠ .start))

namespace Call

theorem follows_of_makes {b b' : Builder} {made : List Call} (h : b.Follows made) {call : Call} {a : Answer}
    (hm : Makes b call a b') : b'.Follows (made ++ [call]) := by
  by_cases hs : call = .start
  · subst hs
    have hnone : (made ++ [Call.start]).rtakeWhile (· ≠ .start) = [] := List.rtakeWhile_concat_neg _ _ _ (by simp)
    rw [hm.eq_of_start, Builder.Follows, hnone]
    exact ⟨by simp, Builder.holds_start⟩
  have hsome : (made ++ [call]).rtakeWhile (· ≠ .start) = made.rtakeWhile (· ≠ .start) ++ [call] :=
    List.rtakeWhile_concat_pos _ _ _ (by simpa using hs)
  obtain ⟨g, hg⟩ := hm.exists_product hs
  rw [Builder.Follows, hg] at h
  by_cases hf : call = .finalize
  · subst hf
    rw [Builder.Follows, hm.product_of_finalize, hsome]
    exact .inr (by simp)
  · obtain ⟨g', hg'⟩ := h.2.after hm hs hf
    rw [Builder.Follows, hg'.product, hsome]
    exact ⟨List.mem_append_left _ h.1, hg'⟩

/-- After a run the builder is as the calls that succeeded tell. -/
theorem follows_runAll (calls : List Call) : (runAll calls {}).2.Follows (succeeding calls {}) := by
  induction calls using List.reverseRecOn with
  | nil => exact .inl List.not_mem_nil
  | append_singleton calls call ih =>
    have hrecorded := (recorded_runAll calls Builder.recorded_new).1
    rw [runAll_append, succeeding_append]
    simp only [runAll_cons, succeeding]
    rcases step_cases hrecorded call with ⟨e, he⟩ | ⟨a, b', hstep, hm⟩
    · rw [he]
      simpa [Except.isOk, Except.toBool, runAll] using ih
    · rw [hstep]
      simpa [Except.isOk, Except.toBool, runAll] using follows_of_makes ih hm

/-- After a run there is a product exactly when a `start` succeeded and no `finalize` after the last one, and then it is
the record of the calls that succeeded since that start. However the run goes on, no node, edge, behavior or interest
point of it is dropped, moved or rewritten before the next `start`. -/
theorem product_is_record (calls : List Call) :
    ((runAll calls {}).2.product.isSome = true ↔
      .start ∈ succeeding calls {} ∧ .finalize ∉ sinceStart calls) ∧
      ∀ g, (runAll calls {}).2.product = some g →
        g.Recounts (sinceStart calls) ∧
          ∀ more g', .start ∉ more → (runAll (calls ++ more) {}).2.product = some g' → g.Grows g' := by
  have hfollows := follows_runAll calls
  have hrecorded := (recorded_runAll calls Builder.recorded_new).1
  rw [Builder.Follows] at hfollows
  cases hp : (runAll calls {}).2.product with
  | none =>
    rw [hp] at hfollows
    refine ⟨⟨fun h => absurd h Bool.false_ne_true, fun h => ?_⟩, fun g hg => by cases hg⟩
    rcases hfollows with hstart | hfinal
    · exact absurd h.1 hstart
    · exact absurd hfinal h.2
  | some p =>
    rw [hp] at hfollows
    obtain ⟨hstart, hholds⟩ := hfollows
    refine ⟨⟨fun _ => ⟨hstart, fun hfinal => ?_⟩, fun _ => rfl⟩, ?_⟩
    · obtain ⟨before, -, hfits⟩ := hholds.legal.fits_of_mem hfinal
      exact hfits
    · rintro g ⟨⟩
      refine ⟨hholds.recounts, fun more g' hs hg' => ?_⟩
      rw [runAll_append] at hg'
      exact grows_runAll hs hrecorded hp hg'

/-- After the crossing a second network is begun. Of its calls one asks for a share that its node does not take, and the
share of the behavior is set again after an attempt to finish. -/
def reshared : List Call :=
  crossing ++ [.start, .behavior 1 .visit, .entryPoint (.at 0 0) ⟨.ofNat 2, 0⟩, .exitPoint (.at 4 0) (.ofNat 1),
    .generated ⟨0, 0⟩ 1 (.ofNat 40), .absorbed ⟨0, 0⟩ 1 (.ofNat 30), .finalize, .generated ⟨0, 0⟩ 1 (.ofNat 70)]

/-- The second network is the record of the calls for it that succeeded, with the share that was set last, and an
interest point and a street are added to what it has. -/
theorem product_is_record_reshared :
    sinceStart reshared = [.behavior 1 .visit, .entryPoint (.at 0 0) ⟨.ofNat 2, 0⟩, .exitPoint (.at 4 0) (.ofNat 1),
        .generated ⟨0, 0⟩ 1 (.ofNat 40), .generated ⟨0, 0⟩ 1 (.ofNat 70)] ∧
      lastShare (sinceStart reshared) true ⟨0, 0⟩ 1 = some (.ofNat 70) ∧
      ∃ g g' : Graph, (runAll reshared {}).2.product = some g ∧ g.Recounts (sinceStart reshared) ∧
        (runAll (reshared ++ [.interestPoint ⟨4, 0⟩ 1 true, .street true ⟨0, 0⟩ ⟨4, 0⟩ 1 (.ofNat 4)]) {}).2.product =
          some g' ∧ g.edges.size < g'.edges.size ∧ g.Grows g' := by
  obtain ⟨g, hg⟩ := Option.isSome_iff_exists.1
    ((product_is_record reshared).1.2 ⟨by decide +kernel, by decide +kernel⟩)
  obtain ⟨hrecounts, hgrows⟩ := (product_is_record reshared).2 g hg
  have hmore : (runAll (reshared ++ [.interestPoint ⟨4, 0⟩ 1 true, .street true ⟨0, 0⟩ ⟨4, 0⟩ 1 (.ofNat 4)])
      {}).2.product.map (·.edges.size) = some 1 := by decide +kernel
  obtain ⟨g', hg', hsize'⟩ := Option.map_eq_some_iff.1 hmore
  have hnone : (runAll reshared {}).2.product.map (·.edges.size) = some 0 := by decide +kernel
  rw [hg] at hnone
  have hsize : g.edges.size = 0 := Option.some.inj hnone
  exact ⟨by decide +kernel, by decide +kernel, g, g', hg, hrecounts, hg', by omega, hgrows _ g' (by decide) hg'⟩

end Call

end BeaconMap
