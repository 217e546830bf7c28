import BeaconMap.Proofs.Network.Renamed
import BeaconMap.Proofs.Network.Succeeded
/-!
# Calls in another order

Two runs that succeed and whose calls after the last `start` are the same but for their order (`Call.Reordered`) leave
networks that are the same up to the ids of the nodes, and `finalize` says the same of both. Only the calls that set one
and the same share must not change places, since the last one wins.
-/

namespace BeaconMap

open History

namespace Call

/-- The call sets the share of a behavior at a coordinate. -/
def setsShare (position : Coordinate) (id : BehaviorId) (call : Call) : Bool :=
  call.share?.any fun s => s.position = position ∧ s.behavior = id

/-- The same calls in another order; those that set one and the same share keep theirs. -/
structure Reordered (calls calls' : List Call) : Prop where
  perm : calls.Perm calls'
  shares : ∀ position id, calls.filter (setsShare position id) = calls'.filter (setsShare position id)

/-- The calls after the last `start`. -/
def afterStart (calls : List Call) : List Call := calls.rtakeWhile (· ≠ .start)

/-! ## What is asked for -/

theorem shares_filter (past : List Call) (position : Coordinate) (id : BehaviorId) :
    (shares past).filter (fun s => s.position = position ∧ s.behavior = id) =
      (past.filter (setsShare position id)).filterMap share? := by
  rw [shares, List.filter_filterMap, List.filterMap_filter]
  -- Call by call: one that sets no share is dropped on both sides.
  refine List.filterMap_congr fun call _ => ?_
  unfold setsShare
  cases call.share? <;> simp [Option.filter]

/-- Reordered calls ask for the same things. -/
theorem Reordered.alike {calls calls' : List Call} (h : Reordered calls calls') : Alike calls calls' where
  nodes := h.perm.filterMap _
  edges := h.perm.filterMap _
  behaviors := h.perm.filterMap _
  interests := h.perm.filterMap _
  shareOf c id := by rw [shareOf, shareOf, shares_filter, shares_filter, h.shares]

theorem Reordered.filter {calls calls' : List Call} (h : Reordered calls calls') (p : Call → Bool) :
    Reordered (calls.filter p) (calls'.filter p) where
  perm := h.perm.filter p
  shares position id := by rw [List.filter_comm, h.shares, List.filter_comm]

/-- A `finalize` asks for no street. -/
theorem edges_filter_finalize (calls : List Call) : edges (calls.filter (· ≠ .finalize)) = edges calls := by
  rw [edges, List.filterMap_filter, edges]
  refine List.filterMap_congr fun call _ => ?_
  cases call <;> rfl

/-! ## What a run leaves -/

/-- The graph that a run ends with: the product that is left, or else the graph that its last call handed over. -/
def network? (calls : List Call) (b : Builder) : Option Graph :=
  match (runAll calls b).2.product, (runAll calls b).1.getLast? with
  | some g, _ => some g
  | none, some (.ok (.graph g)) => some g
  | none, _ => none

/-- What stood before a `start` makes no difference to it. -/
theorem runAll_of_start {calls : List Call} (h : calls.head? = some .start) (b b' : Builder) :
    runAll calls b = runAll calls b' := by
  obtain ⟨rest, rfl⟩ := List.head?_eq_some_iff.1 h
  rfl

theorem succeeding_eq_self {calls : List Call} {b : Builder} (h : ∀ outcome ∈ (runAll calls b).1, outcome.isOk = true) :
    succeeding calls b = calls := by
  induction calls generalizing b with
  | nil => rfl
  | cons call rest ih =>
    rw [runAll_cons] at h
    obtain ⟨hcall, hrest⟩ := List.forall_mem_cons.1 h
    rw [succeeding, if_pos hcall, ih hrest]

theorem Makes.eq_finalize {b b' : Builder} {call : Call} {a : Answer} (h : Makes b call a b') (hp : b'.product = none) :
    call = .finalize := by
  cases h <;> first | rfl | cases hp

/-- A product that a run leaves which succeeds is the record of the calls after its last `start`. -/
theorem holds_of_succeeds {calls : List Call} (hok : ∀ outcome ∈ (runAll calls {}).1, outcome.isOk = true) {g : Graph}
    (hp : (runAll calls {}).2.product = some g) : (runAll calls {}).2.Holds g (afterStart calls) := by
  have hfollows := follows_runAll calls
  rw [succeeding_eq_self hok, Builder.Follows, hp] at hfollows
  exact hfollows.2

theorem finalize_not_mem_of_holds {b : Builder} {g : Graph} {past : List Call} (h : b.Holds g past) :
    .finalize ∉ past := by
  intro hmem
  obtain ⟨before, -, hfits⟩ := h.legal.fits_of_mem hmem
  exact hfits

theorem filter_finalize {calls : List Call} (h : .finalize ∉ calls) : calls.filter (· ≠ .finalize) = calls :=
  List.filter_eq_self.2 fun _ hcall => decide_eq_true (ne_of_mem_of_not_mem hcall h)

/-- A run that succeeds and leaves no product ends with a `finalize`. -/
theorem ends_in_finalize {calls : List Call} (hs : .start ∈ calls)
    (hok : ∀ outcome ∈ (runAll calls {}).1, outcome.isOk = true) (hp : (runAll calls {}).2.product = none) :
    ∃ init g, calls = init ++ [.finalize] ∧ (∀ outcome ∈ (runAll init {}).1, outcome.isOk = true) ∧
      (runAll init {}).2.product = some g ∧ (runAll calls {}).1.getLast? = some (.ok (.graph g)) := by
  obtain ⟨init, last, rfl⟩ : ∃ init last, calls = init ++ [last] :=
    ⟨_, _, (List.dropLast_append_getLast (List.ne_nil_of_mem hs)).symm⟩
  rw [runAll_append, runAll_cons] at hp hok ⊢
  rw [List.forall_mem_append] at hok
  have hrecorded := (recorded_runAll init Builder.recorded_new).1
  rcases step_cases hrecorded last with ⟨e, he⟩ | ⟨a, b', hstep, hm⟩
  · have hlast := hok.2 _ List.mem_cons_self
    rw [he] at hlast
    cases hlast
  · rw [hstep] at hp ⊢
    obtain rfl := hm.eq_finalize hp
    cases hm with
    | finalize holds => exact ⟨init, _, rfl, hok.1, holds, by simp [runAll]⟩
    | node asks | share asks => cases asks

/-- A run that succeeds ends with the record of the calls after its last `start`, as a product unless it ends with a
`finalize`. -/
theorem network_of_succeeds {calls : List Call} (hs : .start ∈ calls)
    (hok : ∀ outcome ∈ (runAll calls {}).1, outcome.isOk = true) :
    ∃ g b, network? calls {} = some g ∧ Builder.Holds b g ((afterStart calls).filter (· ≠ .finalize)) ∧
      ((runAll calls {}).2.product = some g ∧ .finalize ∉ afterStart calls ∨
        (runAll calls {}).2.product = none ∧ .finalize ∈ afterStart calls) := by
  unfold network?
  cases hp : (runAll calls {}).2.product with
  | some g =>
    have hholds := holds_of_succeeds hok hp
    have hfinal := finalize_not_mem_of_holds hholds
    exact ⟨g, _, rfl, (filter_finalize hfinal).symm ▸ hholds, .inl ⟨rfl, hfinal⟩⟩
  | none =>
    obtain ⟨init, g, rfl, hinit, hproduct, hlast⟩ := ends_in_finalize hs hok hp
    have hholds := holds_of_succeeds hinit hproduct
    have hafter : afterStart (init ++ [.finalize]) = afterStart init ++ [.finalize] :=
      List.rtakeWhile_concat_pos _ _ _ (by decide)
    have hfilter : (afterStart (init ++ [.finalize])).filter (· ≠ .finalize) = afterStart init := by
      rw [hafter, List.filter_append, filter_finalize (finalize_not_mem_of_holds hholds)]
      simp
    exact ⟨g, _, by rw [hlast], hfilter.symm ▸ hholds, .inr ⟨rfl, by simp [hafter]⟩⟩

/-! ## Two runs -/

/-- Two runs that start, that succeed, and whose calls after the last `start` are reordered end with networks that are
the same up to the ids of the nodes, with the edges in one order if they were asked for in one, and `finalize` says the
same of both. -/
theorem reordered_runs {calls calls' : List Call} {b b' : Builder} (hs : calls.head? = some .start)
    (hs' : calls'.head? = some .start) (hok : ∀ outcome ∈ (runAll calls b).1, outcome.isOk = true)
    (hok' : ∀ outcome ∈ (runAll calls' b').1, outcome.isOk = true)
    (h : Reordered (afterStart calls) (afterStart calls')) :
    ∃ g g', network? calls b = some g ∧ network? calls' b' = some g' ∧ Graph.Renamed (g.matching g') g g' ∧
      (edges (afterStart calls) = edges (afterStart calls') →
        g.edges.toList.map (Edge.rename (g.matching g')) = g'.edges.toList) ∧
      (∀ e, (step .finalize (runAll calls b).2).1 = .error e ↔ (step .finalize (runAll calls' b').2).1 = .error e) ∧
      ((step .finalize (runAll calls b).2).1 = .ok (.graph g) ↔
        (step .finalize (runAll calls' b').2).1 = .ok (.graph g')) := by
  rw [network?, network?, runAll_of_start hs b {}, runAll_of_start hs' b' {}] at *
  obtain ⟨g, c, hg, hholds, hleft⟩ := network_of_succeeds (List.mem_of_mem_head? hs) hok
  obtain ⟨g', c', hg', hholds', hleft'⟩ := network_of_succeeds (List.mem_of_mem_head? hs') hok'
  have halike := (h.filter (· ≠ .finalize)).alike
  refine ⟨g, g', hg, hg', hholds.renamed hholds' halike, fun he => ?_, ?_⟩
  · refine hholds.records.edges_rename_eq hholds'.records hholds.indexed hholds'.indexed halike ?_
    rw [edges_filter_finalize, edges_filter_finalize, he]
  · -- Either both runs end with `finalize` or neither, so there are two products or none.
    have hfinal : .finalize ∈ afterStart calls ↔ .finalize ∈ afterStart calls' := h.perm.mem_iff
    rcases hleft with ⟨hp, hf⟩ | ⟨hp, hf⟩ <;> rcases hleft' with ⟨hp', hf'⟩ | ⟨hp', hf'⟩
    · rw [step_finalize hp, step_finalize hp', hholds.isConnected_eq hholds' halike]
      split <;> simp
    · exact absurd (hfinal.2 hf') hf
    · exact absurd (hfinal.1 hf) hf'
    · rw [step_without_product hp (by simp), step_without_product hp' (by simp)]
      simp

/-- The calls for a lane. -/
def lane : List Call :=
  [.start, .behavior 1 .visit, .entryPoint (.at 0 0) ⟨.ofNat 2, 0⟩, .exitPoint (.at 4 0) (.ofNat 1),
    .generated ⟨0, 0⟩ 1 (.ofNat 40), .interestPoint ⟨4, 0⟩ 1 true, .generated ⟨0, 0⟩ 1 (.ofNat 70),
    .street false ⟨0, 0⟩ ⟨4, 0⟩ 1 (.ofNat 4)]

/-- The same calls from the other end, after those for a crossing. -/
def laneBack : List Call :=
  [.start, .exitPoint (.at 4 0) (.ofNat 1), .entryPoint (.at 0 0) ⟨.ofNat 2, 0⟩,
    .street false ⟨0, 0⟩ ⟨4, 0⟩ 1 (.ofNat 4), .behavior 1 .visit, .generated ⟨0, 0⟩ 1 (.ofNat 40),
    .generated ⟨0, 0⟩ 1 (.ofNat 70), .interestPoint ⟨4, 0⟩ 1 true]

theorem reordered_lane : Reordered (afterStart lane) (afterStart laneBack) where
  perm := by decide +kernel
  shares position id := by
    have h : afterStart lane = lane.tail ∧ afterStart laneBack = laneBack.tail := by decide +kernel
    rw [h.1, h.2]
    simp [lane, laneBack, setsShare, share?, List.filter_cons]

/-- The two lanes are the same with the ids of their ends changed over. -/
theorem reordered_runs_lane :
    ∃ g g', network? lane {} = some g ∧ network? laneBack (runAll crossing {}).2 = some g' ∧
      Graph.Renamed (g.matching g') g g' ∧ g.matching g' 0 = 1 ∧ g.matching g' 1 = 0 := by
  have hok : ∀ outcome ∈ (runAll lane {}).1, outcome.isOk = true := by decide +kernel
  have hok' : ∀ outcome ∈ (runAll laneBack (runAll crossing {}).2).1, outcome.isOk = true := by decide +kernel
  obtain ⟨g, g', hg, hg', hrenamed, -⟩ := reordered_runs rfl rfl hok hok' reordered_lane
  have hmatching : ((network? lane {}).bind fun g => (network? laneBack (runAll crossing {}).2).map fun g' =>
      (g.matching g' 0, g.matching g' 1)) = some (1, 0) := by decide +kernel
  rw [hg, hg'] at hmatching
  obtain ⟨hzero, hone⟩ := Prod.mk.inj (Option.some.inj hmatching)
  exact ⟨g, g', hg, hg', hrenamed, hzero, hone⟩

/-- A second `start` takes back what was asked for before it, so which calls stand before it matters. -/
theorem order_across_start_matters :
    ∃ calls calls' : List Call, calls.head? = some .start ∧ calls'.head? = some .start ∧
      (∀ outcome ∈ (runAll calls {}).1, outcome.isOk = true) ∧
      (∀ outcome ∈ (runAll calls' {}).1, outcome.isOk = true) ∧ Reordered calls calls' ∧
      ∃ g g', network? calls {} = some g ∧ network? calls' {} = some g' ∧ ∀ ρ, ¬ Graph.Renamed ρ g g' := by
  refine ⟨[.start, .regularNode (.at 9 9), .start, .regularNode (.at 0 0)],
    [.start, .regularNode (.at 0 0), .start, .regularNode (.at 9 9)], rfl, rfl, by decide +kernel, by decide +kernel,
    ⟨by decide +kernel, fun _ _ => rfl⟩, ?_⟩
  have hlast : (network? [.start, .regularNode (.at 9 9), .start, .regularNode (.at 0 0)] {}).map
      (fun g => (g.nodeAt ⟨0, 0⟩).isOk) = some true := by decide +kernel
  have hlast' : (network? [.start, .regularNode (.at 0 0), .start, .regularNode (.at 9 9)] {}).map
      (fun g => (g.nodeAt ⟨0, 0⟩).isOk) = some false := by decide +kernel
  obtain ⟨g, hg, hat⟩ := Option.map_eq_some_iff.1 hlast
  obtain ⟨g', hg', hat'⟩ := Option.map_eq_some_iff.1 hlast'
  refine ⟨g, g', hg, hg', fun ρ hrenamed => ?_⟩
  rw [hrenamed.nodeAt] at hat'
  cases hn : g.nodeAt ⟨0, 0⟩ with
  | ok n =>
    rw [hn] at hat'
    cases hat'
  | error e =>
    rw [hn] at hat
    cases hat

end Call

end BeaconMap
