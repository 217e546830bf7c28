import BeaconMap.Proofs.Network.Record
/-!
# Runs of calls

Whatever the calls and their outcomes, the product of a builder is always the record of some calls that fit
together: `recorded_step` for one call, `recorded_runAll` for a run. The graphs that runs make (`Graph.Made`),
held or handed over, therefore all have such a record (`Graph.Made.holds`).
-/

namespace BeaconMap

/-- The product, if there is one, is the record of some calls. -/
def Builder.Recorded (b : Builder) : Prop := ∀ g, b.product = some g → ∃ past, b.Holds g past

/-- A graph that a run of calls from a new builder holds at its end, or has handed over. -/
def Graph.Made (g : Graph) : Prop :=
  ∃ calls, (Call.runAll calls {}).2.product = some g ∨ Except.ok (.graph g) ∈ (Call.runAll calls {}).1

theorem Builder.recorded_new : Builder.Recorded {} := fun _ hg => by cases hg

theorem Builder.Recorded.indexed {b : Builder} (h : b.Recorded) : b.Indexed := by
  intro g hg
  obtain ⟨past, hp⟩ := h g hg
  exact hp.indexed

namespace Call

/-! ## One step -/

theorem step_eq_error_iff (call : Call) (b : Builder) (e : NetworkError) (b' : Builder) :
    call.step b = (.error e, b') ↔ call.run b = .error e b' := by
  unfold step
  cases call.run b <;> simp

theorem step_eq_ok_iff (call : Call) (b : Builder) (a : Answer) (b' : Builder) :
    call.step b = (.ok a, b') ↔ call.run b = .ok a b' := by
  unfold step
  cases call.run b <;> simp

/-- A step fails and changes nothing, or succeeds in one of the ways of `Makes`. -/
theorem step_cases {b : Builder} (h : b.Recorded) (call : Call) :
    (∃ e, call.step b = (.error e, b)) ∨ ∃ a b', call.step b = (.ok a, b') ∧ Makes b call a b' := by
  cases hrun : call.run b with
  | error e b' =>
    left
    rw [run_error call b e b' hrun] at hrun
    exact ⟨e, (step_eq_error_iff ..).2 hrun⟩
  | ok a b' =>
    right
    exact ⟨a, b', (step_eq_ok_iff ..).2 hrun, (run_eq_ok_iff h.indexed call a b').1 hrun⟩

section
variable {b b' : Builder} {call : Call} {a : Answer}

theorem Makes.eq_of_start (h : Makes b .start a b') : b' = { product := some .empty, nextId := 0 } := by
  cases h with
  | start => rfl
  | node asks | share asks => cases asks

theorem Makes.product_of_finalize (h : Makes b .finalize a b') : b'.product = none := by
  cases h with
  | finalize => rfl
  | node asks | share asks => cases asks

/-- Only `start` succeeds without a product. -/
theorem Makes.exists_product (h : Makes b call a b') (hs : call ≠ .start) : ∃ g, b.product = some g := by
  cases h with
  | start => exact absurd rfl hs
  | node _ holds | edge holds | behavior holds | interest holds | share _ holds | finalize holds => exact ⟨_, holds⟩

theorem recorded_of_makes (h : b.Recorded) (hm : Makes b call a b') : b'.Recorded := by
  intro g' hg'
  -- Only `start` makes a product out of nothing, and only `finalize` leaves none.
  by_cases hs : call = .start
  · subst hs
    rw [hm.eq_of_start] at hg' ⊢
    cases hg'
    exact ⟨[], Builder.holds_start⟩
  by_cases hf : call = .finalize
  · subst hf
    rw [hm.product_of_finalize] at hg'
    cases hg'
  obtain ⟨g, hg⟩ := hm.exists_product hs
  obtain ⟨past, hp⟩ := h g hg
  obtain ⟨g'', hg''⟩ := hp.after hm hs hf
  have he : g'' = g' := Option.some.inj (hg''.product.symm.trans hg')
  exact ⟨_, he ▸ hg''⟩

end

theorem recorded_step {b : Builder} (h : b.Recorded) (call : Call) : (call.step b).2.Recorded := by
  rcases step_cases h call with ⟨e, he⟩ | ⟨a, b', hstep, hm⟩
  · rw [he]; exact h
  · rw [hstep]; exact recorded_of_makes h hm

/-- Only `finalize` hands over a graph: the product, when it is connected. -/
theorem step_graph {b : Builder} (h : b.Recorded) {call : Call} {g : Graph} {b' : Builder}
    (hstep : call.step b = (.ok (.graph g), b')) :
    call = .finalize ∧ b.product = some g ∧ g.isConnected = true ∧ b' = { b with product := none } := by
  cases (run_eq_ok_iff h.indexed _ _ _).1 ((step_eq_ok_iff ..).1 hstep) with
  | finalize holds connected => exact ⟨rfl, holds, connected, rfl⟩

/-! ## Runs -/

theorem runAll_cons (call : Call) (rest : List Call) (b : Builder) :
    runAll (call :: rest) b =
      ((call.step b).1 :: (runAll rest (call.step b).2).1, (runAll rest (call.step b).2).2) := rfl

/-- After a run the product is again the record of some calls, and so was every graph handed over on the way. -/
theorem recorded_runAll (calls : List Call) {b : Builder} (h : b.Recorded) :
    (runAll calls b).2.Recorded ∧
      ∀ g, Except.ok (.graph g) ∈ (runAll calls b).1 → ∃ c past, Builder.Holds c g past := by
  induction calls generalizing b with
  | nil => exact ⟨h, by simp [runAll]⟩
  | cons call rest ih =>
    obtain ⟨hlast, hgraphs⟩ := ih (recorded_step h call)
    rw [runAll_cons]
    refine ⟨hlast, fun g hg => ?_⟩
    rcases List.mem_cons.1 hg with hg | hg
    · obtain ⟨-, hp, -⟩ := step_graph h (g := g) (Prod.ext hg.symm rfl)
      obtain ⟨past, hb⟩ := h g hp
      exact ⟨b, past, hb⟩
    · exact hgraphs g hg

end Call

/-- A graph that a run makes is the record of some calls. -/
theorem Graph.Made.holds {g : Graph} (h : g.Made) : ∃ b past, Builder.Holds b g past := by
  obtain ⟨calls, hg⟩ := h
  obtain ⟨hlast, hgraphs⟩ := Call.recorded_runAll calls Builder.recorded_new
  rcases hg with hg | hg
  · obtain ⟨past, hp⟩ := hlast g hg
    exact ⟨_, past, hp⟩
  · exact hgraphs g hg

end BeaconMap
