import BeaconMap.Proofs.Network.Soundness
/-!
# Failed calls leave no trace

A call that fails gives back the builder it was made on: product, indexes and counter. So a run goes on as if the
failed call had not been made, and all the failed calls of a run can be left out of it (`runAll_succeeding`).
-/

namespace BeaconMap.Call

theorem step_of_error {call : Call} {b : Builder} {e : NetworkError} (h : (call.step b).1 = .error e) :
    call.step b = (.error e, b) := by
  cases hrun : call.run b with
  | ok a b' =>
    rw [(step_eq_ok_iff call b a b').2 hrun] at h
    cases h
  | error e' b' =>
    have hb := run_error call b e' b' hrun
    subst hb
    rw [(step_eq_error_iff call b' e' b').2 hrun] at h ⊢
    cases h
    rfl

theorem error_of_map {α β ε : Type} (f : α → β) {x : Except ε α} {e : ε} (h : x.map f = .error e) : x = .error e := by
  cases x with
  | ok a => cases h
  | error e' => exact congrArg Except.error (Except.error.inj h)

/-- The calls of a run that succeed. -/
def succeeding : List Call → Builder → List Call
  | [], _ => []
  | call :: rest, b =>
    let next := succeeding rest (call.step b).2
    if (call.step b).1.isOk then call :: next else next

/-- Without its failed calls a run gives the other calls the same answers and ends in the same builder. -/
theorem runAll_succeeding (calls : List Call) (b : Builder) :
    runAll (succeeding calls b) b = ((runAll calls b).1.filter Except.isOk, (runAll calls b).2) := by
  induction calls generalizing b with
  | nil => rfl
  | cons call rest ih =>
    rw [runAll_cons, succeeding]
    cases h : (call.step b).1 with
    | ok a =>
      simp only [Except.isOk, Except.toBool, if_true]
      rw [runAll_cons, ih, h]
      rfl
    | error e =>
      simp only [Except.isOk, Except.toBool, Bool.false_eq_true, if_false, not_false_iff, List.filter_cons_of_neg]
      rw [step_of_error h]
      exact ih b

/-- Whatever the builder, a call that fails leaves it as it was, and calls that follow go on as if it had not been
made; in a run no failed call makes a difference to the others. -/
theorem failed_call_leaves_no_trace (b : Builder) :
    (∀ call e, (call.step b).1 = .error e →
      (call.step b).2 = b ∧
        ∀ rest, runAll (call :: rest) b = (.error e :: (runAll rest b).1, (runAll rest b).2)) ∧
      ∀ calls, runAll (succeeding calls b) b = ((runAll calls b).1.filter Except.isOk, (runAll calls b).2) := by
  refine ⟨fun call e h => ?_, fun calls => runAll_succeeding calls b⟩
  have hstep := step_of_error h
  refine ⟨by rw [hstep], fun rest => ?_⟩
  rw [runAll_cons, hstep]

/-- The open network at the end of `crossing` refuses a second node at the coordinate it already has. -/
theorem failed_call_leaves_no_trace_occupied :
    ((Call.exitPoint (.at 7 (-7)) (.ofNat 1)).step (runAll crossing {}).2).1 =
        .error (.duplicateCoordinate ⟨7, -7⟩) ∧
      ((Call.exitPoint (.at 7 (-7)) (.ofNat 1)).step (runAll crossing {}).2).2 = (runAll crossing {}).2 := by
  have fails : ((Call.exitPoint (.at 7 (-7)) (.ofNat 1)).step (runAll crossing {}).2).1 =
      .error (.duplicateCoordinate ⟨7, -7⟩) := by
    -- Answers cannot be compared by computation, so they are forgotten first.
    apply error_of_map (fun _ => ())
    decide +kernel
  exact ⟨fails, ((failed_call_leaves_no_trace _).1 _ _ fails).1⟩

end BeaconMap.Call
