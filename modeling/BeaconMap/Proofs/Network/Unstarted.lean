import BeaconMap.Proofs.Network.Refinement
/-!
# Calls without a product

A builder without a product refuses every call but `start` and stays as it is, however many calls are made
(`runAll_without_product`). What it reports is told by the call alone (`Call.refusal`): that nothing was started, or,
since the calls for nodes look at their arguments before they look for a product, a fault of these arguments.
-/

namespace BeaconMap.Call

/-- The first fault in the arguments of a call for a node. -/
def nodeFault? (call : Call) : Option Fault :=
  call.node?.bind fun (geometry, kind) => geometry.fault?.or kind.rateFault?

/-- What a builder without a product reports. -/
def refusal (call : Call) : NetworkError :=
  match call.nodeFault? with
  | some fault => .validation fault
  | none => .builderNotStarted

/-- The arguments of the call would do for a node, if it asks for one. -/
def NodeArgumentsValid (call : Call) : Prop :=
  ∀ geometry kind, call.node? = some (geometry, kind) → geometry.Valid ∧ ∀ r, kind.rate? = some r → r.NonNegative

theorem rateFault?_eq_none_iff (kind : NodeKind) :
    kind.rateFault? = none ↔ ∀ r, kind.rate? = some r → r.NonNegative := by
  cases kind with
  | regular => simp [NodeKind.rateFault?, NodeKind.rate?]
  | entryPoint flow _ => simp [NodeKind.rateFault?, NodeKind.rate?, EntryFlow.fault?, Quantity.fault?_eq_none_iff]
  | exitPoint rate _ => simp [NodeKind.rateFault?, NodeKind.rate?, Quantity.fault?_eq_none_iff]

theorem nodeFault?_eq_none_iff (call : Call) : call.nodeFault? = none ↔ call.NodeArgumentsValid := by
  unfold nodeFault? NodeArgumentsValid
  cases hnode : call.node? with
  | none => simp
  | some x =>
    obtain ⟨geometry, kind⟩ := x
    rw [Option.bind_some, Option.or_eq_none_iff, Geometry.fault?_eq_none_iff, rateFault?_eq_none_iff]
    constructor
    · rintro h _ _ ⟨⟩
      exact h
    · exact fun h => h geometry kind rfl

theorem refusal_eq_iff (call : Call) : call.refusal = .builderNotStarted ↔ call.NodeArgumentsValid := by
  rw [← nodeFault?_eq_none_iff, refusal]
  cases call.nodeFault? <;> simp

section
variable {b : Builder} (idle : b.product = none)
include idle

theorem changed_without_product (change : Graph → Except NetworkError Graph) :
    b.changed change = .error .builderNotStarted := by
  rw [Builder.changed, idle]

theorem step_node_without_product {call : Call} {geometry : Geometry} {kind : NodeKind}
    (asks : call.node? = some (geometry, kind)) : call.step b = (.error call.refusal, b) := by
  have hfault : call.nodeFault? = geometry.fault?.or kind.rateFault? := by rw [nodeFault?, asks, Option.bind_some]
  rw [step_of_node asks, refusal, hfault]
  cases geometry.fault?.or kind.rateFault? with
  | some fault => rfl
  | none => simp only [noFault, changed_without_product idle]

/-- Without a product no call but `start` succeeds, and none changes anything. -/
theorem step_without_product {call : Call} (hs : call ≠ .start) : call.step b = (.error call.refusal, b) := by
  have hupdate {change : Graph → Except NetworkError Graph}
      (hrun : call.run b = (do Builder.update change; return .done : Build Answer) b) :
      call.step b = (.error .builderNotStarted, b) := by
    rw [step_of_update hrun, changed_without_product idle]
  cases call with
  | start => exact absurd rfl hs
  | regularNode _ | entryPoint _ _ | exitPoint _ _ => exact step_node_without_product idle rfl
  | street _ _ _ _ _ | behavior _ _ | interestPoint _ _ _ | generated _ _ _ | absorbed _ _ _ => exact hupdate rfl
  | finalize =>
    rw [step_eq_error_iff]
    exact (Builder.map_run Builder.finalize Answer.graph b).trans (by rw [Builder.finalize_run, idle]; rfl)

theorem runAll_without_product {calls : List Call} (hs : .start ∉ calls) :
    runAll calls b = (calls.map fun call => .error call.refusal, b) := by
  induction calls with
  | nil => rfl
  | cons call rest ih =>
    rw [List.mem_cons, not_or] at hs
    rw [runAll_cons, step_without_product idle (Ne.symm hs.1), ih hs.2]
    rfl

/-- On a builder without a product, calls other than `start` all fail and leave it as it was. Exactly the calls that ask
for no node or for one with valid arguments report that nothing was started; the others report a fault of their
arguments. -/
theorem idle_builder_refuses (calls : List Call) (hs : .start ∉ calls) :
    runAll calls b = (calls.map fun call => .error call.refusal, b) ∧
      ∀ call ∈ calls,
        (call.NodeArgumentsValid → call.refusal = .builderNotStarted) ∧
        (¬ call.NodeArgumentsValid → ∃ fault, call.nodeFault? = some fault ∧ call.refusal = .validation fault) := by
  refine ⟨runAll_without_product idle hs, fun call _ => ⟨(refusal_eq_iff call).2, fun hnot => ?_⟩⟩
  rw [← nodeFault?_eq_none_iff] at hnot
  obtain ⟨fault, hfault⟩ := Option.ne_none_iff_exists'.1 hnot
  exact ⟨fault, hfault, by rw [refusal, hfault]⟩

end

/-- After the crossing was handed over, an exit point with a negative rate is told so; the street after it has a negative
weight, but nothing to join. -/
theorem idle_builder_refuses_crossing :
    (runAll (crossing.take 13) {}).2.product = none ∧
      runAll [.exitPoint (.at 4 0) (.ofInt (-1)), .street true ⟨0, 0⟩ ⟨4, 0⟩ 0 (.ofInt (-1)), .finalize]
          (runAll (crossing.take 13) {}).2 =
        ([.error (.validation (.notFiniteNonNegative .exitRate (.ofInt (-1)))), .error .builderNotStarted,
          .error .builderNotStarted], (runAll (crossing.take 13) {}).2) := by
  have idle : (runAll (crossing.take 13) {}).2.product = none := by
    rw [← Option.isNone_iff_eq_none]
    decide +kernel
  have hrefusals : [Call.exitPoint (.at 4 0) (.ofInt (-1)), .street true ⟨0, 0⟩ ⟨4, 0⟩ 0 (.ofInt (-1)), .finalize].map
      refusal = [.validation (.notFiniteNonNegative .exitRate (.ofInt (-1))), .builderNotStarted, .builderNotStarted] := by
    decide +kernel
  have houtcomes := congrArg (List.map fun e => (.error e : Except NetworkError Answer)) hrefusals
  exact ⟨idle, (idle_builder_refuses idle _ (by decide)).1.trans (Prod.ext houtcomes rfl)⟩

/-- A new builder that is asked for a node without width reports the width and not that nothing was started. -/
theorem not_every_call_reports_unstarted :
    ¬ ∀ (calls : List Call) (call : Call), (runAll calls {}).2.product = none → call ≠ .start →
      call.step (runAll calls {}).2 = (.error .builderNotStarted, (runAll calls {}).2) := by
  intro h
  have hstep := h [] (.regularNode ⟨⟨0, 0⟩, 0, 2, 1, .ofNat 1⟩) rfl (by decide)
  have hrefusal : refusal (.regularNode ⟨⟨0, 0⟩, 0, 2, 1, .ofNat 1⟩) = .validation (.notPositive .nodeWidth 0) := by
    decide +kernel
  rw [step_without_product rfl (by decide), hrefusal] at hstep
  cases hstep

end BeaconMap.Call
