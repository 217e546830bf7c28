import BeaconMap.Network.Validation
import BeaconMap.Proofs.Network.Tables
import BeaconMap.Proofs.Number.Value
/-!
# What passes the checks on arguments

A constructor succeeds exactly on the arguments described here, and then gives the node or edge with these
arguments. A share is set at a node exactly when the node's kind takes it and it is a percentage.
-/

namespace BeaconMap

/-- Positive dimensions and a speed that is finite and not negative. -/
structure Geometry.Valid (g : Geometry) : Prop where
  width : 0 < g.width
  height : 0 < g.height
  radius : 0 < g.radius
  speed : g.speed.NonNegative

/-- A small node at a coordinate. -/
def Geometry.at (x y : Int32) : Geometry := ⟨⟨x, y⟩, 2, 2, 1, .zero false⟩

namespace NodeKind

/-- The rate of an entry or exit point. -/
def rate? : NodeKind → Option Binary64
  | .regular => none
  | .entryPoint flow _ => some flow.rate
  | .exitPoint rate _ => some rate

/-- The shares of the behaviors at a node; a regular node has none. -/
def shares : NodeKind → Percentages
  | .regular => .empty
  | .entryPoint _ generated => generated
  | .exitPoint _ absorbed => absorbed

/-- The kind before any share was set. -/
def bare : NodeKind → NodeKind
  | .regular => .regular
  | .entryPoint flow _ => .entryPoint flow .empty
  | .exitPoint rate _ => .exitPoint rate .empty

/-- The kind with one more share; a regular node takes none. -/
def setShare (id : BehaviorId) (percentage : Binary64) : NodeKind → NodeKind
  | .regular => .regular
  | .entryPoint flow generated => .entryPoint flow (generated.insert id percentage)
  | .exitPoint rate absorbed => .exitPoint rate (absorbed.insert id percentage)

/-- Entry points take generated shares and exit points absorbed ones. -/
def Takes (generated : Bool) : NodeKind → Prop
  | .regular => False
  | .entryPoint _ _ => generated = true
  | .exitPoint _ _ => generated = false

@[simp] theorem bare_bare (k : NodeKind) : k.bare.bare = k.bare := by cases k <;> rfl

@[simp] theorem rate?_bare (k : NodeKind) : k.bare.rate? = k.rate? := by cases k <;> rfl

@[simp] theorem takes_bare (generated : Bool) (k : NodeKind) : k.bare.Takes generated ↔ k.Takes generated := by
  cases k <;> rfl

@[simp] theorem bare_setShare (id : BehaviorId) (v : Binary64) (k : NodeKind) : (k.setShare id v).bare = k.bare := by
  cases k <;> rfl

@[simp] theorem shares_bare (k : NodeKind) : k.bare.shares = .empty := by cases k <;> rfl

theorem shares_setShare {generated : Bool} {k : NodeKind} (h : k.Takes generated) (id : BehaviorId) (v : Binary64) :
    (k.setShare id v).shares = k.shares.insert id v := by
  cases k with
  | regular => exact h.elim
  | entryPoint _ _ => rfl
  | exitPoint _ _ => rfl

end NodeKind

/-- The node with one more share. -/
def Node.withShare (n : Node) (id : BehaviorId) (percentage : Binary64) : Node :=
  { n with kind := n.kind.setShare id percentage }

@[simp] theorem Node.withShare_id (n : Node) (id : BehaviorId) (v : Binary64) : (n.withShare id v).id = n.id := rfl

@[simp] theorem Node.withShare_geometry (n : Node) (id : BehaviorId) (v : Binary64) :
    (n.withShare id v).geometry = n.geometry := rfl

@[simp] theorem Node.withShare_position (n : Node) (id : BehaviorId) (v : Binary64) :
    (n.withShare id v).position = n.position := rfl

@[simp] theorem Node.withShare_kind (n : Node) (id : BehaviorId) (v : Binary64) :
    (n.withShare id v).kind = n.kind.setShare id v := rfl

/-! ## Faults -/

theorem Dimension.fault?_eq_none_iff (what : Dimension) (v : Int32) : what.fault? v = none ↔ 0 < v := by
  simp [Dimension.fault?, Int32.not_le]

theorem Quantity.fault?_eq_none_iff (what : Quantity) (v : Binary64) : what.fault? v = none ↔ v.NonNegative := by
  simp [Quantity.fault?, Binary64.isNonNegative_iff]

theorem percentageFault?_eq_none_iff (v : Binary64) : percentageFault? v = none ↔ v.Percentage := by
  simp [percentageFault?, Binary64.isPercentage_iff]

theorem Geometry.fault?_eq_none_iff (g : Geometry) : g.fault? = none ↔ g.Valid := by
  simp only [Geometry.fault?, Option.or_eq_none_iff, Dimension.fault?_eq_none_iff, Quantity.fault?_eq_none_iff]
  constructor
  · rintro ⟨hw, hh, hr, hs⟩; exact ⟨hw, hh, hr, hs⟩
  · rintro ⟨hw, hh, hr, hs⟩; exact ⟨hw, hh, hr, hs⟩

theorem streetFault?_eq_none_iff (width : Int32) (weight : Binary64) :
    streetFault? width weight = none ↔ 0 < width ∧ weight.NonNegative := by
  simp only [streetFault?, Option.or_eq_none_iff, Dimension.fault?_eq_none_iff, Quantity.fault?_eq_none_iff]

/-- What follows a check goes on exactly when there is no fault. -/
theorem noFault_bind_eq_ok_iff {α : Type} (fault : Option Fault) (rest : Unit → Except NetworkError α) (x : α) :
    (noFault fault >>= rest) = .ok x ↔ fault = none ∧ rest () = .ok x := by
  cases fault with
  | none => simp [noFault, bind, Except.bind]
  | some f => simp [noFault, bind, Except.bind]

/-! ## Nodes and edges -/

theorem Node.regular_eq_ok_iff (id : NodeId) (g : Geometry) (n : Node) :
    Node.regular id g = .ok n ↔ g.Valid ∧ n = ⟨id, g, .regular⟩ := by
  rw [Node.regular, noFault_bind_eq_ok_iff, Geometry.fault?_eq_none_iff]
  simp [pure, Except.pure, eq_comm]

theorem Node.entryPoint_eq_ok_iff (id : NodeId) (g : Geometry) (flow : EntryFlow) (n : Node) :
    Node.entryPoint id g flow = .ok n ↔
      (g.Valid ∧ flow.rate.NonNegative) ∧ n = ⟨id, g, .entryPoint flow .empty⟩ := by
  rw [Node.entryPoint, noFault_bind_eq_ok_iff, Option.or_eq_none_iff, Geometry.fault?_eq_none_iff,
    EntryFlow.fault?, Quantity.fault?_eq_none_iff]
  simp [pure, Except.pure, eq_comm]

theorem Node.exitPoint_eq_ok_iff (id : NodeId) (g : Geometry) (rate : Binary64) (n : Node) :
    Node.exitPoint id g rate = .ok n ↔ (g.Valid ∧ rate.NonNegative) ∧ n = ⟨id, g, .exitPoint rate .empty⟩ := by
  rw [Node.exitPoint, noFault_bind_eq_ok_iff, Option.or_eq_none_iff, Geometry.fault?_eq_none_iff,
    Quantity.fault?_eq_none_iff]
  simp [pure, Except.pure, eq_comm]

theorem Edge.new_eq_ok_iff (directed : Bool) (s t : NodeId) (width : Int32) (weight : Binary64) (e : Edge) :
    Edge.new directed s t width weight = .ok e ↔
      (0 < width ∧ weight.NonNegative) ∧ e = ⟨directed, s, t, width, weight⟩ := by
  rw [Edge.new, noFault_bind_eq_ok_iff, streetFault?_eq_none_iff]
  simp [pure, Except.pure, eq_comm]

theorem Node.setGenerated_eq_ok_iff (n : Node) (id : BehaviorId) (v : Binary64) (n' : Node) :
    n.setGenerated id v = .ok n' ↔ (v.Percentage ∧ n.kind.Takes true) ∧ n' = n.withShare id v := by
  rw [Node.setGenerated, noFault_bind_eq_ok_iff, percentageFault?_eq_none_iff]
  obtain ⟨i, g, kind⟩ := n
  cases kind <;>
    simp [NodeKind.Takes, Node.withShare, NodeKind.setShare, pure, Except.pure, throw, throwThe,
      MonadExceptOf.throw, eq_comm]

theorem Node.setAbsorbed_eq_ok_iff (n : Node) (id : BehaviorId) (v : Binary64) (n' : Node) :
    n.setAbsorbed id v = .ok n' ↔ (v.Percentage ∧ n.kind.Takes false) ∧ n' = n.withShare id v := by
  rw [Node.setAbsorbed, noFault_bind_eq_ok_iff, percentageFault?_eq_none_iff]
  obtain ⟨i, g, kind⟩ := n
  cases kind <;>
    simp [NodeKind.Takes, Node.withShare, NodeKind.setShare, pure, Except.pure, throw, throwThe,
      MonadExceptOf.throw, eq_comm]

end BeaconMap
