import BeaconMap.Network.Description
import BeaconMap.Proofs.Network.Indexes
/-!
# What a call does

`Call.Makes` says what a call that succeeds asks of the builder and what it makes of it, in terms of the nodes,
edges and behaviors of the product. `run_eq_ok_iff`: on a builder with right indexes, a call succeeds in exactly
these ways. `run_error`: a call that fails leaves the builder as it was. Nothing after this module looks at the
code of a call again.
-/

namespace BeaconMap

/-! ## What a call asks for -/

/-- A share of a behavior, of the agents that appear at a coordinate or of those that vanish there. -/
structure Share where
  generated : Bool
  position : Coordinate
  behavior : BehaviorId
  percentage : Binary64

/-- A node to be among the interest points of a behavior, told by its coordinate. -/
structure Interest where
  position : Coordinate
  behavior : BehaviorId
  optional : Bool

namespace Call

/-- The node that a call asks for, before any share is set. -/
def node? : Call → Option (Geometry × NodeKind)
  | .regularNode geometry => some (geometry, .regular)
  | .entryPoint geometry flow => some (geometry, .entryPoint flow .empty)
  | .exitPoint geometry rate => some (geometry, .exitPoint rate .empty)
  | _ => none

/-- The street that a call asks for. -/
def edge? : Call → Option DescribedEdge
  | .street directed source target width weight => some ⟨source, target, width, weight, directed⟩
  | _ => none

/-- The behavior that a call asks for. -/
def behavior? : Call → Option (BehaviorId × BehaviorKind)
  | .behavior id kind => some (id, kind)
  | _ => none

/-- The interest point that a call asks for. -/
def interest? : Call → Option Interest
  | .interestPoint position id optional => some ⟨position, id, optional⟩
  | _ => none

/-- The share that a call asks for. -/
def share? : Call → Option Share
  | .generated position id percentage => some ⟨true, position, id, percentage⟩
  | .absorbed position id percentage => some ⟨false, position, id, percentage⟩
  | _ => none

end Call

/-! ## Running a call -/

namespace Builder

/-- The product has right indexes. -/
def Indexed (b : Builder) : Prop := ∀ g, b.product = some g → g.Indexed

/-- What a change makes of the product; without a product it fails. -/
def changed (b : Builder) (change : Graph → Except NetworkError Graph) : Except NetworkError Graph :=
  match b.product with
  | none => .error .builderNotStarted
  | some g => change g

theorem changed_eq_ok_iff (b : Builder) (change : Graph → Except NetworkError Graph) (g' : Graph) :
    b.changed change = .ok g' ↔ ∃ g, b.product = some g ∧ change g = .ok g' := by
  unfold changed
  cases b.product <;> simp

theorem graph_run (b : Builder) :
    graph b = match b.product with
      | none => .error .builderNotStarted b
      | some g => .ok g b := by
  unfold graph
  simp only [bind, EStateM.bind, get, getThe, MonadStateOf.get, EStateM.get]
  cases b.product <;> rfl

theorem update_run (change : Graph → Except NetworkError Graph) (b : Builder) :
    update change b = match b.changed change with
      | .ok g => .ok () { b with product := some g }
      | .error e => .error e b := by
  unfold update changed
  simp only [bind, EStateM.bind, graph_run]
  cases b.product with
  | none => rfl
  | some g =>
    dsimp only
    cases change g <;> rfl

theorem place_run (checked : Except NetworkError Node) (b : Builder) :
    place checked b = match checked with
      | .error e => .error e b
      | .ok n => match b.changed (·.addNode n) with
        | .ok g => .ok n.id { product := some g, nextId := b.nextId + 1 }
        | .error e => .error e b := by
  unfold place
  cases checked with
  | error e => rfl
  | ok n =>
    simp only [bind, EStateM.bind, update_run, ofExcept, pure, EStateM.pure]
    cases b.changed (·.addNode n) <;> rfl

theorem finalize_run (b : Builder) :
    finalize b = match b.product with
      | none => .error .builderNotStarted b
      | some g => if g.isConnected then .ok g { b with product := none } else .error .incompleteGraph b := by
  unfold finalize
  simp only [bind, EStateM.bind, graph_run]
  cases b.product with
  | none => rfl
  | some g =>
    dsimp only
    split <;> rfl

theorem update_eq_ok_iff (change : Graph → Except NetworkError Graph) (b b' : Builder) :
    update change b = .ok () b' ↔ ∃ g', b.changed change = .ok g' ∧ b' = { b with product := some g' } := by
  rw [update_run]
  cases b.changed change <;> simp [eq_comm]

theorem place_eq_ok_iff (checked : Except NetworkError Node) (b : Builder) (id : NodeId) (b' : Builder) :
    place checked b = .ok id b' ↔
      ∃ n, checked = .ok n ∧ ∃ g', b.changed (·.addNode n) = .ok g' ∧ id = n.id ∧
        b' = { product := some g', nextId := b.nextId + 1 } := by
  rw [place_run]
  cases checked with
  | error e => simp
  | ok n => cases hc : b.changed (·.addNode n) <;> simp [hc, eq_comm]

theorem finalize_eq_ok_iff (b : Builder) (g : Graph) (b' : Builder) :
    finalize b = .ok g b' ↔ b.product = some g ∧ g.isConnected = true ∧ b' = { b with product := none } := by
  rw [finalize_run]
  cases b.product with
  | none => simp
  | some p =>
    by_cases hc : p.isConnected = true
    · simp only [hc, if_true, EStateM.Result.ok.injEq, Option.some.injEq]
      constructor
      · rintro ⟨rfl, rfl⟩; exact ⟨rfl, hc, rfl⟩
      · rintro ⟨rfl, -, rfl⟩; exact ⟨rfl, rfl⟩
    · simp only [hc, Bool.false_eq_true, if_false, reduceCtorEq, Option.some.injEq, false_iff]
      rintro ⟨rfl, h, -⟩
      exact hc h

/-- A computation that leaves the builder as it was when it fails. -/
def KeepsOnError {α : Type} (m : Build α) : Prop := ∀ b e b', m b = .error e b' → b' = b

theorem update_keepsOnError (change : Graph → Except NetworkError Graph) : KeepsOnError (update change) := by
  intro b e b' h
  rw [update_run] at h
  split at h <;> cases h
  rfl

theorem place_keepsOnError (checked : Except NetworkError Node) : KeepsOnError (place checked) := by
  intro b e b' h
  rw [place_run] at h
  split at h
  · cases h; rfl
  · split at h <;> cases h
    rfl

theorem finalize_keepsOnError : KeepsOnError finalize := by
  intro b e b' h
  rw [finalize_run] at h
  split at h
  · cases h; rfl
  · split at h <;> cases h
    rfl

/-- Making an answer of what a computation gives back. -/
theorem map_run {α β : Type} (m : Build α) (f : α → β) (b : Builder) :
    (do return f (← m) : Build β) b = match m b with
      | .ok x b' => .ok (f x) b'
      | .error e b' => .error e b' := by
  simp only [bind, EStateM.bind, pure, EStateM.pure]
  cases m b <;> rfl

theorem KeepsOnError.map {α β : Type} {m : Build α} (h : KeepsOnError m) (f : α → β) :
    KeepsOnError (do return f (← m)) := by
  intro b e b' he
  rw [map_run] at he
  split at he <;> cases he
  rename_i hm
  exact h b e b' hm

theorem map_eq_ok_iff {α β : Type} (m : Build α) (f : α → β) (b : Builder) (y : β) (b' : Builder) :
    (do return f (← m) : Build β) b = .ok y b' ↔ ∃ x, m b = .ok x b' ∧ y = f x := by
  rw [map_run]
  cases m b with
  | ok x b' => simp [and_comm, eq_comm]
  | error e b' => simp

end Builder

/-! ## The ways to succeed -/

namespace Call

/-- `Makes b call a b'`: made on `b`, the call succeeds with the answer `a` and leaves `b'`. -/
inductive Makes : Builder → Call → Answer → Builder → Prop
  | start (b : Builder) : Makes b .start .done { product := some .empty, nextId := 0 }
  | node {b : Builder} {call : Call} {g : Graph} {geometry : Geometry} {kind : NodeKind}
      (asks : call.node? = some (geometry, kind)) (holds : b.product = some g) (valid : geometry.Valid)
      (rate : ∀ r, kind.rate? = some r → r.NonNegative) (free : ∀ n ∈ g.nodes, n.position ≠ geometry.position)
      (fresh : ∀ n ∈ g.nodes, n.id ≠ b.nextId) :
      Makes b call (.node b.nextId)
        { product := some (g.withNode ⟨b.nextId, geometry, kind⟩), nextId := b.nextId + 1 }
  | edge {b : Builder} {g : Graph} {m n : Node} {directed : Bool} {width : Int32} {weight : Binary64}
      (holds : b.product = some g) (source : m ∈ g.nodes) (target : n ∈ g.nodes) (wide : 0 < width)
      (weighs : weight.NonNegative) :
      Makes b (.street directed m.position n.position width weight) .done
        { b with product := some (g.withEdge ⟨directed, m.id, n.id, width, weight⟩) }
  | behavior {b : Builder} {g : Graph} {id : BehaviorId} {kind : BehaviorKind}
      (holds : b.product = some g) (fresh : id ∉ g.behaviors.ids) :
      Makes b (.behavior id kind) .done { b with product := some (g.withBehavior id (.new id kind)) }
  | interest {b : Builder} {g : Graph} {n : Node} {id : BehaviorId} {found : Behavior} {optional : Bool}
      (holds : b.product = some g) (stands : n ∈ g.nodes) (registered : g.behaviors.find? id = some found) :
      Makes b (.interestPoint n.position id optional) .done
        { b with product := some (g.withBehavior id (found.addInterestPoint optional n.id)) }
  | share {b : Builder} {call : Call} {g : Graph} {s : Share} {n : Node}
      (asks : call.share? = some s) (holds : b.product = some g) (registered : s.behavior ∈ g.behaviors.ids)
      (valid : s.percentage.Percentage) (stands : n ∈ g.nodes) (here : n.position = s.position)
      (takes : n.kind.Takes s.generated) :
      Makes b call .done { b with product := some (g.withShare s.position s.behavior s.percentage) }
  | finalize {b : Builder} {g : Graph} (holds : b.product = some g) (connected : g.isConnected = true) :
      Makes b .finalize (.graph g) { b with product := none }

/-- A call that fails leaves the builder as it was. -/
theorem run_error (call : Call) : Builder.KeepsOnError call.run := by
  cases call with
  | start => intro b e b' h; cases h
  | regularNode _ | entryPoint _ _ | exitPoint _ _ =>
    exact Builder.KeepsOnError.map (fun b => Builder.place_keepsOnError _ b) _
  | street _ _ _ _ _ | behavior _ _ | interestPoint _ _ _ | generated _ _ _ | absorbed _ _ _ =>
    exact Builder.KeepsOnError.map (Builder.update_keepsOnError _) _
  | finalize => exact Builder.finalize_keepsOnError.map _

/-- What a node call comes to, whichever constructor checks it. -/
theorem place_eq_ok_iff {b : Builder} (h : b.Indexed) (checked : Except NetworkError Node) (geometry : Geometry)
    (kind : NodeKind)
    (hc : ∀ n, checked = .ok n ↔
      (geometry.Valid ∧ ∀ r, kind.rate? = some r → r.NonNegative) ∧ n = ⟨b.nextId, geometry, kind⟩)
    (id : NodeId) (b' : Builder) :
    Builder.place checked b = .ok id b' ↔
      ∃ g, b.product = some g ∧ geometry.Valid ∧ (∀ r, kind.rate? = some r → r.NonNegative) ∧
        (∀ n ∈ g.nodes, n.position ≠ geometry.position) ∧ (∀ n ∈ g.nodes, n.id ≠ b.nextId) ∧ id = b.nextId ∧
        b' = { product := some (g.withNode ⟨b.nextId, geometry, kind⟩), nextId := b.nextId + 1 } := by
  rw [Builder.place_eq_ok_iff]
  simp only [hc, Builder.changed_eq_ok_iff]
  constructor
  · rintro ⟨n, ⟨⟨hv, hr⟩, rfl⟩, g', ⟨g, hg, hadd⟩, rfl, rfl⟩
    obtain ⟨hfree, hfresh, rfl⟩ := ((h g hg).addNode_eq_ok_iff _ _).1 hadd
    exact ⟨g, hg, hv, hr, hfree, hfresh, rfl, rfl⟩
  · rintro ⟨g, hg, hv, hr, hfree, hfresh, rfl, rfl⟩
    exact ⟨_, ⟨⟨hv, hr⟩, rfl⟩, _, ⟨g, hg, ((h g hg).addNode_eq_ok_iff _ _).2 ⟨hfree, hfresh, rfl⟩⟩, rfl, rfl⟩

/-- What a call that changes the product comes to: the change succeeds on it. -/
theorem update_eq_ok_iff (change : Graph → Except NetworkError Graph) (b : Builder) (a : Answer) (b' : Builder) :
    (do Builder.update change; return .done : Build Answer) b = .ok a b' ↔
      ∃ g g', b.product = some g ∧ change g = .ok g' ∧ a = .done ∧ b' = { b with product := some g' } := by
  refine (Builder.map_eq_ok_iff (Builder.update change) (fun _ => .done) b a b').trans ?_
  constructor
  · rintro ⟨⟨⟩, hu, rfl⟩
    obtain ⟨g', hg', rfl⟩ := (Builder.update_eq_ok_iff _ _ _).1 hu
    obtain ⟨g, hg, hchange⟩ := (Builder.changed_eq_ok_iff _ _ _).1 hg'
    exact ⟨g, g', hg, hchange, rfl, rfl⟩
  · rintro ⟨g, g', hg, hchange, rfl, rfl⟩
    have hg' := (Builder.changed_eq_ok_iff _ _ _).2 ⟨g, hg, hchange⟩
    exact ⟨(), (Builder.update_eq_ok_iff _ _ _).2 ⟨g', hg', rfl⟩, rfl⟩

section
variable {b : Builder} (h : b.Indexed) (a : Answer) (b' : Builder)
include h

/-- The three calls for nodes. -/
theorem run_node_eq_ok_iff {call : Call} {geometry : Geometry} {kind : NodeKind}
    (asks : call.node? = some (geometry, kind)) :
    call.run b = .ok a b' ↔
      ∃ g, b.product = some g ∧ geometry.Valid ∧ (∀ r, kind.rate? = some r → r.NonNegative) ∧
        (∀ n ∈ g.nodes, n.position ≠ geometry.position) ∧ (∀ n ∈ g.nodes, n.id ≠ b.nextId) ∧ a = .node b.nextId ∧
        b' = { product := some (g.withNode ⟨b.nextId, geometry, kind⟩), nextId := b.nextId + 1 } := by
  -- The calls differ in the constructor that checks the node, and in nothing else.
  obtain ⟨checked, hrun, hc⟩ : ∃ checked, call.run b = (do return .node (← Builder.place checked) : Build Answer) b ∧
      ∀ n, checked = .ok n ↔
        (geometry.Valid ∧ ∀ r, kind.rate? = some r → r.NonNegative) ∧ n = ⟨b.nextId, geometry, kind⟩ := by
    cases call <;> cases asks
    · exact ⟨_, rfl, fun n => by rw [Node.regular_eq_ok_iff]; simp [NodeKind.rate?]⟩
    · exact ⟨_, rfl, fun n => by rw [Node.entryPoint_eq_ok_iff]; simp [NodeKind.rate?]⟩
    · exact ⟨_, rfl, fun n => by rw [Node.exitPoint_eq_ok_iff]; simp [NodeKind.rate?]⟩
  rw [hrun, Builder.map_eq_ok_iff]
  simp only [place_eq_ok_iff h checked geometry kind hc]
  constructor
  · rintro ⟨id, ⟨g, hg, hv, hr, hfree, hfresh, rfl, rfl⟩, rfl⟩
    exact ⟨g, hg, hv, hr, hfree, hfresh, rfl, rfl⟩
  · rintro ⟨g, hg, hv, hr, hfree, hfresh, rfl, rfl⟩
    exact ⟨_, ⟨g, hg, hv, hr, hfree, hfresh, rfl, rfl⟩, rfl⟩

theorem run_street_eq_ok_iff (directed : Bool) (source target : Coordinate) (width : Int32) (weight : Binary64) :
    (street directed source target width weight).run b = .ok a b' ↔
      ∃ g, b.product = some g ∧ ∃ m ∈ g.nodes, m.position = source ∧ ∃ n ∈ g.nodes, n.position = target ∧
        (0 < width ∧ weight.NonNegative) ∧ a = .done ∧
        b' = { b with product := some (g.withEdge ⟨directed, m.id, n.id, width, weight⟩) } := by
  refine (update_eq_ok_iff _ b a b').trans ?_
  constructor
  · rintro ⟨g, g', hg, hchange, rfl, rfl⟩
    simp only [bind_eq_ok_iff, (h g hg).nodeAt_eq_ok_iff, Edge.new_eq_ok_iff] at hchange
    obtain ⟨m, ⟨hm, hs⟩, n, ⟨hn, ht⟩, e, ⟨hvalid, rfl⟩, hadd⟩ := hchange
    obtain ⟨-, -, rfl⟩ := ((h g hg).addEdge_eq_ok_iff _ _).1 hadd
    exact ⟨g, hg, m, hm, hs, n, hn, ht, hvalid, rfl, rfl⟩
  · rintro ⟨g, hg, m, hm, hs, n, hn, ht, hvalid, rfl, rfl⟩
    refine ⟨g, _, hg, ?_, rfl, rfl⟩
    simp only [bind_eq_ok_iff, (h g hg).nodeAt_eq_ok_iff, Edge.new_eq_ok_iff]
    exact ⟨m, ⟨hm, hs⟩, n, ⟨hn, ht⟩, _, ⟨hvalid, rfl⟩,
      ((h g hg).addEdge_eq_ok_iff _ _).2 ⟨⟨m, hm, rfl⟩, ⟨n, hn, rfl⟩, rfl⟩⟩

theorem run_interestPoint_eq_ok_iff (position : Coordinate) (id : BehaviorId) (optional : Bool) :
    (interestPoint position id optional).run b = .ok a b' ↔
      ∃ g, b.product = some g ∧ ∃ n found, (n ∈ g.nodes ∧ n.position = position) ∧
        g.behaviors.find? id = some found ∧ a = .done ∧
        b' = { b with product := some (g.withBehavior id (found.addInterestPoint optional n.id)) } := by
  refine (update_eq_ok_iff _ b a b').trans ?_
  constructor
  · rintro ⟨g, g', hg, hchange, rfl, rfl⟩
    obtain ⟨n, found, hn, hf, rfl⟩ := ((h g hg).addInterestPoint_eq_ok_iff _ _ _ _).1 hchange
    exact ⟨g, hg, n, found, hn, hf, rfl, rfl⟩
  · rintro ⟨g, hg, n, found, hn, hf, rfl, rfl⟩
    exact ⟨g, _, hg, ((h g hg).addInterestPoint_eq_ok_iff _ _ _ _).2 ⟨n, found, hn, hf, rfl⟩, rfl, rfl⟩

/-- The two calls for shares. -/
theorem run_share_eq_ok_iff {call : Call} {s : Share} (asks : call.share? = some s) :
    call.run b = .ok a b' ↔
      ∃ g, b.product = some g ∧ (s.behavior ∈ g.behaviors.ids ∧ s.percentage.Percentage ∧
        ∃ n ∈ g.nodes, n.position = s.position ∧ n.kind.Takes s.generated) ∧ a = .done ∧
        b' = { b with product := some (g.withShare s.position s.behavior s.percentage) } := by
  obtain ⟨set, hrun, hset⟩ : ∃ set : Node → Except NetworkError Node,
      (call.run b = (do
        Builder.update fun g => do let _ ← g.behavior s.behavior; g.changeNodeAt s.position set
        return .done : Build Answer) b) ∧
      ∀ n n', set n = .ok n' ↔
        (s.percentage.Percentage ∧ n.kind.Takes s.generated) ∧ n' = n.withShare s.behavior s.percentage := by
    cases call <;> cases asks
    · exact ⟨_, rfl, fun n n' => n.setGenerated_eq_ok_iff _ _ n'⟩
    · exact ⟨_, rfl, fun n n' => n.setAbsorbed_eq_ok_iff _ _ n'⟩
  rw [hrun, update_eq_ok_iff]
  constructor
  · rintro ⟨g, g', hg, hchange, rfl, rfl⟩
    obtain ⟨hok, rfl⟩ := ((h g hg).setShare_eq_ok_iff hset _).1 hchange
    exact ⟨g, hg, hok, rfl, rfl⟩
  · rintro ⟨g, hg, hok, rfl, rfl⟩
    exact ⟨g, _, hg, ((h g hg).setShare_eq_ok_iff hset _).2 ⟨hok, rfl⟩, rfl, rfl⟩

end

theorem run_behavior_eq_ok_iff (b : Builder) (a : Answer) (b' : Builder) (id : BehaviorId) (kind : BehaviorKind) :
    (behavior id kind).run b = .ok a b' ↔
      ∃ g, b.product = some g ∧ id ∉ g.behaviors.ids ∧ a = .done ∧
        b' = { b with product := some (g.withBehavior id (.new id kind)) } := by
  refine (update_eq_ok_iff _ b a b').trans ?_
  constructor
  · rintro ⟨g, g', hg, hchange, rfl, rfl⟩
    obtain ⟨hnew, rfl⟩ := (Graph.addBehavior_eq_ok_iff _ _ _).1 hchange
    exact ⟨g, hg, hnew, rfl, rfl⟩
  · rintro ⟨g, hg, hnew, rfl, rfl⟩
    exact ⟨g, _, hg, (Graph.addBehavior_eq_ok_iff _ _ _).2 ⟨hnew, rfl⟩, rfl, rfl⟩

theorem run_finalize_eq_ok_iff (b : Builder) (a : Answer) (b' : Builder) :
    finalize.run b = .ok a b' ↔
      ∃ g, b.product = some g ∧ g.isConnected = true ∧ a = .graph g ∧ b' = { b with product := none } := by
  refine (Builder.map_eq_ok_iff Builder.finalize Answer.graph b a b').trans ?_
  simp only [Builder.finalize_eq_ok_iff]
  constructor
  · rintro ⟨g, ⟨hg, hc, rfl⟩, rfl⟩
    exact ⟨g, hg, hc, rfl, rfl⟩
  · rintro ⟨g, hg, hc, rfl, rfl⟩
    exact ⟨g, ⟨hg, hc, rfl⟩, rfl⟩

/-- On a builder with right indexes a call succeeds in exactly the ways that `Makes` lists. -/
theorem run_eq_ok_iff {b : Builder} (h : b.Indexed) (call : Call) (a : Answer) (b' : Builder) :
    call.run b = .ok a b' ↔ Makes b call a b' := by
  constructor
  · intro hrun
    cases call with
    | start =>
      cases hrun
      exact .start b
    | regularNode _ | entryPoint _ _ | exitPoint _ _ =>
      obtain ⟨g, hg, hv, hr, hfree, hfresh, rfl, rfl⟩ := (run_node_eq_ok_iff h a b' rfl).1 hrun
      exact .node rfl hg hv hr hfree hfresh
    | street directed source target width weight =>
      obtain ⟨g, hg, m, hm, rfl, n, hn, rfl, ⟨hw, hwt⟩, rfl, rfl⟩ := (run_street_eq_ok_iff h a b' _ _ _ _ _).1 hrun
      exact .edge hg hm hn hw hwt
    | behavior id kind =>
      obtain ⟨g, hg, hnew, rfl, rfl⟩ := (run_behavior_eq_ok_iff b a b' _ _).1 hrun
      exact .behavior hg hnew
    | interestPoint position id optional =>
      obtain ⟨g, hg, n, found, ⟨hn, rfl⟩, hf, rfl, rfl⟩ := (run_interestPoint_eq_ok_iff h a b' _ _ _).1 hrun
      exact .interest hg hn hf
    | generated _ _ _ | absorbed _ _ _ =>
      obtain ⟨g, hg, ⟨hid, hv, n, hn, hp, ht⟩, rfl, rfl⟩ := (run_share_eq_ok_iff h a b' rfl).1 hrun
      exact .share rfl hg hid hv hn hp ht
    | finalize =>
      obtain ⟨g, hg, hc, rfl, rfl⟩ := (run_finalize_eq_ok_iff b a b').1 hrun
      exact .finalize hg hc
  · intro hmakes
    cases hmakes with
    | start => rfl
    | node asks hg hv hr hfree hfresh =>
      exact (run_node_eq_ok_iff h _ _ asks).2 ⟨_, hg, hv, hr, hfree, hfresh, rfl, rfl⟩
    | edge hg hm hn hw hwt =>
      exact (run_street_eq_ok_iff h _ _ _ _ _ _ _).2 ⟨_, hg, _, hm, rfl, _, hn, rfl, ⟨hw, hwt⟩, rfl, rfl⟩
    | behavior hg hnew => exact (run_behavior_eq_ok_iff _ _ _ _ _).2 ⟨_, hg, hnew, rfl, rfl⟩
    | interest hg hn hf =>
      exact (run_interestPoint_eq_ok_iff h _ _ _ _ _).2 ⟨_, hg, _, _, ⟨hn, rfl⟩, hf, rfl, rfl⟩
    | share asks hg hid hv hn hp ht =>
      exact (run_share_eq_ok_iff h _ _ asks).2 ⟨_, hg, ⟨hid, hv, _, hn, hp, ht⟩, rfl, rfl⟩
    | finalize hg hc => exact (run_finalize_eq_ok_iff _ _ _).2 ⟨_, hg, hc, rfl, rfl⟩

end Call

end BeaconMap
