import BeaconMap.Proofs.Network.Connected
/-!
# A builder without indexes

A `Listing` is a network as plain lists. The builder of this module keeps nothing else: it finds nodes and behaviors
by scanning, numbers a new node by the length of the list, and has no counter. `Listing.answer` says call by call what
it checks and in which order; the first check that fails is the answer. Nothing here reads an index or a counter of the
library, so that it can stand as a description of them.
-/

namespace BeaconMap

open Connectivity

/-! ## Checks that can be computed -/

instance (v : Binary64) : Decidable v.NonNegative := decidable_of_iff _ v.isNonNegative_iff

instance (v : Binary64) : Decidable v.Percentage := decidable_of_iff _ v.isPercentage_iff

instance (generated : Bool) (kind : NodeKind) : Decidable (kind.Takes generated) :=
  match kind with
  | .regular => inferInstanceAs (Decidable False)
  | .entryPoint _ _ => inferInstanceAs (Decidable (generated = true))
  | .exitPoint _ _ => inferInstanceAs (Decidable (generated = false))

theorem Connectivity.ends_mem (edges : List Edge) (a b : NodeId) :
    ∀ e ∈ edges, e.source ∈ a :: b :: edges.flatMap (fun e => [e.source, e.target]) ∧
      e.target ∈ a :: b :: edges.flatMap (fun e => [e.source, e.target]) := by
  intro e he
  have hsource : e.source ∈ edges.flatMap (fun e => [e.source, e.target]) := List.mem_flatMap.2 ⟨e, he, by simp⟩
  have htarget : e.target ∈ edges.flatMap (fun e => [e.source, e.target]) := List.mem_flatMap.2 ⟨e, he, by simp⟩
  exact ⟨by simp only [List.mem_cons, hsource, or_true], by simp only [List.mem_cons, htarget, or_true]⟩

/-- Whether a chain leads from one node to another is read off the labels of the two and of all ends of edges. -/
instance (edges : List Edge) (a b : NodeId) : Decidable (Chain edges a b) :=
  decidable_of_iff _ (lookup_foldl_join _ (ends_mem edges a b) List.mem_cons_self
    (List.mem_cons_of_mem _ List.mem_cons_self))

/-- The kind of node that takes a share. -/
def Share.wanted (s : Share) : WantedKind := if s.generated then .entryPoint else .exitPoint

/-- A network as plain lists, the behaviors in order of id. -/
structure Listing where
  nodes : List Node := []
  edges : List Edge := []
  behaviors : List Behavior := []
deriving DecidableEq

/-- What a call gives back, a network as its listing. -/
inductive Reply where
  | done
  | node (id : NodeId)
  | network (listing : Listing)
deriving DecidableEq

namespace Listing

def require (p : Prop) [Decidable p] (error : NetworkError) : Except NetworkError Unit :=
  if p then .ok () else .error error

def requireDimension (what : Dimension) (v : Int32) : Except NetworkError Unit :=
  require (0 < v) (.validation (.notPositive what v))

def requireQuantity (what : Quantity) (v : Binary64) : Except NetworkError Unit :=
  require v.NonNegative (.validation (.notFiniteNonNegative what v))

def requireGeometry (g : Geometry) : Except NetworkError Unit := do
  requireDimension .nodeWidth g.width
  requireDimension .nodeHeight g.height
  requireDimension .nodeRadius g.radius
  requireQuantity .nodeSpeed g.speed

def requireRate : NodeKind → Except NetworkError Unit
  | .regular => .ok ()
  | .entryPoint flow _ => requireQuantity .entryRate flow.rate
  | .exitPoint rate _ => requireQuantity .exitRate rate

/-! ## Scans -/

/-- The first node at a coordinate. -/
def nodeAt (l : Listing) (position : Coordinate) : Except NetworkError Node :=
  match l.nodes.find? fun n => n.position = position with
  | some node => .ok node
  | none => .error (.noSuchNode position)

/-- The first node with an id. -/
def node (l : Listing) (id : NodeId) : Except NetworkError Node :=
  match l.nodes.find? fun n => n.id = id with
  | some node => .ok node
  | none => .error (.noSuchNodeId id)

/-- The first behavior with an id. -/
def behavior (l : Listing) (id : BehaviorId) : Except NetworkError Behavior :=
  match l.behaviors.find? fun b => b.id = id with
  | some behavior => .ok behavior
  | none => .error (.noSuchBehavior id)

/-- A chain of edges leads from every node to every other. -/
def Connected (l : Listing) : Prop := ∀ m ∈ l.nodes, ∀ n ∈ l.nodes, Chain l.edges m.id n.id

instance (l : Listing) : Decidable l.Connected := inferInstanceAs (Decidable (∀ m ∈ l.nodes, ∀ n ∈ l.nodes, _))

/-! ## Changes of a network -/

def addStreet (l : Listing) (directed : Bool) (source target : Coordinate) (width : Int32) (weight : Binary64) :
    Except NetworkError Listing := do
  let source ← l.nodeAt source
  let target ← l.nodeAt target
  requireDimension .edgeWidth width
  requireQuantity .edgeWeight weight
  return { l with edges := l.edges ++ [⟨directed, source.id, target.id, width, weight⟩] }

/-- A behavior put at its place in the order of ids, instead of the one with its id. -/
def file (l : Listing) (filed : Behavior) : Listing :=
  { l with
    behaviors :=
      l.behaviors.filter (fun b => b.id < filed.id) ++ [filed] ++ l.behaviors.filter fun b => filed.id < b.id }

def addBehavior (l : Listing) (added : Behavior) : Except NetworkError Listing := do
  require (∀ b ∈ l.behaviors, b.id ≠ added.id) (.duplicateId .behavior added.id)
  return l.file added

def addInterestPoint (l : Listing) (position : Coordinate) (id : BehaviorId) (optional : Bool) :
    Except NetworkError Listing := do
  let node ← l.nodeAt position
  let found ← l.behavior id
  return l.file (found.addInterestPoint optional node.id)

def setShare (l : Listing) (s : Share) : Except NetworkError Listing := do
  let _ ← l.behavior s.behavior
  let found ← l.nodeAt s.position
  require s.percentage.Percentage (.validation (.notPercentage s.percentage))
  require (found.kind.Takes s.generated) (.wrongNodeKind s.position s.wanted)
  return { l with
    nodes := l.nodes.map fun n => if n.position = s.position then found.withShare s.behavior s.percentage else n }

/-! ## Calls

A builder holds a listing or nothing. -/

def started : Option Listing → Except NetworkError Listing
  | none => .error .builderNotStarted
  | some l => .ok l

/-- Places a node; its arguments are checked before anything else. -/
def place (held : Option Listing) (geometry : Geometry) (kind : NodeKind) :
    Except NetworkError (Reply × Option Listing) := do
  requireGeometry geometry
  requireRate kind
  let l ← started held
  require (∀ n ∈ l.nodes, n.position ≠ geometry.position) (.duplicateCoordinate geometry.position)
  let id := UInt32.ofNat l.nodes.length
  return (.node id, some { l with nodes := l.nodes ++ [⟨id, geometry, kind⟩] })

def change (held : Option Listing) (how : Listing → Except NetworkError Listing) :
    Except NetworkError (Reply × Option Listing) := do
  let l ← started held
  let changed ← how l
  return (.done, some changed)

/-- The reply to a call and what is held after it. -/
def answer (held : Option Listing) : Call → Except NetworkError (Reply × Option Listing)
  | .start => return (.done, some {})
  | .regularNode geometry => place held geometry .regular
  | .entryPoint geometry flow => place held geometry (.entryPoint flow .empty)
  | .exitPoint geometry rate => place held geometry (.exitPoint rate .empty)
  | .street directed source target width weight => change held (·.addStreet directed source target width weight)
  | .behavior id kind => change held (·.addBehavior (.new id kind))
  | .interestPoint position id optional => change held (·.addInterestPoint position id optional)
  | .generated position id percentage => change held (·.setShare ⟨true, position, id, percentage⟩)
  | .absorbed position id percentage => change held (·.setShare ⟨false, position, id, percentage⟩)
  | .finalize => do
    let l ← started held
    require l.Connected .incompleteGraph
    return (.network l, none)

/-- The outcome of a call; one that fails changes nothing. -/
def step (call : Call) (held : Option Listing) : Except NetworkError Reply × Option Listing :=
  match answer held call with
  | .ok (reply, next) => (.ok reply, next)
  | .error error => (.error error, held)

def runAll : List Call → Option Listing → List (Except NetworkError Reply) × Option Listing
  | [], held => ([], held)
  | call :: rest, held =>
    let (outcome, next) := step call held
    let (outcomes, last) := runAll rest next
    (outcome :: outcomes, last)

end Listing

/-! ## What is forgotten -/

def Graph.listing (g : Graph) : Listing := ⟨g.nodes.toList, g.edges.toList, g.behaviors.values⟩

def Builder.listing (b : Builder) : Option Listing := b.product.map Graph.listing

def Answer.reply : Answer → Reply
  | .done => .done
  | .node id => .node id
  | .graph g => .network g.listing

end BeaconMap
