import BeaconMap.Proofs.Network.Rejected
/-!
# Completing a network that was rejected

Only `finalize` finds that a network is incomplete (`Call.eq_finalize_of_incomplete`). So a description that is rejected
for missing links has all its items placed, and the product waits for more streets: building them on it and handing it
over comes to the same as describing the network with these streets from the start (`Description.completed_in_place`).
-/

namespace BeaconMap

/-! ## Where a network is found to be incomplete -/

/-- The result is not that a network is incomplete. -/
def Judged {α : Type} (x : Except NetworkError α) : Prop := x ≠ .error .incompleteGraph

namespace Judged

variable {α β : Type}

theorem ok (a : α) : Judged (.ok a) := nofun

theorem error {e : NetworkError} (h : e ≠ .incompleteGraph) : Judged (.error e : Except NetworkError α) :=
  fun he => h (Except.error.inj he)

theorem bind {x : Except NetworkError α} {f : α → Except NetworkError β} (hx : Judged x) (hf : ∀ a, Judged (f a)) :
    Judged (x >>= f) := by
  cases x with
  | ok a => exact hf a
  | error e => exact error fun he => hx (congrArg Except.error he)

theorem noFault (fault : Option Fault) : Judged (noFault fault) := by
  cases fault with
  | none => exact ok ()
  | some fault => exact error nofun

end Judged

namespace Graph

variable (g : Graph)

theorem judged_nodeAt (position : Coordinate) : Judged (g.nodeAt position) := by
  unfold nodeAt
  split
  · exact .ok _
  · exact .error nofun

theorem judged_behavior (id : BehaviorId) : Judged (g.behavior id) := by
  unfold behavior
  split
  · exact .ok _
  · exact .error nofun

theorem judged_addNode (n : Node) : Judged (g.addNode n) := by
  unfold addNode
  split
  · exact .error nofun
  · split
    · exact .error nofun
    · exact .ok _

theorem judged_addEdge (e : Edge) : Judged (g.addEdge e) := by
  unfold addEdge
  split
  · exact .error nofun
  · split
    · exact .error nofun
    · exact .ok _

theorem judged_addBehavior (b : Behavior) : Judged (g.addBehavior b) := by
  unfold addBehavior
  split
  · exact .error nofun
  · exact .ok _

theorem judged_addInterestPoint (position : Coordinate) (id : BehaviorId) (optional : Bool) :
    Judged (g.addInterestPoint position id optional) :=
  (g.judged_nodeAt position).bind fun _ => (g.judged_behavior id).bind fun _ => .ok _

theorem judged_changeNodeAt (position : Coordinate) {change : Node → Except NetworkError Node}
    (h : ∀ n, Judged (change n)) : Judged (g.changeNodeAt position change) := by
  unfold changeNodeAt
  split
  · exact .error nofun
  · exact (g.judged_nodeAt position).bind fun n => (h n).bind fun _ => .ok _

end Graph

namespace Node

variable (n : Node) (id : BehaviorId) (percentage : Binary64)

theorem judged_setGenerated : Judged (n.setGenerated id percentage) := by
  refine (Judged.noFault _).bind fun _ => ?_
  cases n.kind with
  | entryPoint flow generated => exact .ok _
  | regular | exitPoint rate absorbed => exact .error nofun

theorem judged_setAbsorbed : Judged (n.setAbsorbed id percentage) := by
  refine (Judged.noFault _).bind fun _ => ?_
  cases n.kind with
  | exitPoint rate absorbed => exact .ok _
  | regular | entryPoint flow generated => exact .error nofun

end Node

namespace Builder

variable {b b' : Builder}

theorem judged_changed {change : Graph → Except NetworkError Graph} (h : ∀ g, Judged (change g)) :
    Judged (b.changed change) := by
  unfold changed
  split
  · exact .error nofun
  · exact h _

theorem update_ne_incomplete {change : Graph → Except NetworkError Graph} (h : ∀ g, Judged (change g)) :
    update change b ≠ .error .incompleteGraph b' := by
  rw [update_run]
  intro he
  split at he
  · cases he
  · rename_i hchanged
    cases he
    exact judged_changed h hchanged

theorem place_ne_incomplete {checked : Except NetworkError Node} (h : Judged checked) :
    place checked b ≠ .error .incompleteGraph b' := by
  rw [place_run]
  intro he
  split at he
  · cases he
    exact h rfl
  · split at he
    · cases he
    · rename_i hchanged
      cases he
      exact judged_changed (fun g => g.judged_addNode _) hchanged

end Builder

/-- Only the call that hands a network over finds it incomplete. -/
theorem Call.eq_finalize_of_incomplete {call : Call} {b b' : Builder} (h : call.run b = .error .incompleteGraph b') :
    call = .finalize := by
  have hmap {α : Type} {m : Build α} {f : α → Answer}
      (he : (do return f (← m) : Build Answer) b = .error .incompleteGraph b') : m b = .error .incompleteGraph b' := by
    rw [Builder.map_run] at he
    split at he
    · cases he
    · rename_i hm
      cases he
      exact hm
  cases call with
  | start => cases h
  | regularNode geometry =>
    exact absurd (hmap h) (Builder.place_ne_incomplete ((Judged.noFault _).bind fun _ => .ok _))
  | entryPoint geometry flow =>
    exact absurd (hmap h) (Builder.place_ne_incomplete ((Judged.noFault _).bind fun _ => .ok _))
  | exitPoint geometry rate =>
    exact absurd (hmap h) (Builder.place_ne_incomplete ((Judged.noFault _).bind fun _ => .ok _))
  | street directed source target width weight =>
    refine absurd (hmap h) (Builder.update_ne_incomplete fun g => ?_)
    exact (g.judged_nodeAt source).bind fun _ => (g.judged_nodeAt target).bind fun _ =>
      ((Judged.noFault _).bind fun _ => .ok _).bind fun e => g.judged_addEdge e
  | behavior id kind => exact absurd (hmap h) (Builder.update_ne_incomplete fun g => g.judged_addBehavior _)
  | interestPoint position id optional =>
    exact absurd (hmap h) (Builder.update_ne_incomplete fun g => g.judged_addInterestPoint position id optional)
  | generated position id percentage =>
    refine absurd (hmap h) (Builder.update_ne_incomplete fun g => ?_)
    exact (g.judged_behavior id).bind fun _ =>
      g.judged_changeNodeAt position fun n => n.judged_setGenerated id percentage
  | absorbed position id percentage =>
    refine absurd (hmap h) (Builder.update_ne_incomplete fun g => ?_)
    exact (g.judged_behavior id).bind fun _ =>
      g.judged_changeNodeAt position fun n => n.judged_setAbsorbed id percentage
  | finalize => rfl

namespace Item

theorem place_ne_incomplete (item : Item) (b b' : Builder) : item.place b ≠ .error .incompleteGraph b' := by
  rw [place_run]
  intro he
  cases hm : item.misfit? with
  | some e =>
    rw [hm] at he
    cases he
    cases item with
    | node n =>
      obtain ⟨_, -, hwrong⟩ := Option.map_eq_some_iff.1 hm
      cases hwrong
    | _ => cases hm
  | none =>
    rw [hm] at he
    cases hrun : item.call.run b with
    | ok a b₁ => simp [hrun] at he
    | error e b₁ =>
      rw [hrun] at he
      cases he
      exact item.call_ne_finalize (Call.eq_finalize_of_incomplete hrun)

/-- Placing items never ends because a network is incomplete. -/
theorem forM_place_ne_incomplete (items : List Item) (b b' : Builder) :
    items.forM place b ≠ .error .incompleteGraph b' := by
  intro h
  obtain ⟨-, item, -, -, -, hfails⟩ := (forM_place_eq_error_iff items b b' .incompleteGraph).1 h
  exact item.place_ne_incomplete b' b' hfails

end Item

/-! ## More streets -/

/-- Builds streets one after the other, up to the first that fails, and then hands the product over. -/
def Builder.finishWith (streets : List DescribedEdge) : Build Graph := do
  streets.forM fun e => Builder.street e.directed e.source e.target e.width e.weight
  Builder.finalize

namespace Description

/-- The description with more streets. -/
def withStreets (d : Description) (streets : List DescribedEdge) : Description := { d with edges := d.edges ++ streets }

theorem items_withStreets (d : Description) (streets : List DescribedEdge) :
    (d.withStreets streets).items = d.items ++ streets.map .edge := by
  simp [items, withStreets]

theorem forM_place_edges (streets : List DescribedEdge) (b : Builder) :
    (streets.map Item.edge).forM Item.place b =
      streets.forM (fun e => Builder.street e.directed e.source e.target e.width e.weight) b := by
  induction streets generalizing b with
  | nil => rfl
  | cons e rest ih =>
    have hplace : (Item.edge e).place b = Builder.street e.directed e.source e.target e.width e.weight b := by
      rw [Item.place_run, show (Item.edge e).call.run b = _ from Builder.map_run _ (fun _ => Answer.done) b]
      cases Builder.street e.directed e.source e.target e.width e.weight b <;> rfl
    rw [List.map_cons, Item.forM_cons, hplace, List.forM]
    simp only [bind, EStateM.bind]
    cases Builder.street e.directed e.source e.target e.width e.weight b with
    | ok _ b' => exact ih b'
    | error e b' => rfl

theorem finishWith_eq (streets : List DescribedEdge) (b : Builder) :
    Builder.finishWith streets b = match (streets.map Item.edge).forM Item.place b with
      | .ok _ b' => Builder.finalize b'
      | .error e b' => .error e b' := by
  rw [forM_place_edges]
  unfold Builder.finishWith
  simp only [bind, EStateM.bind]
  cases streets.forM (fun e => Builder.street e.directed e.source e.target e.width e.weight) b <;> rfl

/-- A description that is rejected for missing links has left all its items in the builder. -/
theorem forM_items_of_incomplete {d : Description} {b left : Builder} (h : d.apply b = .error .incompleteGraph left) :
    d.items.forM Item.place { product := some .empty, nextId := 0 } = .ok () left := by
  rw [apply_eq] at h
  cases hitems : d.items.forM Item.place { product := some .empty, nextId := 0 } with
  | error e b' =>
    rw [hitems] at h
    cases h
    exact absurd hitems (Item.forM_place_ne_incomplete _ _ _)
  | ok _ b' =>
    rw [hitems] at h
    rw [Builder.finalize_keepsOnError b' _ left h]

/-- A network that is rejected for missing links can be completed in place: building more streets on what is left, and
handing it over, has the outcome of the description with these streets, on any builder, and leaves the same builder. -/
theorem completed_in_place {d : Description} {b left : Builder} (h : d.apply b = .error .incompleteGraph left)
    (streets : List DescribedEdge) (fresh : Builder) :
    Builder.finishWith streets left = (d.withStreets streets).apply fresh := by
  have hplaced : (d.withStreets streets).items.forM Item.place { product := some .empty, nextId := 0 } =
      (streets.map Item.edge).forM Item.place left := by
    rw [items_withStreets, Item.forM_append, forM_items_of_incomplete h]
  rw [apply_eq, hplaced]
  exact finishWith_eq streets left

/-- The junction before its second street was built. -/
def halfJunction : Description := { junction with edges := junction.edges.take 1 }

/-- The half junction is rejected for missing links. With its second street it is handed over; with a street to where no
node stands it is rejected for that one. -/
theorem completed_in_place_junction :
    ∃ left, halfJunction.apply {} = .error .incompleteGraph left ∧
      (∃ g b, Builder.finishWith (junction.edges.drop 1) left = .ok g b ∧ junction.apply {} = .ok g b) ∧
      ∃ b, Builder.finishWith [⟨⟨0, 0⟩, ⟨9, 9⟩, 1, .ofNat 4, false⟩] left = .error (.noSuchNode ⟨9, 9⟩) b := by
  have hrejected : (halfJunction.applyTo {}).1 = .error .incompleteGraph := by
    apply Call.error_of_map (fun _ => ())
    decide +kernel
  have hhanded : (junction.applyTo {}).1.toBool = true := by decide +kernel
  have hmissing : ((halfJunction.withStreets [⟨⟨0, 0⟩, ⟨9, 9⟩, 1, .ofNat 4, false⟩]).applyTo {}).1 =
      .error (.noSuchNode ⟨9, 9⟩) := by
    apply Call.error_of_map (fun _ => ())
    decide +kernel
  unfold applyTo at hrejected hhanded hmissing
  cases happly : halfJunction.apply {} with
  | ok g b => simp [happly] at hrejected
  | error e left =>
    rw [happly] at hrejected
    cases hrejected
    refine ⟨left, rfl, ?_, ?_⟩
    · rw [completed_in_place happly _ {}]
      cases hwhole : junction.apply {} with
      | ok g b => exact ⟨g, b, hwhole, rfl⟩
      | error e b =>
        rw [hwhole] at hhanded
        cases hhanded
    · rw [completed_in_place happly _ {}]
      cases hmore : (halfJunction.withStreets [⟨⟨0, 0⟩, ⟨9, 9⟩, 1, .ofNat 4, false⟩]).apply {} with
      | ok g b => simp [hmore] at hmissing
      | error e b =>
        rw [hmore] at hmissing
        cases hmissing
        exact ⟨b, rfl⟩

end Description

end BeaconMap
