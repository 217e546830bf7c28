import BeaconMap.Proofs.Network.Calls
/-!
# Lists of calls that fit together

What a list of calls asks for, kind by kind, and when one more call fits it (`Call.Fits`). A list is `Legal` when
each call fits those before it; then every share and interest point belongs to a node and a behavior that the list
asks for.
-/

namespace BeaconMap

/-! ## What a list of calls asks for -/

namespace History

variable (past : List Call)

def nodes : List (Geometry × NodeKind) := past.filterMap Call.node?

def positions : List Coordinate := (nodes past).map (·.1.position)

def edges : List DescribedEdge := past.filterMap Call.edge?

def behaviors : List (BehaviorId × BehaviorKind) := past.filterMap Call.behavior?

def registered : List BehaviorId := (behaviors past).map Prod.fst

def interests : List Interest := past.filterMap Call.interest?

def shares : List Share := past.filterMap Call.share?

/-- The share of a behavior at a coordinate: the one asked for last. -/
def shareOf (position : Coordinate) (id : BehaviorId) : Option Binary64 :=
  ((shares past).filter fun s => s.position = position ∧ s.behavior = id).getLast?.map Share.percentage

/-- A node that takes shares of the given sort was asked for at a coordinate. -/
def Takes (position : Coordinate) (generated : Bool) : Prop :=
  ∃ n ∈ nodes past, n.1.position = position ∧ n.2.Takes generated

section
variable (a b : List Call)

@[simp] theorem nodes_append : nodes (a ++ b) = nodes a ++ nodes b := List.filterMap_append
@[simp] theorem positions_append : positions (a ++ b) = positions a ++ positions b := by simp [positions]
@[simp] theorem edges_append : edges (a ++ b) = edges a ++ edges b := List.filterMap_append
@[simp] theorem behaviors_append : behaviors (a ++ b) = behaviors a ++ behaviors b := List.filterMap_append
@[simp] theorem registered_append : registered (a ++ b) = registered a ++ registered b := by simp [registered]
@[simp] theorem interests_append : interests (a ++ b) = interests a ++ interests b := List.filterMap_append
@[simp] theorem shares_append : shares (a ++ b) = shares a ++ shares b := List.filterMap_append
end

theorem mem_positions (c : Coordinate) : c ∈ positions past ↔ ∃ n ∈ nodes past, n.1.position = c := List.mem_map

theorem mem_registered (id : BehaviorId) : id ∈ registered past ↔ ∃ kind, (id, kind) ∈ behaviors past := by
  simp [registered]

/-- A share that is asked for by no call is absent. -/
theorem shareOf_eq_none {position : Coordinate} {id : BehaviorId}
    (h : ∀ s ∈ shares past, s.position = position → s.behavior ≠ id) : shareOf past position id = none := by
  have hnil : (shares past).filter (fun s => s.position = position ∧ s.behavior = id) = [] := by
    rw [List.filter_eq_nil_iff]
    intro s hs
    simpa using h s hs
  rw [shareOf, hnil]
  rfl

/-- A share comes from some call. -/
theorem mem_of_shareOf {position : Coordinate} {id : BehaviorId} {v : Binary64}
    (h : shareOf past position id = some v) :
    ∃ s ∈ shares past, s.position = position ∧ s.behavior = id ∧ s.percentage = v := by
  obtain ⟨s, hs, rfl⟩ := Option.map_eq_some_iff.1 h
  obtain ⟨hm, hp⟩ := List.mem_filter.1 (List.mem_of_getLast? hs)
  obtain ⟨h1, h2⟩ := of_decide_eq_true hp
  exact ⟨s, hm, h1, h2, rfl⟩

theorem shareOf_congr {past past' : List Call} (h : shares past' = shares past) (position : Coordinate)
    (id : BehaviorId) : shareOf past' position id = shareOf past position id := by
  rw [shareOf, h, shareOf]

/-- The last share wins. -/
theorem shareOf_of_shares_append {past past' : List Call} {s : Share} (h : shares past' = shares past ++ [s])
    (position : Coordinate) (id : BehaviorId) :
    shareOf past' position id =
      if s.position = position ∧ s.behavior = id then some s.percentage else shareOf past position id := by
  rw [shareOf, h, List.filter_append]
  by_cases hs : s.position = position ∧ s.behavior = id
  · simp [hs]
  · rw [if_neg hs, List.filter_singleton, decide_eq_false hs]
    simp [shareOf]

end History

open History

/-! ## Which call fits -/

/-- A node with a valid geometry, at a free coordinate, while there are ids left. -/
def NewNode (past : List Call) (geometry : Geometry) : Prop :=
  geometry.Valid ∧ geometry.position ∉ positions past ∧ (nodes past).length < 2 ^ 32

/-- A call that succeeds after the calls `past`. -/
def Call.Fits (past : List Call) : Call → Prop
  | .start => False
  | .regularNode geometry => NewNode past geometry
  | .entryPoint geometry flow => NewNode past geometry ∧ flow.rate.NonNegative
  | .exitPoint geometry rate => NewNode past geometry ∧ rate.NonNegative
  | .street _ source target width weight =>
    source ∈ positions past ∧ target ∈ positions past ∧ 0 < width ∧ weight.NonNegative
  | .behavior id _ => id ∉ registered past
  | .interestPoint position id _ => position ∈ positions past ∧ id ∈ registered past
  | .generated position id percentage => id ∈ registered past ∧ percentage.Percentage ∧ Takes past position true
  | .absorbed position id percentage => id ∈ registered past ∧ percentage.Percentage ∧ Takes past position false
  | .finalize => False

section
variable {call : Call} (past : List Call)

/-- The three calls for nodes. -/
theorem Call.fits_node_iff {geometry : Geometry} {kind : NodeKind} (asks : call.node? = some (geometry, kind)) :
    call.Fits past ↔ NewNode past geometry ∧ ∀ r, kind.rate? = some r → r.NonNegative := by
  cases call <;> cases asks <;> simp [Call.Fits, NodeKind.rate?]

/-- The two calls for shares. -/
theorem Call.fits_share_iff {s : Share} (asks : call.share? = some s) :
    call.Fits past ↔
      s.behavior ∈ registered past ∧ s.percentage.Percentage ∧ Takes past s.position s.generated := by
  cases call <;> cases asks <;> rfl

end

/-- Each of `calls` fits what stands before it, `past` and the calls ahead of it. -/
def Legal : List Call → List Call → Prop
  | _, [] => True
  | past, call :: rest => call.Fits past ∧ Legal (past ++ [call]) rest

theorem legal_append (past a b : List Call) : Legal past (a ++ b) ↔ Legal past a ∧ Legal (past ++ a) b := by
  induction a generalizing past with
  | nil => simp [Legal]
  | cons call rest ih => simp [Legal, ih, and_assoc]

theorem legal_singleton (past : List Call) (call : Call) : Legal past [call] ↔ call.Fits past := by
  simp [Legal]

/-- Each call of a legal list fits some of the calls before it. -/
theorem Legal.fits_of_mem {past calls : List Call} (h : Legal past calls) {call : Call} (hc : call ∈ calls) :
    ∃ before, before <+: past ++ calls ∧ call.Fits before := by
  obtain ⟨a, b, rfl⟩ := List.append_of_mem hc
  obtain ⟨-, hb⟩ := (legal_append past a (call :: b)).1 h
  exact ⟨past ++ a, by simp, hb.1⟩

theorem positions_subset {before past : List Call} (h : before <+: past) : positions before ⊆ positions past := by
  obtain ⟨rest, rfl⟩ := h
  simp

theorem registered_subset {before past : List Call} (h : before <+: past) : registered before ⊆ registered past := by
  obtain ⟨rest, rfl⟩ := h
  simp

section
variable {past : List Call} (h : Legal [] past)
include h

theorem Legal.interest {i : Interest} (hi : i ∈ interests past) :
    i.position ∈ positions past ∧ i.behavior ∈ registered past := by
  obtain ⟨call, hc, he⟩ := List.mem_filterMap.1 hi
  obtain ⟨before, hb, hf⟩ := h.fits_of_mem hc
  cases call <;> simp only [Call.interest?, Option.some.injEq, reduceCtorEq] at he
  subst he
  exact ⟨positions_subset hb hf.1, registered_subset hb hf.2⟩

theorem Legal.share {s : Share} (hs : s ∈ shares past) :
    s.position ∈ positions past ∧ s.behavior ∈ registered past ∧ s.percentage.Percentage := by
  obtain ⟨call, hc, he⟩ := List.mem_filterMap.1 hs
  obtain ⟨before, hb, hf⟩ := h.fits_of_mem hc
  obtain ⟨hreg, hper, n, hn, hp, -⟩ := (Call.fits_share_iff before he).1 hf
  exact ⟨positions_subset hb ((mem_positions _ _).2 ⟨n, hn, hp⟩), registered_subset hb hreg, hper⟩

theorem Legal.node {geometry : Geometry} {kind : NodeKind} (hn : (geometry, kind) ∈ nodes past) :
    geometry.Valid ∧ ∀ r, kind.rate? = some r → r.NonNegative := by
  obtain ⟨call, hc, he⟩ := List.mem_filterMap.1 hn
  obtain ⟨before, -, hf⟩ := h.fits_of_mem hc
  obtain ⟨hnew, hrate⟩ := (Call.fits_node_iff before he).1 hf
  exact ⟨hnew.1, hrate⟩

theorem Legal.edge {e : DescribedEdge} (he : e ∈ edges past) :
    e.source ∈ positions past ∧ e.target ∈ positions past ∧ 0 < e.width ∧ e.weight.NonNegative := by
  obtain ⟨call, hc, hce⟩ := List.mem_filterMap.1 he
  obtain ⟨before, hb, hf⟩ := h.fits_of_mem hc
  cases call <;> simp only [Call.edge?, Option.some.injEq, reduceCtorEq] at hce
  subst hce
  exact ⟨positions_subset hb hf.1, positions_subset hb hf.2.1, hf.2.2⟩

end

end BeaconMap
