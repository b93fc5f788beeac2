import FormFlow.Proofs.Form.Scopes
import FormFlow.Proofs.Wiring.Registration
import FormFlow.Proofs.Wiring.Step

/-!
# Wiring a whole form

The graph of a form gives each connection what its consumer asks for, if that is a node of a
step that does not wait for an iteration, and it has no other connections
(`WiredForm.Registered.metadata?_eq`).

The members of the steps are determined before pseudo-nodes are made, the nodes are wired after
that. The way up from a node is the same in both stores (`WiredForm.Unchanged`) unless a parent
that was missing is the identifier that a pseudo-node was given (`WiredForm.Uncaptured`).
-/

set_option autoImplicit false

namespace FormFlow

open NodeSource

namespace WiredForm

/-! ## Before and after the making of pseudo-nodes -/

/-- The making of pseudo-nodes does not change the way up from a node of the form. -/
structure Unchanged (before after : NodeStore) : Prop where
  lineage : ∀ node ∈ before.nodes, lineage after node.id = lineage before node.id
  above : ∀ node ∈ before.nodes, above after node = above before node

/-- No parent that is missing in one store is there in another. -/
def Uncaptured (before after : NodeStore) : Prop :=
  ∀ node ∈ before.nodes, ∀ parent, node.parent = some parent → before.node? parent = none →
    after.node? parent = none

/-- A walk up that starts at a node that is there, or at a parent of one, stays as it is. -/
theorem ascends_of_grows {before after : NodeStore} (coherent : before.Coherent)
    (grows : before.Grows before.nextId after) (uncaptured : Uncaptured before after)
    {start : Option NodeId} {path : List Node} (ascends : Ascends before start path)
    (missing : ∀ id, start = some id → before.node? id = none → after.node? id = none) :
    Ascends after start path := by
  refine ascends.transfer (fun _ _ present => grows.node?_of_found present) ?_
  rintro id (direct | ⟨node, member, contained⟩) absent
  · exact missing id direct absent
  · have present := ascends.node?_of_mem member
    exact uncaptured node ((NodeStore.node?_eq_some_iff coherent).1 present).1 id contained absent

theorem unchanged_of_grows {before after : NodeStore} (coherent : before.Coherent)
    (acyclic : Acyclic before) (grows : before.Grows before.nextId after)
    (uncaptured : Uncaptured before after) : Unchanged before after := by
  refine ⟨fun node member => ?_, fun node member => ?_⟩
  · obtain ⟨path, ascends⟩ := acyclic.ascends (some node.id)
    have later : Ascends after (some node.id) path :=
      ascends_of_grows coherent grows uncaptured ascends (by
        rintro id ⟨⟩ absent
        cases (NodeStore.node?_of_mem coherent member).symm.trans absent)
    rw [ascends.lineage_eq, later.lineage_eq]
  · obtain ⟨path, ascends⟩ := acyclic.ascends node.parent
    have later := ascends_of_grows coherent grows uncaptured ascends (uncaptured node member)
    rw [ascends.above_eq, later.above_eq]

namespace Unchanged

variable {before after : NodeStore} (unchanged : Unchanged before after)
include unchanged

theorem repeatedAbove? {node : Node} (member : node ∈ before.nodes) :
    NodeSource.repeatedAbove? after node = NodeSource.repeatedAbove? before node := by
  simp only [NodeSource.repeatedAbove?, enclosingAbove?]
  rw [unchanged.above node member]

theorem owningStep? (coherent : before.Coherent) {mark : Nat} (grows : before.Grows mark after)
    {node : Node} (member : node ∈ before.nodes) :
    NodeSource.owningStep? after node.id = NodeSource.owningStep? before node.id := by
  have present := NodeStore.node?_of_mem coherent member
  have old : node? before node.id = some node := present
  have new : node? after node.id = some node := grows.node?_of_found present
  simp only [NodeSource.owningStep?, enclosing?]
  rw [unchanged.lineage node member, old, new]

end Unchanged

/-! ## The members of a step -/

namespace Registered

variable {form : Form} {config : WiringConfig} {wired : WiredForm}

/-- The context in which a step of the form is wired. -/
def context (wired : WiredForm) (config : WiringConfig) (step : NodeId) :
    WiringContext NodeStore :=
  ⟨wired.form.nodes, wired.scopes, wired.membership.members step, step, config⟩

theorem roleOf?_eq_reference_iff {kind : NodeKind} {templated : Bool} :
    StepMembership.roleOf? kind templated = some .reference ↔
      (∃ expression, kind = .reference expression) ∧ templated = false := by
  cases kind <;> cases templated <;> simp [StepMembership.roleOf?]

theorem roleOf?_eq_templateReference_iff {kind : NodeKind} {templated : Bool} :
    StepMembership.roleOf? kind templated = some .templateReference ↔
      (∃ expression, kind = .reference expression) ∧ templated = true := by
  cases kind <;> cases templated <;> simp [StepMembership.roleOf?]

theorem mem_within_build {nodes : NodeStore} {step id : NodeId} {role : MemberRole} :
    id ∈ (StepMembership.build nodes).within step role ↔ ∃ node ∈ nodes.nodes, node.id = id ∧
      StepMembership.roleOf? node.kind (inTemplate nodes node) = some role ∧
        owningStep? nodes node.id = some step := by
  simp only [StepMembership.within, StepMembership.build]
  simp only [List.mem_map, List.mem_filter, List.mem_filterMap, StepMembership.place?,
    Option.bind_eq_bind, Option.bind_eq_some_iff, Bool.and_eq_true, decide_eq_true_eq]
  constructor
  · rintro ⟨member, ⟨⟨node, known, own, isRole, other, owned, same⟩, rfl, rfl⟩, rfl⟩
    cases same
    exact ⟨node, known, rfl, isRole, owned⟩
  · rintro ⟨node, known, rfl, isRole, owned⟩
    exact ⟨_, ⟨⟨node, known, role, isRole, step, owned, rfl⟩, rfl, rfl⟩, rfl⟩

/-- The members of a step, as they are listed before pseudo-nodes are made and as the nodes show
them afterwards. -/
theorem mem_members_iff (registered : Registered form config wired)
    (coherent : form.nodes.Coherent) (unchanged : Unchanged form.nodes wired.form.nodes)
    {role : MemberRole} {step id : NodeId} :
    id ∈ wired.membership.within step role ↔ ∃ node, wired.form.nodes.node? id = some node ∧
      StepMembership.roleOf? node.kind (inTemplate wired.form.nodes node) = some role ∧
        owningStep? wired.form.nodes id = some step := by
  have grows := registered.grows coherent
  rw [registered.membership, mem_within_build]
  constructor
  · rintro ⟨node, known, rfl, isRole, owned⟩
    refine ⟨node, grows.node?_of_found (NodeStore.node?_of_mem coherent known), ?_, ?_⟩
    · simp only [inTemplate] at isRole ⊢
      rw [unchanged.repeatedAbove? known]
      exact isRole
    · rw [unchanged.owningStep? coherent grows known]
      exact owned
  · rintro ⟨node, found, isRole, owned⟩
    obtain ⟨member, rfl⟩ := (NodeStore.node?_eq_some_iff (registered.coherent coherent)).1 found
    rcases registered.mem_or_pseudo member with known | ⟨definition, isPseudo, _⟩
    · refine ⟨node, known, rfl, ?_, ?_⟩
      · simp only [inTemplate] at isRole ⊢
        rw [← unchanged.repeatedAbove? known]
        exact isRole
      · rw [← unchanged.owningStep? coherent grows known]
        exact owned
    · rw [isPseudo] at isRole
      cases isRole

/-- Above a node there is no iteration if the form has none. -/
theorem inOpenTemplate_eq (registered : Registered form config wired)
    (coherent : form.nodes.Coherent)
    (plain : ∀ node ∈ form.nodes.nodes, node.kind.isIteration = false) (node : Node) :
    inOpenTemplate wired.form.nodes node = inTemplate wired.form.nodes node := by
  simp only [inOpenTemplate, inTemplate]
  cases found : NodeSource.repeatedAbove? wired.form.nodes node with
  | none => rfl
  | some outer =>
    have present := node?_of_mem_climb (List.mem_of_find?_eq_some found)
    have isRepeated : outer.kind.isRepeated = true := by simpa using List.find?_some found
    have member := ((NodeStore.node?_eq_some_iff (registered.coherent coherent)).1 present).1
    have single : outer.kind.isIteration = false := by
      rcases registered.mem_or_pseudo member with known | ⟨definition, isPseudo, _⟩
      · exact plain outer known
      · rw [isPseudo]
        rfl
    rw [NodeKind.isRepeated, single, Bool.or_false] at isRepeated
    exact isRepeated

theorem settled (registered : Registered form config wired) (coherent : form.nodes.Coherent)
    (unchanged : Unchanged form.nodes wired.form.nodes)
    (plain : ∀ node ∈ form.nodes.nodes, node.kind.isIteration = false) (step : NodeId) :
    (context wired config step).Settled where
  coherent := registered.coherent coherent
  references := by
    intro id
    refine (registered.mem_members_iff coherent unchanged).trans (exists_congr fun node => ?_)
    rw [roleOf?_eq_reference_iff]
    simp only [exists_and_left, exists_and_right, and_assoc]
    rfl
  templateReferences := by
    intro id
    refine (registered.mem_members_iff coherent unchanged).trans (exists_congr fun node => ?_)
    rw [roleOf?_eq_templateReference_iff]
    simp only [exists_and_left, exists_and_right, and_assoc]
    rfl
  uninstantiated := fun _ node _ => registered.inOpenTemplate_eq coherent plain node

/-! ## The graph of a form -/

/-- A node of a step of the form that does not wait for an iteration. -/
def Wired (wired : WiredForm) (id : NodeId) : Prop :=
  Pass.isReady wired.form.nodes id = true ∧
    ∃ step, Pass.Placed wired.form.nodes wired.scopes step id

theorem formDraft_collects (registered : Registered form config wired)
    (coherent : form.nodes.Coherent) (unchanged : Unchanged form.nodes wired.form.nodes)
    (plain : ∀ node ∈ form.nodes.nodes, node.kind.isIteration = false) :
    (Pass.formDraft wired.form.nodes wired.scopes wired.membership config).Collects (Wired wired)
      (Pass.solo wired.form.nodes wired.scopes config) := by
  have ready : ∀ {step id}, step ∈ wired.scopes.steps →
      ((context wired config step).Ready id ↔
        Pass.isReady wired.form.nodes id = true ∧
          Pass.Placed wired.form.nodes wired.scopes step id) := by
    intro step id listed
    have isStep := (ScopeTree.isStep_iff_mem_steps coherent.nodup registered.scopes).2 listed
    exact ⟨fun ⟨present, waits, owned⟩ => ⟨waits, present, owned, isStep⟩,
      fun ⟨waits, present, owned, _⟩ => ⟨present, waits, owned⟩⟩
  have each : ∀ step ∈ wired.scopes.steps, (Pass.stepDraft (context wired config step)).Collects
      (context wired config step).Ready (Pass.solo wired.form.nodes wired.scopes config) := by
    intro step listed
    refine (Pass.stepDraft_collects (registered.settled coherent unchanged plain step)).congr
      (fun _ => .rfl) fun id isReady => ?_
    rw [Pass.solo_of_placed ((ready listed).1 isReady).2]
    exact (Pass.single_members (context wired config step) .none id).symm
  refine (Draft.Collects.union each).congr (fun id => ?_) fun _ _ => rfl
  constructor
  · rintro ⟨step, listed, isReady⟩
    obtain ⟨waits, placed⟩ := (ready listed).1 isReady
    exact ⟨waits, step, placed⟩
  · rintro ⟨waits, step, placed⟩
    have listed := (ScopeTree.isStep_iff_mem_steps coherent.nodup registered.scopes).1 placed.2.2
    exact ⟨step, listed, (ready listed).2 ⟨waits, placed⟩⟩

/-- What a wired node asks for has no failure. -/
theorem solo_succeeds (registered : Registered form config wired)
    (coherent : form.nodes.Coherent) (unchanged : Unchanged form.nodes wired.form.nodes)
    (plain : ∀ node ∈ form.nodes.nodes, node.kind.isIteration = false) {id : NodeId}
    (within : Wired wired id) :
    (Pass.solo wired.form.nodes wired.scopes config id).failure? = none :=
  (registered.formDraft_collects coherent unchanged plain).succeeds registered.drafted id within

theorem nodup_triples (registered : Registered form config wired) : wired.graph.triples.Nodup := by
  rw [registered.graph]
  exact Draft.nodup_triples_applyTo _ List.nodup_nil

open Classical in
/-- The graph of a form has what its wired nodes ask for. -/
theorem metadata?_eq (registered : Registered form config wired)
    (coherent : form.nodes.Coherent) (unchanged : Unchanged form.nodes wired.form.nodes)
    (plain : ∀ node ∈ form.nodes.nodes, node.kind.isIteration = false) (triple : Triple) :
    wired.graph.metadata? triple =
      if Wired wired triple.consumer then
        (Pass.solo wired.form.nodes wired.scopes config triple.consumer).offer? triple
      else none := by
  have collects := registered.formDraft_collects coherent unchanged plain
  rw [registered.graph, Draft.metadata?_applyTo registered.drafted]
  change (none : Option EdgeMetadata).or _ = _
  rw [Option.none_or]
  by_cases within : Wired wired triple.consumer
  · rw [if_pos within]
    exact collects.inside registered.drafted triple within
  · rw [if_neg within]
    exact collects.outside registered.drafted triple within

end Registered

end WiredForm

end FormFlow
