import FormFlow.Proofs.Wiring.Reading
import FormFlow.Proofs.Wiring.Whole

/-!
# Plain forms after wiring

Wiring a plain form leaves it well placed (`WiredForm.Registered.wellPlaced`) and furnishes it
(`WiredForm.Registered.furnished`): every node finds what it reads. Its graph therefore gives a
reference the connection that it asks for (`WiredForm.Registered.metadata?_reference`).
-/

set_option autoImplicit false

namespace FormFlow

open NodeSource

theorem Item.isRepeated_of_keyOfKind? {id : NodeId} {kind : NodeKind} {key : String}
    (keyed : keyOfKind? id kind = some key) : kind.isRepeated = true := by
  cases kind <;> first | rfl | cases keyed

theorem NodeKind.isCollection_iff {kind : NodeKind} :
    kind.isCollection = true ↔ ∃ definition, kind = .collection definition := by
  cases kind <;> simp [isCollection]

namespace WiredForm

namespace Registered

variable {form : Form} {config : WiringConfig} {wired : WiredForm}
  (registered : Registered form config wired) (coherent : form.nodes.Coherent)
  (plain : form.Plain)
include registered coherent plain

theorem unchanged : Unchanged form.nodes wired.form.nodes := by
  apply unchanged_of_grows coherent plain.acyclic (registered.grows coherent)
  intro node member parent contained missing
  have present := plain.contained node member parent contained
  rw [NodeStore.contains, missing] at present
  cases present

omit plain in
theorem form_or_pseudo {id : NodeId} {node : Node}
    (found : node? wired.form.nodes id = some node) :
    form.nodes.node? id = some node ∨ ∃ definition, node.kind = .pseudo definition ∧
      ∃ step ∈ wired.scopes.steps, node.parent = some step := by
  obtain ⟨member, rfl⟩ := (NodeStore.node?_eq_some_iff (registered.coherent coherent)).1 found
  exact (registered.mem_or_pseudo member).imp_left (NodeStore.node?_of_mem coherent)

omit plain in
/-- A node that is no pseudo-node is a node of the form. -/
theorem mem_form {id : NodeId} {node : Node} (found : node? wired.form.nodes id = some node)
    (other : node.kind.pseudo? = none) : form.nodes.node? id = some node := by
  rcases registered.form_or_pseudo coherent found with known | ⟨definition, isPseudo, _⟩
  · exact known
  · rw [isPseudo] at other
    cases other

omit plain in
/-- The step of a node is among those that are wired. -/
theorem step_listed {id step : NodeId} {node : Node}
    (found : node? wired.form.nodes id = some node) (other : node.kind.pseudo? = none)
    (owned : owningStep? wired.form.nodes id = some step) : step ∈ wired.scopes.steps := by
  obtain ⟨outer, present, isStep⟩ := node?_of_owningStep? found other owned
  have noPseudo : outer.kind.pseudo? = none := by
    cases kind : outer.kind <;> rw [kind] at isStep <;> first | rfl | cases isStep
  have known := registered.mem_form coherent present noPseudo
  obtain ⟨member, named⟩ := (NodeStore.node?_eq_some_iff coherent).1 known
  exact (ScopeTree.mem_steps_build registered.scopes).2 ⟨outer, member, isStep, named⟩

theorem wellPlaced : WellPlaced wired.form.nodes := by
  have shown := (registered.grows coherent).shows
  have stepThere : ∀ step ∈ wired.scopes.steps, ∃ outer, form.nodes.node? step = some outer ∧
      outer.kind.isStep = true := by
    intro step listed
    obtain ⟨outer, known, isStep, rfl⟩ := (ScopeTree.mem_steps_build registered.scopes).1 listed
    exact ⟨outer, NodeStore.node?_of_mem coherent known, isStep⟩
  refine plain.wellPlaced.extend shown ?_ ?_
  · intro id node found
    rcases registered.form_or_pseudo coherent found with
      known | ⟨definition, _, step, listed, above⟩
    · obtain ⟨path, rooted⟩ := plain.wellPlaced.upright id node known
      exact ⟨path, rooted.transfer shown⟩
    · obtain ⟨outer, present, _⟩ := stepThere step listed
      obtain ⟨path, rooted⟩ := plain.wellPlaced.upright step outer present
      exact ⟨node :: path, .step found (above ▸ rooted.transfer shown)⟩
  · intro id node found
    apply (registered.form_or_pseudo coherent found).imp_right
    rintro ⟨definition, isPseudo, step, listed, above⟩
    obtain ⟨outer, present, isStep⟩ := stepThere step listed
    exact Stands.ofPseudo isPseudo above (shown.node step outer present) isStep

/-- Every node of a plain form finds what it reads. -/
theorem furnished : Furnished wired.form.nodes := by
  have unchanged := registered.unchanged coherent plain
  have shown := (registered.grows coherent).shows
  obtain ⟨count, same⟩ := registered.nodes
  have listed : ∀ step role id, id ∈ wired.membership.within step role →
      ∃ node, node? form.nodes id = some node := by
    intro step role id member
    rw [registered.membership, mem_within_build] at member
    obtain ⟨node, known, rfl, _⟩ := member
    exact ⟨node, NodeStore.node?_of_mem coherent known⟩
  obtain ⟨-, served, items⟩ := synthesize_furnishes coherent
    (fun step id member => listed step .collection id member) count same.symm
  have closed : ∀ node, inOpenTemplate wired.form.nodes node = inTemplate wired.form.nodes node :=
    registered.inOpenTemplate_eq coherent plain.iterations
  have member : ∀ {step id node role}, node? wired.form.nodes id = some node →
      owningStep? wired.form.nodes id = some step →
      StepMembership.roleOf? node.kind (inTemplate wired.form.nodes node) = some role →
      id ∈ wired.membership.within step role :=
    fun found owned isRole =>
      (registered.mem_members_iff coherent unchanged).2 ⟨_, found, isRole, owned⟩
  have outside : ∀ node, awaitsIteration wired.form.nodes node = false →
      isDeferred node.kind = true → inTemplate wired.form.nodes node = false := by
    intro node ready deferred
    rw [← closed]
    rw [awaitsIteration, deferred, Bool.true_and] at ready
    exact ready
  refine ⟨?_, ?_, ?_, ?_⟩
  · intro id node step found ready owned again field present isField
    cases found.symm.trans present
    have noPseudo : node.kind.pseudo? = none := by rw [isField]; rfl
    have isRole : StepMembership.roleOf? node.kind (inTemplate wired.form.nodes node) =
        some .field := by
      rw [outside node ready (by rw [isField]; rfl), isField]
      rfl
    exact (served step (registered.step_listed coherent found noPseudo owned)).fields id
      (member found owned isRole) node field (registered.mem_form coherent found noPseudo) isField
  · intro id node step found ready owned again expression space key present isReference target
    cases found.symm.trans present
    have noPseudo : node.kind.pseudo? = none := by rw [isReference]; rfl
    obtain ⟨selected, _, keyed⟩ := Reference.keyedTarget?_eq_some_iff.1 target
    have other : expression.selected? ≠ some .item := by
      rw [selected]
      rintro ⟨⟩
      cases keyed
    have isRole : StepMembership.roleOf? node.kind (inTemplate wired.form.nodes node) =
        some .reference := by
      rw [Pass.awaitsIteration_reference isReference other, closed] at ready
      rw [ready, isReference]
      rfl
    exact (served step (registered.step_listed coherent found noPseudo owned)).references id
      (member found owned isRole) node expression space key
      (registered.mem_form coherent found noPseudo) isReference target
  · intro id node step found ready owned again key present keyed
    cases found.symm.trans present
    have repeated := Item.isRepeated_of_keyOfKind? keyed
    have noPseudo := (NodeKind.of_isRepeated repeated).2
    have known := registered.mem_form coherent found noPseudo
    have single := plain.iterations node ((NodeStore.node?_eq_some_iff coherent).1 known).1
    have isCollection : node.kind.isCollection = true := by
      rw [NodeKind.isRepeated, single, Bool.or_false] at repeated
      exact repeated
    obtain ⟨definition, isCollection⟩ := NodeKind.isCollection_iff.1 isCollection
    have isRole : StepMembership.roleOf? node.kind (inTemplate wired.form.nodes node) =
        some .collection := by
      rw [outside node ready (by rw [isCollection]; rfl), isCollection]
      rfl
    exact (served step (registered.step_listed coherent found noPseudo owned)).repeated id
      (member found owned isRole) node key known keyed
  · intro step key has
    rcases items step key has with old | ⟨other, id, known, node, found, keyed⟩
    · obtain ⟨node, inside, identity⟩ := (NodeStore.hasPseudo_iff coherent).1 old
      rw [Node.identity?, plain.pseudos node inside] at identity
      cases identity
    · refine ⟨id, node, shown.node id node found, keyed, ?_⟩
      obtain ⟨again, present, isRole, _⟩ :=
        (registered.mem_members_iff coherent unchanged).1 known
      cases (shown.node id node found).symm.trans present
      rw [awaitsIteration, closed]
      cases inside : inTemplate wired.form.nodes node with
      | false => exact Bool.and_false _
      | true =>
        rw [inside] at isRole
        cases kind : node.kind <;> rw [kind] at isRole <;> cases isRole

/-- The connections of a reference of the form are what it reads. -/
theorem metadata?_reference {id step : NodeId} {node : Node} {expression : Reference}
    (found : node? wired.form.nodes id = some node)
    (isReference : node.kind = .reference expression)
    (owned : owningStep? wired.form.nodes id = some step) {triple : Triple}
    (into : triple.consumer = id) (metadata : EdgeMetadata) :
    wired.graph.metadata? triple = some metadata ↔
      Pass.Binds wired.form.nodes id expression
        (Pass.readOf? wired.form.nodes wired.form.nodes step node expression) triple metadata := by
  subst into
  have noPseudo : node.kind.pseudo? = none := by rw [isReference]; rfl
  rw [registered.metadata?_eq coherent (registered.unchanged coherent plain) plain.iterations]
  have placed : ∃ step, Pass.Placed wired.form.nodes wired.scopes step triple.consumer :=
    ⟨step, ⟨node, found⟩, owned, (ScopeTree.isStep_iff_mem_steps coherent.nodup registered.scopes).2
      (registered.step_listed coherent found noPseudo owned)⟩
  rw [Option.ite_none_right_eq_some, Wired, and_iff_left placed]
  exact Pass.ready_offer?_reference (registered.furnished coherent plain) found isReference owned
    triple metadata

end Registered

end WiredForm

end FormFlow
