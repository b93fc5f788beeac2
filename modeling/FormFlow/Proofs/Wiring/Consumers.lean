import FormFlow.Proofs.Wiring.Agreement
import FormFlow.Proofs.Wiring.Edges
import FormFlow.Proofs.Wiring.PlainForm

/-!
# The edges into references

Wiring a step looks references up in an index by their keys. For a reference in a keyed namespace
the result is that of comparing it with every pseudo-node of the form
(`WiredForm.edgesTo_reference`): the edges come from the pseudo-nodes that it names
(`WiredForm.Names`), and there is at most one.

The step of a reference and the collections around it are those of the form before pseudo-nodes
are made, since the members of the steps are listed then. Afterwards they may be others, if a
pseudo-node was given the identifier of a missing parent (`Captured.edgesTo_differs`).
-/

set_option autoImplicit false

namespace FormFlow

open NodeSource

namespace WiredForm

/-- A reference names a pseudo-node: it belongs to the step of the pseudo-node, stands outside
templates, and asks for its key in the namespace of its kind. A remote answer is named only if
there is no local one. The place of the reference is seen in `nodes`, pseudo-nodes in `made`. -/
structure Names (nodes made : NodeStore) (reference : Node) (expression : Reference)
    (definition : Pseudo) : Prop where
  outside : inTemplate nodes reference = false
  scope : owningStep? nodes reference.id = some definition.scope
  key : expression.lookupKey? definition.kind.reads = some definition.key
  nearest : definition.kind = .answerRemote →
    made.pseudo? ⟨.answerLocal, definition.scope, definition.key⟩ = none

namespace Registered

variable {form : Form} {config : WiringConfig} {wired : WiredForm}
  (registered : Registered form config wired) (coherent : form.nodes.Coherent)
include registered

/-- The references of a step are listed before pseudo-nodes are made. -/
theorem mem_listed_iff {step id : NodeId} {role : MemberRole} :
    id ∈ wired.membership.within step role ↔ ∃ node ∈ form.nodes.nodes, node.id = id ∧
      StepMembership.roleOf? node.kind (inTemplate form.nodes node) = some role ∧
        owningStep? form.nodes node.id = some step := by
  rw [registered.membership, mem_within_build]

variable {reference : Node} {expression : Reference}
  (member : reference ∈ wired.form.nodes.nodes)
  (isReference : reference.kind = .reference expression)
include member isReference

omit coherent in
/-- A reference of the wired form is one of the form. -/
theorem mem_form_reference : reference ∈ form.nodes.nodes := by
  rcases registered.mem_or_pseudo member with known | ⟨definition, isPseudo, _⟩
  · exact known
  · cases isPseudo.symm.trans isReference

include coherent

theorem expression?_eq (step : NodeId) :
    (context wired config step).expression? reference.id = some expression := by
  have found : node? wired.form.nodes reference.id = some reference :=
    NodeStore.node?_of_mem (registered.coherent coherent) member
  change (node? wired.form.nodes reference.id).bind _ = _
  rw [found, Option.bind_some, isReference]
  rfl

/-- A reference that is listed for a step belongs to it. -/
theorem owned_of_listed {step : NodeId} {role : MemberRole}
    (listed : reference.id ∈ wired.membership.within step role) :
    owningStep? form.nodes reference.id = some step ∧
      StepMembership.roleOf? reference.kind (inTemplate form.nodes reference) = some role := by
  obtain ⟨node, known, named, isRole, owned⟩ := registered.mem_listed_iff.1 listed
  have same : node = reference := by
    have found := NodeStore.node?_of_mem coherent known
    rw [named, NodeStore.node?_of_mem coherent
      (registered.mem_form_reference member isReference)] at found
    exact (Option.some.inj found).symm
  subst same
  exact ⟨owned, isRole⟩

/-- A reference finds the pseudo-nodes that it names. -/
theorem finds_iff_names {definition : Pseudo} (keyed : definition.kind.reads.isKeyed = true) :
    (context wired config definition.scope).Finds definition reference.id ↔
      Names form.nodes wired.form.nodes reference expression definition := by
  constructor
  · intro finds
    obtain ⟨other, known, key⟩ := finds.asks
    obtain ⟨listed, again, _⟩ := WiringContext.mem_selecting_iff.1 known
    rw [registered.expression?_eq coherent member isReference] at again
    cases again
    obtain ⟨owned, isRole⟩ := registered.owned_of_listed coherent member isReference listed
    exact ⟨(roleOf?_eq_reference_iff.1 isRole).2, owned, key, finds.nearest⟩
  · intro names
    refine ⟨keyed, ⟨expression, WiringContext.mem_selecting_iff.2 ⟨?_, ?_, ?_⟩, names.key⟩,
      names.nearest⟩
    · refine registered.mem_listed_iff.2 ⟨reference,
        registered.mem_form_reference member isReference, rfl, ?_, names.scope⟩
      rw [roleOf?_eq_reference_iff]
      exact ⟨⟨expression, isReference⟩, names.outside⟩
    · exact registered.expression?_eq coherent member isReference _
    · exact Reference.isIn_of_lookupKey? names.key

/-- An edge into a reference comes from a pseudo-node that the reference names, or the reference
goes by its place. In both cases the reference belongs to a step. -/
theorem edge_into_reference {edge : Edge} (into : edge ∈ wired.graph.edgesTo reference.id) :
    (∃ step, owningStep? form.nodes reference.id = some step) ∧
      ((∃ space, space.isKeyed = false ∧ expression.selected? = some space) ∨
        ∃ source ∈ wired.form.nodes.nodes, ∃ definition, source.kind = .pseudo definition ∧
          source.id = edge.producer ∧
          Names form.nodes wired.form.nodes reference expression definition ∧
          edge.role = .dataFlow ∧
          edge.metadata = ⟨some definition.key, none, some definition.kind.reads⟩) := by
  obtain ⟨edgeMember, consumer⟩ := List.mem_filter.1 into
  have consumer : edge.consumer = reference.id := of_decide_eq_true consumer
  obtain ⟨step, _, c, asked, same, carried⟩ := registered.exists_asked edgeMember
  obtain ⟨producerSame, consumerSame, roleSame⟩ := Triple.mk.inj same
  have reader : c.consumer = reference.id := consumerSame.trans consumer
  have known := registered.expression?_eq coherent member isReference step
  cases WiringContext.asked_of_mem (registered.coherent coherent) asked with
  | fills id definition held filled =>
    have leads : c.consumer = id :=
      (context wired config step).producers_into id definition c filled
    rw [← reader, leads, WiringContext.expression?_of_definition? held.1] at known
    cases known
  | reads definition held found role metadata =>
    obtain ⟨isOne, rfl⟩ := held
    rw [reader] at found
    have names := (registered.finds_iff_names coherent member isReference found.keyed).1 found
    obtain ⟨source, present, isPseudo⟩ := Option.bind_eq_some_iff.1 isOne
    obtain ⟨there, named⟩ :=
      (NodeStore.node?_eq_some_iff (registered.coherent coherent)).1 present
    exact ⟨⟨_, names.scope⟩, .inr ⟨source, there, definition,
      NodeKind.pseudo?_eq_some_iff.1 isPseudo, named.trans producerSame, names,
      roleSame.symm.trans role, carried.symm.trans metadata⟩⟩
  | placed space other unkeyed listed found within =>
    rw [reader] at listed found
    cases known.symm.trans found
    refine ⟨⟨step, ?_⟩, .inl ⟨space, unkeyed, Reference.isIn_iff.1 within⟩⟩
    rcases List.mem_append.1 listed with plain | template
    · exact (registered.owned_of_listed coherent member isReference plain).1
    · exact (registered.owned_of_listed coherent member isReference template).1

/-- A pseudo-node that a reference names is connected to it. -/
theorem exists_edge_of_names {source : Node} {definition : Pseudo}
    (there : source ∈ wired.form.nodes.nodes) (isPseudo : source.kind = .pseudo definition)
    (keyed : definition.kind.reads.isKeyed = true)
    (names : Names form.nodes wired.form.nodes reference expression definition) :
    ∃ edge ∈ wired.graph.edgesTo reference.id, edge.producer = source.id := by
  have known := registered.mem_form_reference member isReference
  have listed : definition.scope ∈ wired.scopes.steps := by
    have found := NodeStore.node?_of_mem coherent known
    obtain ⟨outer, present, isStep⟩ :=
      node?_of_owningStep? found (by rw [isReference]; rfl) names.scope
    obtain ⟨outerKnown, named⟩ := (NodeStore.node?_eq_some_iff coherent).1 present
    exact (ScopeTree.mem_steps_build registered.scopes).2 ⟨outer, outerKnown, isStep, named⟩
  have held : (context wired config definition.scope).Holds source.id definition := by
    refine ⟨?_, rfl⟩
    have found : node? wired.form.nodes source.id = some source :=
      NodeStore.node?_of_mem (registered.coherent coherent) there
    change (node? wired.form.nodes source.id).bind _ = _
    rw [found, Option.bind_some, isPseudo]
    rfl
  have serves := WiringContext.serves_of_silent (registered.coherent coherent) held
    (registered.silent listed)
  obtain ⟨c, asked, producer, consumer⟩ := serves.reads reference.id
    ((registered.finds_iff_names coherent member isReference keyed).2 names)
  obtain ⟨edge, edgeMember, same⟩ := registered.exists_edge listed asked
  obtain ⟨producerSame, consumerSame, _⟩ := Triple.mk.inj same
  exact ⟨edge, List.mem_filter.2 ⟨edgeMember, by simp [consumerSame, consumer]⟩,
    producerSame.trans producer⟩

end Registered

/-- What a reference names is what its key stands for. -/
theorem Names.identityOf?_eq {nodes made : NodeStore} (coherent : made.Coherent)
    {reference source : Node} {expression : Reference} {definition : Pseudo}
    (there : source ∈ made.nodes) (isPseudo : source.kind = .pseudo definition)
    (names : Names nodes made reference expression definition)
    (keyed : definition.kind.reads.isKeyed = true) :
    Pass.identityOf? made definition.scope definition.kind.reads definition.key =
      some definition.toPseudoKey := by
  obtain ⟨⟨kind, scope, key⟩, origin⟩ := definition
  cases kind with
  | answerLocal =>
    have present : pseudo? made ⟨.answerLocal, scope, key⟩ = some source.id :=
      (NodeStore.pseudo?_eq_some_iff coherent).2 ⟨source, NodeStore.node?_of_mem coherent there,
        by rw [Node.identity?, isPseudo]; rfl⟩
    exact if_pos (by rw [present]; rfl)
  | answerRemote =>
    have absent : pseudo? made ⟨.answerLocal, scope, key⟩ = none := names.nearest rfl
    exact if_neg (by rw [absent]; simp)
  | post | query | params | data => rfl
  | item => cases keyed

/-- A reference names at most one pseudo-node. -/
theorem Names.unique {nodes made : NodeStore} (coherent : made.Coherent)
    {reference one other : Node} {expression : Reference} {first second : Pseudo}
    (oneThere : one ∈ made.nodes) (isFirst : one.kind = .pseudo first)
    (otherThere : other ∈ made.nodes) (isSecond : other.kind = .pseudo second)
    (namesFirst : Names nodes made reference expression first)
    (namesSecond : Names nodes made reference expression second)
    (keyed : first.kind.reads.isKeyed = true) : one.id = other.id := by
  have scopes : first.scope = second.scope :=
    Option.some.inj (namesFirst.scope.symm.trans namesSecond.scope)
  have spaces : first.kind.reads = second.kind.reads :=
    Reference.isIn_inj (Reference.isIn_of_lookupKey? namesFirst.key)
      (Reference.isIn_of_lookupKey? namesSecond.key)
  have keys : first.key = second.key :=
    Option.some.inj (namesFirst.key.symm.trans (spaces ▸ namesSecond.key))
  have identities : first.toPseudoKey = second.toPseudoKey := by
    have stands := namesFirst.identityOf?_eq coherent oneThere isFirst keyed
    rw [scopes, spaces, keys,
      namesSecond.identityOf?_eq coherent otherThere isSecond (spaces ▸ keyed)] at stands
    exact (Option.some.inj stands).symm
  have found : ∀ {node : Node} {definition : Pseudo}, node ∈ made.nodes →
      node.kind = .pseudo definition → made.pseudo? definition.toPseudoKey = some node.id :=
    fun there isPseudo => (NodeStore.pseudo?_eq_some_iff coherent).2 ⟨_,
      NodeStore.node?_of_mem coherent there, by rw [Node.identity?, isPseudo]; rfl⟩
  have present := found oneThere isFirst
  rw [identities, found otherThere isSecond] at present
  exact (Option.some.inj present).symm

/-- **The edges into a reference of a keyed namespace are what a comparison with every pseudo-node
of the form finds**, however many steps, collections and pseudo-nodes the form has: there is an
edge from the pseudo-node that the reference names, with the key and the namespace on it, and no
other. Without a step a reference has no edges. The step and the collections around a reference
are those of the form; unless a missing parent was captured, the wired form shows the same. -/
theorem edgesTo_reference {form : Form} {config : WiringConfig} {wired : WiredForm}
    (built : form.Built) (acyclic : Acyclic form.nodes) (wiring : wire form config = .ok wired)
    {reference : Node} {expression : Reference} (member : reference ∈ wired.form.nodes.nodes)
    (isReference : reference.kind = .reference expression) :
    (∀ space, expression.selected? = some space → space.isKeyed = true →
      (∀ source ∈ wired.form.nodes.nodes, ∀ definition, source.kind = .pseudo definition →
        ((∃ edge ∈ wired.graph.edgesTo reference.id, edge.producer = source.id) ↔
          definition.kind.reads = space ∧
            Names form.nodes wired.form.nodes reference expression definition)) ∧
      (∀ edge ∈ wired.graph.edgesTo reference.id, ∃ source ∈ wired.form.nodes.nodes,
        ∃ definition, source.kind = .pseudo definition ∧ source.id = edge.producer ∧
          edge.role = .dataFlow ∧ edge.metadata = ⟨some definition.key, none, some space⟩) ∧
      (wired.graph.edgesTo reference.id).length ≤ 1) ∧
    (owningStep? form.nodes reference.id = none → wired.graph.edgesTo reference.id = []) ∧
    (Uncaptured form.nodes wired.form.nodes →
      owningStep? wired.form.nodes reference.id = owningStep? form.nodes reference.id ∧
        inTemplate wired.form.nodes reference = inTemplate form.nodes reference) := by
  have registered := wire_spec wiring
  have coherent := built.coherent
  have made := registered.coherent coherent
  refine ⟨fun space selected keyed => ?_, fun unowned => ?_, fun uncaptured => ?_⟩
  · have named : ∀ edge ∈ wired.graph.edgesTo reference.id,
        ∃ source ∈ wired.form.nodes.nodes, ∃ definition, source.kind = .pseudo definition ∧
          source.id = edge.producer ∧
          Names form.nodes wired.form.nodes reference expression definition ∧
          edge.role = .dataFlow ∧
          edge.metadata = ⟨some definition.key, none, some definition.kind.reads⟩ := by
      intro edge into
      rcases (registered.edge_into_reference coherent member isReference into).2 with
        ⟨other, unkeyed, known⟩ | found
      · cases selected.symm.trans known
        cases keyed.symm.trans unkeyed
      · exact found
    have reads : ∀ definition,
        Names form.nodes wired.form.nodes reference expression definition →
          definition.kind.reads = space := fun definition names =>
      Reference.isIn_inj (Reference.isIn_of_lookupKey? names.key) (Reference.isIn_iff.2 selected)
    refine ⟨fun source there definition isPseudo => ⟨?_, ?_⟩, fun edge into => ?_, ?_⟩
    · rintro ⟨edge, into, producer⟩
      obtain ⟨other, otherThere, found, isOther, same, names, _⟩ := named edge into
      have again : other = source := by
        have present := NodeStore.node?_of_mem made otherThere
        rw [same, producer, NodeStore.node?_of_mem made there] at present
        exact (Option.some.inj present).symm
      subst again
      cases isPseudo.symm.trans isOther
      exact ⟨reads _ names, names⟩
    · rintro ⟨rfl, names⟩
      exact registered.exists_edge_of_names coherent member isReference there isPseudo keyed names
    · obtain ⟨source, there, definition, isPseudo, same, names, role, metadata⟩ := named edge into
      exact ⟨source, there, definition, isPseudo, same, role, reads _ names ▸ metadata⟩
    · refine DependencyGraph.length_edgesTo_le_one registered.nodup_triples ?_
      intro edge into other otherInto
      obtain ⟨one, oneThere, first, isFirst, oneSame, namesFirst, oneRole, _⟩ := named edge into
      obtain ⟨two, twoThere, second, isSecond, twoSame, namesSecond, twoRole, _⟩ :=
        named other otherInto
      have producers := Names.unique made oneThere isFirst twoThere isSecond namesFirst
        namesSecond (reads _ namesFirst ▸ keyed)
      have consumer : edge.consumer = reference.id :=
        of_decide_eq_true (List.mem_filter.1 into).2
      have otherConsumer : other.consumer = reference.id :=
        of_decide_eq_true (List.mem_filter.1 otherInto).2
      rw [oneSame, twoSame] at producers
      simp only [Edge.triple, producers, consumer, otherConsumer, oneRole, twoRole]
  · refine List.eq_nil_iff_forall_not_mem.2 fun edge into => ?_
    obtain ⟨⟨step, owned⟩, _⟩ := registered.edge_into_reference coherent member isReference into
    cases unowned.symm.trans owned
  · have known := registered.mem_form_reference member isReference
    have grows := registered.grows coherent
    have unchanged := unchanged_of_grows coherent acyclic grows uncaptured
    refine ⟨unchanged.owningStep? coherent grows known, ?_⟩
    simp only [inTemplate]
    rw [unchanged.repeatedAbove? known]

/-! ### A reference whose parent is missing -/

namespace Captured

theorem edgesTo_present :
    ∃ edge ∈ (wired ⟨1⟩).graph.edgesTo ⟨3⟩, edge.producer = ⟨5⟩ := by
  have scanned := edgesTo_reference built (acyclic ⟨1⟩ (by decide))
    (rfl : wire (form ⟨1⟩) .default = .ok (wired ⟨1⟩))
    (List.mem_of_find?_eq_some (rfl : (wired ⟨1⟩).form.nodes.node? ⟨3⟩ = some _)) rfl
  exact ((scanned.1 .answers rfl rfl).1 _
    (List.mem_of_find?_eq_some (rfl : (wired ⟨1⟩).form.nodes.node? ⟨5⟩ = some _)) _ rfl).2
      ⟨rfl, ⟨rfl, rfl, rfl, nofun⟩⟩

/-- If a pseudo-node takes the place of the missing parent, the wired form shows the reference in
the step, but the reference was not wired. -/
theorem edgesTo_differs : ¬∀ (form : Form) (config : WiringConfig) (wired : WiredForm),
    form.Built → Acyclic form.nodes → wire form config = .ok wired →
      ∀ reference ∈ wired.form.nodes.nodes, ∀ expression,
        reference.kind = .reference expression →
        ∀ space, expression.selected? = some space → space.isKeyed = true →
        ∀ source ∈ wired.form.nodes.nodes, ∀ definition, source.kind = .pseudo definition →
          ((∃ edge ∈ wired.graph.edgesTo reference.id, edge.producer = source.id) ↔
            definition.kind.reads = space ∧
              Names wired.form.nodes wired.form.nodes reference expression definition) := by
  intro scans
  have scanned := scans (form ⟨4⟩) .default (wired ⟨4⟩) read (acyclic ⟨4⟩ (by decide)) rfl
    _ (List.mem_of_find?_eq_some (rfl : (wired ⟨4⟩).form.nodes.node? ⟨3⟩ = some _)) _ rfl
    .answers rfl rfl
    _ (List.mem_of_find?_eq_some (rfl : (wired ⟨4⟩).form.nodes.node? ⟨5⟩ = some _)) _ rfl
  obtain ⟨edge, into, _⟩ := scanned.2 ⟨rfl, ⟨rfl, rfl, rfl, nofun⟩⟩
  have none : (wired ⟨4⟩).graph.edgesTo ⟨3⟩ = [] := rfl
  rw [none] at into
  cases into

end Captured

end WiredForm

end FormFlow
