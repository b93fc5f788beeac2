import FormFlow.Proofs.Wiring.Partners

/-!
# Forms that wire alike

The nodes of a form with its pseudo-nodes are known before anything is wired (`Form.furnished`), and
the form is wired successfully exactly if nothing in the draft over them fails
(`WiredForm.exists_wire_iff`).

Twins are wired alike if the order of their nodes shows nowhere (`Form.Aligned`) and no pseudo-node
is given an identifier that is named without a node (`Form.Unclaimed`): one is wired exactly if the
other is, and then they have the same pseudo-nodes with the same origins and the same edges between
them (`WiredForm.Agrees`).
-/

set_option autoImplicit false

namespace FormFlow

open NodeSource

namespace Form

/-- The steps of a form in declared order. -/
def steps (form : Form) : List NodeId :=
  (form.nodes.nodes.filter fun node => node.kind.isStep).map Node.id

/-- The nodes of a form with the pseudo-nodes that its steps want. -/
def furnished (form : Form) : NodeStore :=
  (WiredForm.synthesize (.build form.nodes) form.steps form.nodes 0).1

/-- An identifier that a node names as its parent, or as a node that it takes its value from, is not
given to a pseudo-node. -/
def Unclaimed (form : Form) : Prop :=
  ∀ node ∈ form.nodes.nodes, ∀ id ∈ node.parent.toList ++ node.kind.supplierIds,
    form.nodes.node? id = none → form.furnished.node? id = none

/-- Two forms agree where the order of nodes matters: on the first field of each code in a step, and
on the last load-transition that a journey or step declares. -/
structure Aligned (form other : Form) : Prop where
  fields : ∀ step code,
    form.nodes.firstField? step code = other.nodes.firstField? step code
  loads : ∀ scope, (ScopeTree.declaredLoads form.nodes scope).getLast? =
    (ScopeTree.declaredLoads other.nodes scope).getLast?

theorem Aligned.symm {form other : Form} (aligned : Aligned form other) : Aligned other form :=
  ⟨fun step code => (aligned.fields step code).symm, fun scope => (aligned.loads scope).symm⟩

variable {form : Form}

theorem mem_steps {step : NodeId} :
    step ∈ form.steps ↔ ∃ node ∈ form.nodes.nodes, node.kind.isStep = true ∧ node.id = step := by
  simp only [steps, List.mem_map, List.mem_filter, and_assoc]

/-- The tree of scopes lists the steps of the form. -/
theorem steps_eq {scopes : ScopeTree} (built : ScopeTree.build form.nodes = .ok scopes) :
    scopes.steps = form.steps := by
  rw [ScopeTree.steps, ScopeTree.entries_of_build built, steps]
  induction form.nodes.nodes with
  | nil => rfl
  | cons node rest ih =>
    rw [List.filterMap_cons, List.filter_cons]
    cases entered : ScopeTree.entryOf? form.nodes node with
    | none =>
      have plain : node.kind.isScope ≠ true := by
        intro isScope
        rw [ScopeTree.entryOf?, if_pos isScope] at entered
        cases entered
      have noStep : node.kind.isStep = false := by
        simpa [NodeKind.isScope] using (Bool.or_eq_false_iff.1 (Bool.eq_false_iff.2 plain)).2
      rw [noStep]
      exact ih
    | some entry =>
      obtain ⟨named, isStep⟩ := ScopeTree.of_entryOf? entered
      dsimp only
      rw [List.filter_cons, isStep]
      split
      · rw [List.map_cons, List.map_cons, ih, named]
      · exact ih

section

variable (coherent : form.nodes.Coherent)
include coherent

theorem nodup_steps : form.steps.Nodup :=
  coherent.nodup.sublist (List.filter_sublist.map _)

theorem furnished_grows : form.nodes.Grows form.nodes.nextId form.furnished :=
  WiredForm.synthesize_grows _ coherent 0

theorem furnished_coherent : form.furnished.Coherent :=
  (furnished_grows coherent).coherent coherent

/-- Nodes that are no pseudo-nodes are those of the form. -/
theorem plain?_furnished (id : NodeId) : form.furnished.plain? id = form.nodes.plain? id := by
  cases found : form.nodes.node? id with
  | some node =>
    rw [NodeStore.plain?, NodeStore.plain?, found, (furnished_grows coherent).node?_of_found found]
  | none =>
    rw [NodeStore.plain?, NodeStore.plain?, found]
    cases made : form.furnished.node? id with
    | none => rfl
    | some node =>
      obtain ⟨member, rfl⟩ := (NodeStore.node?_eq_some_iff (furnished_coherent coherent)).1 made
      rcases WiredForm.synthesize_mem member with known | ⟨definition, isPseudo, _⟩
      · cases found.symm.trans (NodeStore.node?_of_mem coherent known)
      · rw [Option.filter_some, isPseudo]
        rfl

/-- The ways up in an unclaimed form are those before pseudo-nodes are made. -/
theorem Unclaimed.unchanged (unclaimed : form.Unclaimed) (acyclic : Acyclic form.nodes) :
    WiredForm.Unchanged form.nodes form.furnished := by
  refine WiredForm.unchanged_of_grows coherent acyclic (furnished_grows coherent) ?_
  intro node member parent contained absent
  refine unclaimed node member parent (List.mem_append_left _ ?_) absent
  rw [contained]
  exact List.mem_singleton_self _

end

end Form

/-! ## What wiring needs to succeed -/

namespace WiredForm

theorem synthesize_fst (membership : StepMembership) (steps : List NodeId) (store : NodeStore)
    (count other : Nat) :
    (synthesize membership steps store count).1 = (synthesize membership steps store other).1 := by
  induction steps generalizing store count other with
  | nil => rfl
  | cons step rest ih => exact ih ..

/-- The nodes of a wired form. -/
theorem Registered.nodes_eq {form : Form} {config : WiringConfig} {wired : WiredForm}
    (registered : Registered form config wired) : wired.form.nodes = form.furnished := by
  obtain ⟨count, same⟩ := registered.nodes
  rw [same, registered.membership, Form.steps_eq registered.scopes]
  exact synthesize_fst ..

/-- The pseudo-nodes of a form can always be made. -/
theorem supply_build {form : Form} (coherent : form.nodes.Coherent) (steps : List NodeId)
    (count : Nat) : supply .endless (.build form.nodes) steps form.nodes count =
      .ok (synthesize (.build form.nodes) steps form.nodes count) := by
  refine supply_eq_synthesize coherent (fun step role id member => ?_) count
  obtain ⟨node, known, rfl, _⟩ := Registered.mem_within_build.1 member
  exact ⟨node, NodeStore.node?_of_mem coherent known⟩

/-- A form is wired if its load-transitions stand in scopes and its draft does not fail. -/
theorem exists_wire_iff {form : Form} (coherent : form.nodes.Coherent) {config : WiringConfig} :
    (∃ wired, wire form config = .ok wired) ↔ ∃ scopes, ScopeTree.build form.nodes = .ok scopes ∧
      (Pass.formDraft form.furnished scopes (.build form.nodes) config).failure? = none := by
  constructor
  · rintro ⟨wired, wiring⟩
    have registered := wire_spec wiring
    refine ⟨wired.scopes, registered.scopes, ?_⟩
    rw [← registered.nodes_eq, ← registered.membership]
    exact registered.drafted
  · rintro ⟨scopes, built, silent⟩
    rw [Form.furnished, ← Form.steps_eq built] at silent
    obtain ⟨report, passed⟩ : ∃ report, (Pass.wireAll (synthesize (.build form.nodes) scopes.steps
        form.nodes 0).1 scopes (.build form.nodes) config .empty).report = .ok report :=
      PassResult.report_ofDraft_eq_ok_iff.2 silent
    simp only [wire, built, supply_build coherent, Except.mapError, bind, Except.bind, passed]
    exact ⟨_, rfl⟩

end WiredForm

/-! ## Forms that see the same -/

namespace Form

/-- Forms with the same nodes in orders that show nowhere, neither of which gives an identifier to a
pseudo-node that is named without a node. -/
structure Alike (form other : Form) : Prop where
  twins : form.nodes.Twins other.nodes
  acyclic : Acyclic form.nodes
  otherAcyclic : Acyclic other.nodes
  aligned : form.Aligned other
  unclaimed : form.Unclaimed
  otherUnclaimed : other.Unclaimed

namespace Alike

variable {form other : Form}

theorem symm (alike : Alike form other) : Alike other form where
  twins := alike.twins.symm
  acyclic := alike.otherAcyclic
  otherAcyclic := alike.acyclic
  aligned := alike.aligned.symm
  unclaimed := alike.otherUnclaimed
  otherUnclaimed := alike.unclaimed

theorem step_of_step (alike : Alike form other) {step : NodeId} (listed : step ∈ form.steps) :
    step ∈ other.steps := by
  obtain ⟨node, member, isStep, rfl⟩ := mem_steps.1 listed
  obtain ⟨like, there, same⟩ := alike.twins.exists_like member
  have blind : NodeKind.Blind NodeKind.isStep := fun _ _ => rfl
  exact mem_steps.2 ⟨like, there, (blind.eq same).symm.trans isStep,
    (Node.id_of_outline same).symm⟩

/-- The same identities have pseudo-nodes, with the same origins. -/
theorem definition?_eq (alike : Alike form other) (identity : PseudoKey) :
    form.furnished.definition? identity = other.furnished.definition? identity :=
  alike.twins.definition?_synthesize alike.aligned.fields (nodup_steps alike.twins.coherent)
    (nodup_steps alike.twins.otherCoherent)
    (fun _ => ⟨alike.step_of_step, alike.symm.step_of_step⟩) 0 0 identity

variable (alike : Alike form other)
include alike

theorem plain?_eq (id : NodeId) :
    (form.furnished.plain? id).map Node.outline = (other.furnished.plain? id).map Node.outline := by
  have blind : NodeKind.Blind fun kind => kind.pseudo?.isNone := fun _ _ => rfl
  have kept : ∀ store : NodeStore, (store.plain? id).map Node.outline =
      ((store.node? id).map Node.outline).filter fun node => node.kind.pseudo?.isNone := by
    intro store
    rw [NodeStore.plain?]
    cases store.node? id with
    | none => rfl
    | some node =>
      rw [Option.filter_some, Option.map_some, Option.filter_some]
      have same : node.outline.kind.pseudo?.isNone = node.kind.pseudo?.isNone :=
        blind.outline node.kind
      rw [same]
      split <;> rfl
  rw [plain?_furnished alike.twins.coherent, plain?_furnished alike.twins.otherCoherent, kept, kept,
    alike.twins.node?]

/-- A node of the form is the same in both. -/
theorem sameNode_of_node? {id : NodeId} {node : Node} (found : form.nodes.node? id = some node) :
    form.furnished.SameNode other.furnished id id := by
  obtain ⟨like, there, same⟩ := alike.twins.exists_of_node? found
  have grows := furnished_grows alike.twins.coherent
  have otherGrows := furnished_grows alike.twins.otherCoherent
  have blind : NodeKind.Blind NodeKind.pseudo? := fun _ _ => rfl
  cases isPseudo : node.kind.pseudo? with
  | some definition =>
    have known : form.nodes.pseudoAt? id = some definition := by
      rw [NodeStore.pseudoAt?, found, Option.bind_some, isPseudo]
    have present := NodeStore.pseudo?_of_pseudoAt? alike.twins.coherent known
    have also := (alike.twins.pseudo? definition.toPseudoKey).symm.trans present
    exact .pseudo _ (grows.pseudo?_of_found present) (otherGrows.pseudo?_of_found also)
  | none =>
    refine .plain ?_ ?_
    · rw [NodeStore.pseudoAt?, grows.node?_of_found found, Option.bind_some, isPseudo]
    · rw [NodeStore.pseudoAt?, otherGrows.node?_of_found there, Option.bind_some,
        ← blind.eq same, isPseudo]

/-- What a node takes its value from is the same in both, whether it is there or not. -/
theorem sameNode_of_supplier {node : Node} (member : node ∈ form.nodes.nodes) {supplier : NodeId}
    (named : supplier ∈ node.kind.supplierIds) :
    form.furnished.SameNode other.furnished supplier supplier := by
  cases found : form.nodes.node? supplier with
  | some node => exact alike.sameNode_of_node? found
  | none =>
    obtain ⟨like, there, same⟩ := alike.twins.exists_like member
    have absent : other.nodes.node? supplier = none := by
      have both := alike.twins.node? supplier
      rw [found] at both
      exact Option.map_eq_none_iff.1 both.symm
    have alsoNamed : supplier ∈ like.kind.supplierIds :=
      WiringContext.Mirrors.supplierIds_blind.eq same ▸ named
    refine .plain ?_ ?_
    · rw [NodeStore.pseudoAt?, alike.unclaimed node member supplier
        (List.mem_append_right _ named) found]
      rfl
    · rw [NodeStore.pseudoAt?, alike.otherUnclaimed like there supplier
        (List.mem_append_right _ alsoNamed) absent]
      rfl

/-- What a node stands in, in the form with its pseudo-nodes. -/
theorem enclosing_eq {node like : Node} (member : node ∈ form.nodes.nodes)
    (there : like ∈ other.nodes.nodes) (same : node.outline = like.outline)
    {test : NodeKind → Bool} (blind : NodeKind.Blind test) :
    (enclosingAbove? form.furnished node test).map Node.outline =
      (enclosingAbove? other.furnished like test).map Node.outline := by
  have before := alike.twins.enclosingAbove? blind same
  have way := (alike.unclaimed.unchanged alike.twins.coherent alike.acyclic).above node member
  have otherWay := (alike.otherUnclaimed.unchanged alike.twins.otherCoherent
    alike.otherAcyclic).above like there
  rwa [enclosingAbove?, enclosingAbove?, ← way, ← otherWay] at before

/-- A member of a step is there in both forms. -/
theorem exists_member {step id : NodeId} {role : MemberRole}
    (listed : id ∈ (StepMembership.build form.nodes).within step role) :
    ∃ node ∈ form.nodes.nodes, ∃ like ∈ other.nodes.nodes, node.outline = like.outline ∧
      node? form.furnished id = some node ∧ node? other.furnished id = some like := by
  obtain ⟨node, member, rfl, _⟩ := WiredForm.Registered.mem_within_build.1 listed
  obtain ⟨like, there, same⟩ := alike.twins.exists_like member
  refine ⟨node, member, like, there, same, ?_, ?_⟩
  · exact (furnished_grows alike.twins.coherent).node?_of_found
      (NodeStore.node?_of_mem alike.twins.coherent member)
  · rw [Node.id_of_outline same]
    exact (furnished_grows alike.twins.otherCoherent).node?_of_found
      (NodeStore.node?_of_mem alike.twins.otherCoherent there)

end Alike

/-- The context in which a step of a form is wired. -/
def context (form : Form) (scopes : ScopeTree) (config : WiringConfig) (step : NodeId) :
    WiringContext NodeStore :=
  ⟨form.furnished, scopes, (StepMembership.build form.nodes).members step, step, config⟩

namespace Alike

variable {form other : Form} (alike : Alike form other) {scopes others : ScopeTree}
  (built : ScopeTree.build form.nodes = .ok scopes)
  (otherBuilt : ScopeTree.build other.nodes = .ok others)
include alike

theorem enclosingField?_eq {config : WiringConfig} {step id : NodeId} {role : MemberRole}
    (listed : id ∈ (StepMembership.build form.nodes).within step role) :
    (form.context scopes config step).enclosingField? id =
      (other.context others config step).enclosingField? id := by
  have blind : NodeKind.Blind NodeKind.field? := fun _ _ => rfl
  obtain ⟨node, member, like, there, same, found, alsoFound⟩ := alike.exists_member listed
  have outer := alike.enclosing_eq member there same
    (fun _ _ => rfl : NodeKind.Blind NodeKind.isField)
  change ((node? form.furnished id).bind fun node =>
      (enclosingAbove? form.furnished node NodeKind.isField).bind fun outer => outer.kind.field?) =
    (node? other.furnished id).bind fun node =>
      (enclosingAbove? other.furnished node NodeKind.isField).bind fun outer => outer.kind.field?
  rw [found, alsoFound, Option.bind_some, Option.bind_some]
  exact blind.bind_eq outer

theorem scopeKey?_eq {step id : NodeId} {role : MemberRole}
    (listed : id ∈ (StepMembership.build form.nodes).within step role) :
    Item.scopeKey? form.furnished id = Item.scopeKey? other.furnished id := by
  obtain ⟨node, member, like, there, same, found, alsoFound⟩ := alike.exists_member listed
  have outer := alike.enclosing_eq member there same
    (fun _ _ => rfl : NodeKind.Blind NodeKind.isRepeated)
  have read : ∀ found : Option Node, (found.bind fun scope => Item.keyOfKind? scope.id scope.kind) =
      (found.map Node.outline).bind fun scope => Item.keyOfKind? scope.id scope.kind := by
    intro found
    cases found with
    | none => rfl
    | some scope =>
      have blind : NodeKind.Blind (Item.keyOfKind? scope.id) := fun _ _ => rfl
      exact (blind.outline scope.kind).symm
  have key : ∀ store : NodeStore, Item.scopeKey? store id = (node? store id).bind fun node =>
      (enclosingAbove? store node NodeKind.isRepeated).bind fun scope =>
        Item.keyOfKind? scope.id scope.kind := fun _ => rfl
  rw [key, key, found, alsoFound, Option.bind_some, Option.bind_some, read, outer, ← read]

include built otherBuilt

/-- **A step is seen alike in both forms.** -/
theorem mirrors (config : WiringConfig) {step : NodeId} (listed : step ∈ form.steps) :
    (form.context scopes config step).Mirrors (other.context others config step)
      fun _ => True where
  coherent := furnished_coherent alike.twins.coherent
  otherCoherent := furnished_coherent alike.twins.otherCoherent
  step := rfl
  config := rfl
  load := by
    obtain ⟨node, member, isStep, rfl⟩ := mem_steps.1 listed
    obtain ⟨like, there, alsoStep, named⟩ := mem_steps.1 (alike.step_of_step listed)
    have one := ScopeTree.lastLoadFrom?_eq alike.twins.coherent.nodup built alike.acyclic member
      (by rw [NodeKind.isScope, isStep, Bool.or_true])
    have two := ScopeTree.lastLoadFrom?_eq alike.twins.otherCoherent.nodup otherBuilt
      alike.otherAcyclic there (by rw [NodeKind.isScope, alsoStep, Bool.or_true])
    rw [named] at two
    exact one.trans ((alike.twins.loadAbove? alike.aligned.loads node.id).trans two.symm)
  definitions := fun identity _ => alike.definition?_eq identity
  plain := fun id _ => alike.plain?_eq id
  listed := fun _ _ => trivial
  origins := fun _ _ _ _ _ => trivial
  collections := fun _ _ _ _ _ => trivial
  references := fun _ => (alike.twins.within step .reference).mem_iff
  templateReferences := fun _ => (alike.twins.within step .templateReference).mem_iff
  enclosing := fun _ listed => listed.elim alike.enclosingField?_eq alike.enclosingField?_eq
  scopeKey := fun _ listed => alike.scopeKey?_eq listed
  supplied := by
    intro id node _ found supplier named
    have plain : form.nodes.plain? id = some node :=
      (plain?_furnished alike.twins.coherent id).symm.trans found
    have present := (Option.filter_eq_some_iff.1 plain).1
    exact alike.sameNode_of_supplier
      ((NodeStore.node?_eq_some_iff alike.twins.coherent).1 present).1 named
  loaded := by
    intro transition serves
    obtain ⟨node, member, rfl⟩ := List.mem_map.1 (ScopeTree.mem_of_lastLoadFrom? built serves)
    exact alike.sameNode_of_node? (NodeStore.node?_of_mem alike.twins.coherent member)

/-- Whatever is in the draft of one form has its partner in that of the other. -/
theorem formDraft_maps (config : WiringConfig) :
    (Pass.formDraft form.furnished scopes (.build form.nodes) config).Maps
      (form.furnished.SameNode other.furnished)
      (Pass.formDraft other.furnished others (.build other.nodes) config) := by
  refine .flatMap fun step listed => ⟨step, ?_, ?_⟩
  · rw [steps_eq otherBuilt]
    exact alike.step_of_step (steps_eq built ▸ listed)
  · exact (alike.mirrors built otherBuilt config (steps_eq built ▸ listed)).stepDraft_maps

omit built otherBuilt in
/-- If one of the forms can be wired, so can the other. -/
theorem exists_wire {config : WiringConfig}
    (wires : ∃ wired, WiredForm.wire form config = .ok wired) :
    ∃ wired, WiredForm.wire other config = .ok wired := by
  obtain ⟨scopes, built, silent⟩ := (WiredForm.exists_wire_iff alike.twins.coherent).1 wires
  obtain ⟨others, otherBuilt⟩ := alike.twins.build_succeeds built
  exact (WiredForm.exists_wire_iff alike.twins.otherCoherent).2 ⟨others, otherBuilt,
    (alike.symm.formDraft_maps otherBuilt built config).succeeds silent⟩

end Alike

end Form

/-! ## Wired forms that agree -/

/-- An edge and the same edge between the nodes of another store. -/
structure Edge.Same (store other : NodeStore) (edge same : Edge) : Prop where
  producer : store.SameNode other edge.producer same.producer
  consumer : store.SameNode other edge.consumer same.consumer
  role : edge.role = same.role
  metadata : edge.metadata = same.metadata

/-- Wired forms with the same pseudo-nodes, made for the same nodes, and with the same edges, where
pseudo-nodes go by their identities and not by their identifiers. -/
structure WiredForm.Agrees (wired other : WiredForm) : Prop where
  definitions : ∀ identity,
    wired.form.nodes.definition? identity = other.form.nodes.definition? identity
  edges : ∀ edge ∈ wired.graph.edges, ∃ same ∈ other.graph.edges,
    edge.Same wired.form.nodes other.form.nodes same
  otherEdges : ∀ edge ∈ other.graph.edges, ∃ same ∈ wired.graph.edges,
    edge.Same other.form.nodes wired.form.nodes same

namespace WiredForm.Registered

variable {form : Form} {config : WiringConfig} {wired : WiredForm}
  (registered : Registered form config wired)
include registered

/-- A step is wired in the context that the form gives it. -/
theorem context_eq (step : NodeId) :
    form.context wired.scopes config step = context wired config step := by
  rw [Form.context, context, registered.nodes_eq, registered.membership]

/-- An edge carries what the draft of the form offers for its connection. -/
theorem offer?_of_edge {edge : Edge} (member : edge ∈ wired.graph.edges) :
    (Pass.formDraft form.furnished wired.scopes (.build form.nodes) config).offer? edge.triple =
      some edge.metadata := by
  have found := DependencyGraph.metadata?_of_mem registered.nodup_triples member
  rw [registered.graph, Draft.metadata?_applyTo registered.drafted] at found
  rw [← registered.nodes_eq, ← registered.membership]
  exact found

/-- What the draft of the form offers is carried by an edge. -/
theorem edge_of_offer? {triple : Triple} {metadata : EdgeMetadata}
    (offered : (Pass.formDraft form.furnished wired.scopes (.build form.nodes) config).offer?
      triple = some metadata) :
    ∃ edge ∈ wired.graph.edges, edge.triple = triple ∧ edge.metadata = metadata := by
  rw [← registered.nodes_eq, ← registered.membership] at offered
  refine DependencyGraph.exists_of_metadata? ?_
  rw [registered.graph, Draft.metadata?_applyTo registered.drafted]
  exact offered

end WiredForm.Registered

namespace Form

/-- What the draft of a form offers is carried in one of its steps. -/
theorem exists_carried {form : Form} (coherent : form.nodes.Coherent) {scopes : ScopeTree}
    (built : ScopeTree.build form.nodes = .ok scopes) {config : WiringConfig} {triple : Triple}
    {metadata : EdgeMetadata}
    (offered : (Pass.formDraft form.furnished scopes (.build form.nodes) config).offer? triple =
      some metadata) :
    ∃ step ∈ form.steps, (form.context scopes config step).Carried triple metadata := by
  rw [Pass.formDraft, Draft.offer?_flatMap] at offered
  obtain ⟨step, listed, found⟩ := List.exists_of_findSome?_eq_some offered
  rw [steps_eq built] at listed
  exact ⟨step, listed, WiringContext.carried_of_offer?
    (show (form.context scopes config step).nodes.Coherent from furnished_coherent coherent)
    triple metadata found⟩

namespace Alike

variable {form other : Form} (alike : Alike form other) {config : WiringConfig}
include alike

/-- The same connection carries the same in both forms. -/
theorem metadata_eq {scopes others : ScopeTree} (built : ScopeTree.build form.nodes = .ok scopes)
    (otherBuilt : ScopeTree.build other.nodes = .ok others) {step otherStep : NodeId}
    (listed : step ∈ form.steps) {triple partner : Triple} {metadata found : EdgeMetadata}
    (carried : (form.context scopes config step).Carried triple metadata)
    (otherCarried : (other.context others config otherStep).Carried partner found)
    (producer : form.furnished.SameNode other.furnished triple.producer partner.producer)
    (consumer : form.furnished.SameNode other.furnished triple.consumer partner.consumer)
    (role : triple.role = partner.role) : metadata = found := by
  have mirrors := alike.mirrors built otherBuilt config listed
  have biunique : ∀ {id another same like : NodeId},
      form.furnished.SameNode other.furnished id same →
      form.furnished.SameNode other.furnished another like → (id = another ↔ same = like) :=
    fun one two => one.biunique mirrors.coherent mirrors.otherCoherent two
  cases carried with
  | fills definition held filled =>
    have known : (other.context others config otherStep).definition? partner.consumer =
        some definition := consumer.pseudoAt? alike.definition?_eq held.1
    cases otherCarried with
    | fills again alsoHeld alsoFilled =>
      cases known.symm.trans alsoHeld.1
      obtain rfl : step = otherStep := held.2.symm.trans alsoHeld.2
      have offers := Draft.offer?_eq_of_forall₂ biunique
        (mirrors.producers_partners consumer held) producer consumer role
      exact Option.some.inj (filled.symm.trans (offers.trans alsoFilled))
    | reads _ expression _ _ isReference _ _ =>
      cases (WiringContext.expression?_of_definition? known).symm.trans isReference
  | reads definition expression space held isReference within same =>
    have alone : triple.consumer = partner.consumer :=
      (mirrors.same_reference trivial isReference).unique mirrors.coherent consumer
    have alsoReference := (mirrors.expression?_eq trivial).symm.trans isReference
    rw [alone] at alsoReference
    cases otherCarried with
    | fills again alsoHeld _ =>
      cases (WiringContext.expression?_of_definition? alsoHeld.1).symm.trans alsoReference
    | reads again found otherSpace alsoHeld known alsoWithin alsoSame =>
      cases (producer.pseudoAt? alike.definition?_eq held.1).symm.trans alsoHeld.1
      cases alsoReference.symm.trans known
      rw [same, alsoSame, Reference.isIn_inj within alsoWithin]

/-- Every edge of one form is there in the other. -/
theorem exists_same {wired others : WiredForm} (wiring : WiredForm.wire form config = .ok wired)
    (otherWiring : WiredForm.wire other config = .ok others) {edge : Edge}
    (member : edge ∈ wired.graph.edges) : ∃ same ∈ others.graph.edges,
      edge.Same wired.form.nodes others.form.nodes same := by
  have registered := WiredForm.wire_spec wiring
  have otherRegistered := WiredForm.wire_spec otherWiring
  have offered := registered.offer?_of_edge member
  obtain ⟨step, listed, carried⟩ := exists_carried alike.twins.coherent registered.scopes offered
  obtain ⟨c, asked, sameTriple, _⟩ := Draft.exists_of_offer? offered
  obtain ⟨entry, there, partner⟩ :=
    alike.formDraft_maps registered.scopes otherRegistered.scopes config _ asked
  cases partner with
  | @ok c found producer consumer role _ =>
    obtain ⟨metadata, otherOffered⟩ := Draft.exists_offer? there
    obtain ⟨same, present, triples, metadataEq⟩ := otherRegistered.edge_of_offer? otherOffered
    obtain ⟨otherStep, _, otherCarried⟩ :=
      exists_carried alike.twins.otherCoherent otherRegistered.scopes otherOffered
    obtain ⟨sameProducer, sameConsumer, sameRole⟩ := Triple.mk.inj sameTriple
    obtain ⟨foundProducer, foundConsumer, foundRole⟩ := Triple.mk.inj triples
    have equal := alike.metadata_eq registered.scopes otherRegistered.scopes listed
      (sameTriple ▸ carried) otherCarried producer consumer role
    rw [registered.nodes_eq, otherRegistered.nodes_eq]
    refine ⟨same, present, ?_, ?_, ?_, equal.trans metadataEq.symm⟩
    · rw [← sameProducer, foundProducer]
      exact producer
    · rw [← sameConsumer, foundConsumer]
      exact consumer
    · rw [← sameRole, foundRole]
      exact role

/-- **The wired forms agree.** -/
theorem agrees {wired others : WiredForm} (wiring : WiredForm.wire form config = .ok wired)
    (otherWiring : WiredForm.wire other config = .ok others) : wired.Agrees others where
  definitions := by
    rw [(WiredForm.wire_spec wiring).nodes_eq, (WiredForm.wire_spec otherWiring).nodes_eq]
    exact alike.definition?_eq
  edges := fun _ => alike.exists_same wiring otherWiring
  otherEdges := fun _ => alike.symm.exists_same otherWiring wiring

end Alike

end Form

end FormFlow
