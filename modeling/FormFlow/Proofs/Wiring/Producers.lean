import FormFlow.Proofs.Form.Built
import FormFlow.Proofs.Wiring.Edges

/-!
# The edges into pseudo-nodes

What feeds a pseudo-node can be read off its kind, its origin and the scopes around its step
(`WiredForm.suppliers`). The edges into the pseudo-nodes of a step are these and no others, the
edges into any other pseudo-node are none, and every edge leads into a pseudo-node or into a
reference (`WiredForm.edgesTo_pseudo`).
-/

set_option autoImplicit false

namespace FormFlow

open NodeSource

namespace WiredForm

/-- The field that a local answer was made for. -/
def originField? (nodes : NodeStore) (definition : Pseudo) : Option Field :=
  (definition.origin.bind nodes.node?).bind fun node => node.kind.field?

/-- The collection that an item was made for, itself or by one of its iterations. -/
def originCollection? (nodes : NodeStore) (definition : Pseudo) : Option Collection :=
  (definition.origin.bind nodes.node?).bind fun node =>
    match node.kind with
    | .collection found => some found
    | .iteration collection _ => (nodes.node? collection).bind fun node => node.kind.collection?
    | _ => none

/-- What feeds a pseudo-node of a step that is served by a load-transition or by none: producers
with the roles of their edges. -/
def suppliers (nodes : NodeStore) (load : Option NodeId) (definition : Pseudo) :
    List (NodeId × Role) :=
  let loaded := load.toList.map fun transition => (transition, Role.effect)
  match definition.kind with
  | .post => []
  | .query => []
  | .params => []
  | .data => loaded
  | .answerRemote => loaded
  | .answerLocal =>
    match originField? nodes definition with
    | some field =>
      ((nodes.pseudo? ⟨.post, definition.scope, definition.key⟩).toList ++ field.formatters ++
        field.defaultValue.toList).map (fun value => (value, Role.dataFlow)) ++ loaded
    | none => []
  | .item =>
    match originCollection? nodes definition with
    | some collection => collection.source.toList.map fun source => (source, Role.dataFlow)
    | none => []

end WiredForm

/-! ## What a pseudo-node asks for -/

namespace Draft

theorem sources_after {α : Type} (value : Except WiringError α) (draft : α → Draft) :
    (after value draft).sources = match value.toOption with
      | some found => (draft found).sources
      | none => [] := by
  cases value <;> rfl

end Draft

namespace WiringContext

variable {σ : Type} (ctx : WiringContext σ)

theorem sources_load (family : Family) (pseudo : NodeId) (key : String) :
    (ctx.load family pseudo key).sources =
      (ctx.scopes.lastLoadFrom? ctx.step).toList.map fun transition => (transition, .effect) := by
  rw [load]
  cases ctx.scopes.lastLoadFrom? ctx.step <;> rfl

theorem sources_formatters (id : NodeId) (code : String) (position : Nat) (ids : List NodeId) :
    (Answer.formatters ctx id code position ids).sources =
      ids.map fun formatter => (formatter, .dataFlow) := by
  induction ids generalizing position with
  | nil => rfl
  | cons formatter rest ih =>
    rw [Answer.formatters, Draft.sources_append, ih]
    rfl

variable [NodeSource σ]

/-- A field is fed by the submitted value, its formatters, its default value and the load-transition
of the step. -/
theorem sources_fieldProducers (id : NodeId) (code : String) (field : Field) :
    (Answer.fieldProducers ctx id code field).sources =
      ((ctx.find? .post code).toList ++ field.formatters ++ field.defaultValue.toList).map
        (fun value => (value, .dataFlow)) ++
      (ctx.scopes.lastLoadFrom? ctx.step).toList.map fun transition => (transition, .effect) := by
  simp only [Answer.fieldProducers, Draft.sources_append, sources_formatters, sources_load,
    List.map_append]
  cases ctx.find? .post code <;> cases field.defaultValue <;> rfl

end WiringContext

namespace WiredForm

variable (ctx : WiringContext NodeStore)

theorem toOption_originField (id : NodeId) (definition : Pseudo) :
    (Answer.originField ctx id definition).toOption = originField? ctx.nodes definition := by
  rw [Answer.originField, originField?]
  cases definition.origin with
  | none => rfl
  | some origin =>
    have looked : node? ctx.nodes origin = ctx.nodes.node? origin := rfl
    dsimp only
    rw [Option.bind_some, looked]
    cases ctx.nodes.node? origin with
    | none => rfl
    | some node =>
      dsimp only
      rw [Option.bind_some]
      cases node.kind.field? <;> rfl

theorem toOption_definitionOf (id : NodeId) : (Item.definitionOf ctx id).toOption =
    (ctx.nodes.node? id).bind fun node => node.kind.collection? := by
  have looked : node? ctx.nodes id = ctx.nodes.node? id := rfl
  rw [Item.definitionOf, WiringContext.get, NodeSource.get, looked]
  cases ctx.nodes.node? id with
  | none => rfl
  | some node =>
    rw [Option.bind_some]
    change Except.toOption (match node.kind.collection? with | some _ => _ | none => _) = _
    cases node.kind.collection? <;> rfl

/-- The collection of an item is found in two steps. -/
theorem toOption_collectionOf (id : NodeId) (definition : Pseudo) :
    ((Item.collectionOf ctx id definition).toOption.bind fun found =>
      (Item.definitionOf ctx found.1).toOption) = originCollection? ctx.nodes definition := by
  simp only [toOption_definitionOf]
  rw [Item.collectionOf, originCollection?]
  cases definition.origin with
  | none => rfl
  | some origin =>
    have looked : node? ctx.nodes origin = ctx.nodes.node? origin := rfl
    dsimp only
    rw [Option.bind_some, looked]
    cases found : ctx.nodes.node? origin with
    | none => rfl
    | some node =>
      dsimp only
      rw [Option.bind_some]
      cases kind : node.kind <;> simp [Except.toOption, found, kind, NodeKind.collection?]

/-- A pseudo-node asks for what feeds it. -/
theorem sources_producers (id : NodeId) (definition : Pseudo)
    (here : definition.scope = ctx.step) : (ctx.producers id definition).sources =
      suppliers ctx.nodes (ctx.scopes.lastLoadFrom? ctx.step) definition := by
  obtain ⟨⟨kind, scope, key⟩, origin⟩ := definition
  dsimp only at here
  subst here
  cases kind with
  | post | query | params => rfl
  | data | answerRemote => exact ctx.sources_load _ _ _
  | answerLocal =>
    change (Answer.localProducers ctx id _).sources = _
    rw [Answer.localProducers, Draft.sources_after, toOption_originField]
    simp only [suppliers]
    cases originField? ctx.nodes ⟨⟨.answerLocal, ctx.step, key⟩, origin⟩ with
    | none => rfl
    | some field => exact ctx.sources_fieldProducers id key field
  | item =>
    change (Item.producer ctx id _).sources = _
    simp only [suppliers]
    rw [Item.producer, Draft.sources_after, ← toOption_collectionOf ctx id]
    cases (Item.collectionOf ctx id ⟨⟨.item, ctx.step, key⟩, origin⟩).toOption with
    | none => rfl
    | some found =>
      obtain ⟨collection, index⟩ := found
      rw [Option.bind_some]
      change Draft.sources (Draft.after (Item.definitionOf ctx collection) _) = _
      rw [Draft.sources_after]
      cases (Item.definitionOf ctx collection).toOption with
      | none => rfl
      | some definition => cases given : definition.source <;> simp [given] <;> rfl

/-! ## The edges of a form -/

namespace Registered

variable {form : Form} {config : WiringConfig} {wired : WiredForm}
  (registered : Registered form config wired) (coherent : form.nodes.Coherent)
include registered coherent

/-- The steps of the wired form are those that are wired. -/
theorem mem_steps_iff {step : NodeId} : step ∈ wired.scopes.steps ↔
    ∃ node ∈ wired.form.nodes.nodes, node.kind.isStep = true ∧ node.id = step := by
  rw [ScopeTree.mem_steps_build registered.scopes]
  constructor
  · rintro ⟨node, known, isStep, rfl⟩
    have found := (registered.grows coherent).node?_of_found (NodeStore.node?_of_mem coherent known)
    exact ⟨node, List.mem_of_find?_eq_some found, isStep, rfl⟩
  · rintro ⟨node, member, isStep, rfl⟩
    rcases registered.mem_or_pseudo member with known | ⟨definition, isPseudo, _⟩
    · exact ⟨node, known, isStep, rfl⟩
    · rw [isPseudo] at isStep
      cases isStep

/-- The load-transition that serves a step of the form. -/
theorem lastLoadFrom?_eq (acyclic : Acyclic form.nodes) {step : NodeId}
    (listed : step ∈ wired.scopes.steps) :
    wired.scopes.lastLoadFrom? step = ScopeTree.loadAbove? form.nodes step := by
  obtain ⟨node, known, isStep, rfl⟩ := (ScopeTree.mem_steps_build registered.scopes).1 listed
  exact ScopeTree.lastLoadFrom?_eq coherent.nodup registered.scopes acyclic known
    (by rw [NodeKind.isScope, isStep, Bool.or_true])

section

variable {source : Node} {definition : Pseudo} (member : source ∈ wired.form.nodes.nodes)
  (isPseudo : source.kind = .pseudo definition)
include member isPseudo

theorem definition?_eq (step : NodeId) :
    (context wired config step).definition? source.id = some definition := by
  have found : node? wired.form.nodes source.id = some source :=
    NodeStore.node?_of_mem (registered.coherent coherent) member
  change (node? wired.form.nodes source.id).bind _ = _
  rw [found, Option.bind_some, isPseudo]
  rfl

/-- An edge into a pseudo-node is one that feeds it, and the pseudo-node belongs to a step. -/
theorem edge_into_pseudo {edge : Edge} (into : edge ∈ wired.graph.edgesTo source.id) :
    definition.scope ∈ wired.scopes.steps ∧
      (edge.producer, edge.role) ∈ suppliers wired.form.nodes
        (wired.scopes.lastLoadFrom? definition.scope) definition := by
  obtain ⟨edgeMember, consumer⟩ := List.mem_filter.1 into
  have consumer : edge.consumer = source.id := of_decide_eq_true consumer
  obtain ⟨step, listed, c, asked, same, _⟩ := registered.exists_asked edgeMember
  obtain ⟨producerSame, consumerSame, roleSame⟩ := Triple.mk.inj same
  have known := registered.definition?_eq coherent member isPseudo step
  rw [← consumer, ← consumerSame] at known
  have noReference := WiringContext.expression?_of_definition? known
  cases WiringContext.asked_of_mem (registered.coherent coherent) asked with
  | fills id other held filled =>
    have leads : c.consumer = id := (context wired config step).producers_into id other c filled
    obtain ⟨isOne, here⟩ := held
    rw [leads, isOne] at known
    cases known
    rw [← producerSame, ← roleSame, here]
    refine ⟨listed, ?_⟩
    have supplied := Draft.mem_sources_iff.2 ⟨c, filled, rfl, rfl⟩
    rw [sources_producers _ id definition here] at supplied
    exact supplied
  | reads other held found role metadata =>
    obtain ⟨expression, isOne, _⟩ := found.asks
    cases noReference.symm.trans (WiringContext.mem_selecting_iff.1 isOne).2.1
  | placed space expression unkeyed listed found within => cases noReference.symm.trans found

/-- Whatever feeds a pseudo-node of a step is connected to it. -/
theorem exists_edge_of_supplier (listed : definition.scope ∈ wired.scopes.steps)
    {producer : NodeId} {role : Role}
    (supplies : (producer, role) ∈ suppliers wired.form.nodes
      (wired.scopes.lastLoadFrom? definition.scope) definition) :
    ∃ edge ∈ wired.graph.edgesTo source.id, edge.producer = producer ∧ edge.role = role := by
  have held : (context wired config definition.scope).Holds source.id definition :=
    ⟨registered.definition?_eq coherent member isPseudo _, rfl⟩
  have supplies : (producer, role) ∈
      ((context wired config definition.scope).producers source.id definition).sources := by
    rw [sources_producers _ source.id definition rfl]
    exact supplies
  obtain ⟨c, filled, rfl, rfl⟩ := Draft.mem_sources_iff.1 supplies
  have serves := WiringContext.serves_of_silent (registered.coherent coherent) held
    (registered.silent listed)
  obtain ⟨edge, edgeMember, same⟩ := registered.exists_edge listed (serves.fills _ filled)
  obtain ⟨producerSame, consumerSame, roleSame⟩ := Triple.mk.inj same
  have leads := (context wired config definition.scope).producers_into source.id definition c filled
  exact ⟨edge, List.mem_filter.2 ⟨edgeMember, by simp [consumerSame, leads]⟩, producerSame,
    roleSame⟩

/-- What a pseudo-node of a step asks for has no failure. -/
theorem producers_succeed (listed : definition.scope ∈ wired.scopes.steps) :
    ((context wired config definition.scope).producers source.id definition).failure? = none := by
  have serves := WiringContext.serves_of_silent (registered.coherent coherent)
    ⟨registered.definition?_eq coherent member isPseudo _, rfl⟩ (registered.silent listed)
  refine Draft.failure?_eq_none_iff.2 fun error inside => ?_
  exact Draft.failure?_eq_none_iff.1 (registered.silent listed) error (serves.fills _ inside)

/-- A local answer of a step was made for a field. -/
theorem exists_originField (listed : definition.scope ∈ wired.scopes.steps)
    (isLocal : definition.kind = .answerLocal) :
    ∃ field, originField? wired.form.nodes definition = some field := by
  have silent := registered.producers_succeed coherent member isPseudo listed
  simp only [WiringContext.producers, isLocal] at silent
  obtain ⟨field, found⟩ := Draft.exists_of_after silent
  have same := toOption_originField (context wired config definition.scope) source.id definition
  rw [found] at same
  exact ⟨field, same.symm⟩

/-- An item of a step was made for a collection. -/
theorem exists_originCollection (listed : definition.scope ∈ wired.scopes.steps)
    (isItem : definition.kind = .item) :
    ∃ collection, originCollection? wired.form.nodes definition = some collection := by
  have silent := registered.producers_succeed coherent member isPseudo listed
  simp only [WiringContext.producers, isItem] at silent
  obtain ⟨⟨collection, index⟩, one⟩ := Draft.exists_of_after silent
  rw [Item.producer, one] at silent
  have inner : (Draft.after (Item.definitionOf (context wired config definition.scope) collection)
    _).failure? = none := silent
  obtain ⟨found, other⟩ := Draft.exists_of_after inner
  refine ⟨found, (toOption_collectionOf (context wired config definition.scope) source.id
    definition).symm.trans ?_⟩
  rw [one]
  change (Item.definitionOf (context wired config definition.scope) collection).toOption = _
  rw [other]
  rfl

end

/-- Every edge leads into a pseudo-node or into a reference. -/
theorem consumer_of_edge {edge : Edge} (member : edge ∈ wired.graph.edges) :
    ∃ node ∈ wired.form.nodes.nodes, node.id = edge.consumer ∧
      ((∃ definition, node.kind = .pseudo definition) ∨
        ∃ expression, node.kind = .reference expression) := by
  have made := registered.coherent coherent
  obtain ⟨step, _, c, asked, same, _⟩ := registered.exists_asked member
  rw [← (Triple.mk.inj same).2.1]
  have isReference : ∀ expression,
      (context wired config step).expression? c.consumer = some expression →
      ∃ node ∈ wired.form.nodes.nodes, node.id = c.consumer ∧
        ((∃ definition, node.kind = .pseudo definition) ∨
          ∃ expression, node.kind = .reference expression) := by
    intro expression known
    obtain ⟨node, found, read⟩ := Option.bind_eq_some_iff.1 known
    obtain ⟨there, named⟩ := (NodeStore.node?_eq_some_iff made).1 found
    exact ⟨node, there, named, .inr ⟨expression, NodeKind.reference?_eq_some_iff.1 read⟩⟩
  cases WiringContext.asked_of_mem made asked with
  | fills id definition held filled =>
    have leads : c.consumer = id :=
      (context wired config step).producers_into id definition c filled
    obtain ⟨node, found, read⟩ := Option.bind_eq_some_iff.1 held.1
    obtain ⟨there, named⟩ := (NodeStore.node?_eq_some_iff made).1 found
    exact ⟨node, there, named.trans leads.symm,
      .inl ⟨definition, NodeKind.pseudo?_eq_some_iff.1 read⟩⟩
  | reads definition held found role metadata =>
    obtain ⟨expression, isOne, _⟩ := found.asks
    exact isReference expression (WiringContext.mem_selecting_iff.1 isOne).2.1
  | placed space expression unkeyed listed found within => exact isReference expression found

end Registered

/-- **The edges into a pseudo-node of a step are those from what feeds it, and no others**: a
local answer is fed by the submitted value, the formatters and the default value of its field and
by the load-transition that serves the step, a remote answer and data by that transition only, an
item by the source of its collection. A pseudo-node of no step has no edges, and every edge of the
form leads into a pseudo-node or into a reference. -/
theorem edgesTo_pseudo {form : Form} {config : WiringConfig} {wired : WiredForm}
    (built : form.Built) (acyclic : Acyclic form.nodes) (wiring : wire form config = .ok wired) :
    (∀ source ∈ wired.form.nodes.nodes, ∀ definition, source.kind = .pseudo definition →
      ((∃ step ∈ wired.form.nodes.nodes, step.kind.isStep = true ∧ step.id = definition.scope) →
        (definition.kind = .answerLocal →
          ∃ field, originField? wired.form.nodes definition = some field) ∧
        (definition.kind = .item →
          ∃ collection, originCollection? wired.form.nodes definition = some collection) ∧
        ∀ producer role,
          (∃ edge ∈ wired.graph.edgesTo source.id,
            edge.producer = producer ∧ edge.role = role) ↔
          (producer, role) ∈ suppliers wired.form.nodes
            (ScopeTree.loadAbove? form.nodes definition.scope) definition) ∧
      ((∀ step ∈ wired.form.nodes.nodes, step.id = definition.scope → step.kind.isStep = false) →
        wired.graph.edgesTo source.id = [])) ∧
    ∀ edge ∈ wired.graph.edges, ∃ node ∈ wired.form.nodes.nodes, node.id = edge.consumer ∧
      ((∃ definition, node.kind = .pseudo definition) ∨
        ∃ expression, node.kind = .reference expression) := by
  have registered := wire_spec wiring
  have coherent := built.coherent
  refine ⟨fun source member definition isPseudo => ⟨fun inStep => ?_, fun outside => ?_⟩,
    fun edge member => registered.consumer_of_edge coherent member⟩
  · have listed := (registered.mem_steps_iff coherent).2 inStep
    refine ⟨registered.exists_originField coherent member isPseudo listed,
      registered.exists_originCollection coherent member isPseudo listed, fun producer role => ?_⟩
    rw [← registered.lastLoadFrom?_eq coherent acyclic listed]
    constructor
    · rintro ⟨edge, into, rfl, rfl⟩
      exact (registered.edge_into_pseudo coherent member isPseudo into).2
    · exact registered.exists_edge_of_supplier coherent member isPseudo listed
  · refine List.eq_nil_iff_forall_not_mem.2 fun edge into => ?_
    have listed := (registered.edge_into_pseudo coherent member isPseudo into).1
    obtain ⟨step, there, isStep, named⟩ := (registered.mem_steps_iff coherent).1 listed
    cases (outside step there named).symm.trans isStep

/-! ### A load-transition of an outer journey -/

namespace Inherited

/-- The journey around the journey of the step declares the load-transition. -/
def form : Form :=
  ⟨"survey", {
    nodes := [
      ⟨⟨0⟩, none, .journey "survey"⟩,
      ⟨⟨1⟩, some ⟨0⟩, .transition ⟨.load, []⟩⟩,
      ⟨⟨2⟩, some ⟨0⟩, .journey "contact"⟩,
      ⟨⟨3⟩, some ⟨2⟩, .step "/name"⟩,
      ⟨⟨4⟩, some ⟨3⟩, .field ⟨"name", "text", [⟨5⟩], none⟩⟩,
      ⟨⟨5⟩, some ⟨4⟩, .function "trim" []⟩]
    containment := [(⟨0⟩, ⟨1⟩), (⟨0⟩, ⟨2⟩), (⟨2⟩, ⟨3⟩), (⟨3⟩, ⟨4⟩), (⟨4⟩, ⟨5⟩)]
    references := []
    identities := []
    nextId := 6 }⟩

theorem built : form.Built := by
  have outer := Form.Built.addJourney (.empty "survey")
    (rfl : Form.addJourney _ none "survey" = .ok (_, ⟨0⟩))
  have load := outer.addTransition (rfl : Form.addTransition _ ⟨0⟩ .load = .ok (_, ⟨1⟩))
  have inner := load.addJourney (rfl : Form.addJourney _ (some ⟨0⟩) "contact" = .ok (_, ⟨2⟩))
  have step := inner.addStep (rfl : Form.addStep _ ⟨2⟩ "/name" = .ok (_, ⟨3⟩))
  have field := step.addField (rfl : Form.addField _ ⟨3⟩ "name" "text" = .ok (_, ⟨4⟩))
  exact field.addFormatter (rfl : Form.addFormatter _ ⟨4⟩ "trim" = .ok (_, ⟨5⟩))

theorem acyclic : Acyclic form.nodes :=
  NodeStore.acyclic_of_descends NodeId.val (by decide)

def wired : WiredForm := (wire form .default).toOption.getD default

/-- The answer is fed by the submitted value and the formatter, and by the load-transition. -/
theorem edgesTo_answer :
    (∃ edge ∈ wired.graph.edgesTo ⟨7⟩, edge.producer = ⟨6⟩ ∧ edge.role = .dataFlow) ∧
    (∃ edge ∈ wired.graph.edgesTo ⟨7⟩, edge.producer = ⟨5⟩ ∧ edge.role = .dataFlow) ∧
    ∃ edge ∈ wired.graph.edgesTo ⟨7⟩, edge.producer = ⟨1⟩ ∧ edge.role = .effect := by
  have supplied : ∀ producer role,
      (∃ edge ∈ wired.graph.edgesTo ⟨7⟩, edge.producer = producer ∧ edge.role = role) ↔
        (producer, role) ∈ [(⟨6⟩, .dataFlow), (⟨5⟩, .dataFlow), (⟨1⟩, .effect)] :=
    ((((edgesTo_pseudo built acyclic (rfl : wire form .default = .ok wired)).1 _
      (List.mem_of_find?_eq_some (rfl : wired.form.nodes.node? ⟨7⟩ = some _)) _ rfl).1
        ⟨_, List.mem_of_find?_eq_some (rfl : wired.form.nodes.node? ⟨3⟩ = some _), rfl, rfl⟩).2).2
  exact ⟨(supplied _ _).2 (by simp), (supplied _ _).2 (by simp), (supplied _ _).2 (by simp)⟩

end Inherited

end WiredForm

end FormFlow
