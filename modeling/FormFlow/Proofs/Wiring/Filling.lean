import FormFlow.Proofs.Request.Replay
import FormFlow.Proofs.Wiring.Alike
import FormFlow.Proofs.Wiring.Producers

/-!
# What the edges into a pseudo-node carry

A pseudo-node gets its producers in the pass over its own step and nowhere else, so the edges of a
wired form into it are those that its producers ask for, each with the metadata that is asked for
first (`WiredForm.Registered.metadata?_pseudo`). For a local answer these are the inputs of the
field that it was made for (`WiredForm.Registered.connected_answer`).
-/

set_option autoImplicit false

namespace FormFlow

open NodeSource

/-! ## What a local answer asks for -/

section

variable {σ : Type} [NodeSource σ] {ctx : WiringContext σ} {id : NodeId} {definition : Pseudo}
  {field : Field}

/-- A local answer was made for a field that is there. -/
theorem Answer.originField_eq_ok_iff : originField ctx id definition = .ok field ↔
    ∃ origin node, definition.origin = some origin ∧ node? ctx.nodes origin = some node ∧
      node.kind = .field field := by
  rw [originField]
  cases definition.origin with
  | none => simp
  | some origin =>
    cases found : node? ctx.nodes origin with
    | none => simp [found]
    | some node =>
      cases kind : node.kind.field? with
      | none => simp [found, kind, ← NodeKind.field?_eq_some_iff]
      | some other => simp [found, kind, ← NodeKind.field?_eq_some_iff]

/-- An answer that has everything that it asks for is connected with the inputs of its field. -/
theorem AnswerInputs.Connected.ofFilled {graph : DependencyGraph}
    (isLocal : definition.kind = .answerLocal)
    (made : Answer.originField ctx id definition = .ok field)
    (filled : ∀ triple : Triple, triple.consumer = id →
      graph.metadata? triple = (ctx.producers id definition).offer? triple) :
    (Answer.inputs ctx definition.key field).Connected graph id definition.key := by
  have asks : ctx.producers id definition =
      Answer.fieldProducers ctx id definition.key field := by
    rw [WiringContext.producers, isLocal]
    dsimp only
    rw [Answer.localProducers, made]
    rfl
  intro producer role
  rw [filled ⟨producer, id, role⟩ rfl, asks, ctx.offer?_fieldProducers]

end

/-! ## The edges of a wired form -/

namespace WiredForm.Registered

variable {form : Form} {config : WiringConfig} {wired : WiredForm}
  (registered : Registered form config wired) (coherent : form.nodes.Coherent)
include registered coherent

/-- No edge of a form leads to a node that it does not have. -/
theorem edgesTo_of_high {id : NodeId} (high : wired.form.nodes.nextId ≤ id.val) :
    wired.graph.edgesTo id = [] := by
  refine List.filter_eq_nil_iff.2 fun edge member same => ?_
  obtain ⟨node, inside, leads, _⟩ := registered.consumer_of_edge coherent member
  have low := (registered.coherent coherent).below node inside
  rw [leads, of_decide_eq_true same] at low
  omega

variable {source : Node} {definition : Pseudo} (member : source ∈ wired.form.nodes.nodes)
  (isPseudo : source.kind = .pseudo definition)
include member isPseudo

/-- An edge into a pseudo-node carries what the pseudo-node asks for first. -/
theorem offer?_of_into {edge : Edge} (into : edge ∈ wired.graph.edgesTo source.id) :
    ((context wired config definition.scope).producers source.id definition).offer? edge.triple =
      some edge.metadata := by
  obtain ⟨known, consumer⟩ := List.mem_filter.1 into
  have consumer : edge.consumer = source.id := of_decide_eq_true consumer
  obtain ⟨step, _, carried⟩ :=
    Form.exists_carried coherent registered.scopes (registered.offer?_of_edge known)
  rw [registered.context_eq] at carried
  have held := registered.definition?_eq coherent member isPseudo step
  rw [← consumer] at held
  cases carried with
  | fills other holds filled =>
    obtain ⟨same, here⟩ := holds
    cases held.symm.trans same
    rw [← consumer, here]
    exact filled
  | reads _ expression _ _ read _ _ =>
    cases (WiringContext.expression?_of_definition? held).symm.trans read

/-- **The edges into a pseudo-node of a step carry what the pseudo-node asks for.** -/
theorem metadata?_pseudo (listed : definition.scope ∈ wired.scopes.steps) {triple : Triple}
    (into : triple.consumer = source.id) : wired.graph.metadata? triple =
      ((context wired config definition.scope).producers source.id definition).offer? triple := by
  have carries : ∀ edge ∈ wired.graph.edges, edge.triple = triple →
      ((context wired config definition.scope).producers source.id definition).offer? triple =
        some edge.metadata := by
    rintro edge known rfl
    exact registered.offer?_of_into coherent member isPseudo
      (List.mem_filter.2 ⟨known, decide_eq_true into⟩)
  refine Option.ext fun metadata => ⟨fun found => ?_, fun offered => ?_⟩
  · obtain ⟨edge, known, same, rfl⟩ := DependencyGraph.exists_of_metadata? found
    exact carries edge known same
  · obtain ⟨c, asked, same, _⟩ := Draft.exists_of_offer? offered
    have serves := WiringContext.serves_of_silent (registered.coherent coherent)
      ⟨registered.definition?_eq coherent member isPseudo _, rfl⟩ (registered.silent listed)
    obtain ⟨edge, known, again⟩ := registered.exists_edge listed (serves.fills _ asked)
    have found := DependencyGraph.metadata?_of_mem registered.nodup_triples known
    rw [← offered, carries edge known (again.trans same), ← again.trans same, found]

/-- A local answer of a step is connected with the inputs of the field that it was made for. -/
theorem connected_answer (listed : definition.scope ∈ wired.scopes.steps)
    (isLocal : definition.kind = .answerLocal) :
    ∃ origin outer field, definition.origin = some origin ∧
      wired.form.nodes.node? origin = some outer ∧ outer.kind = .field field ∧
      (Answer.inputs (context wired config definition.scope) definition.key field).Connected
        wired.graph source.id definition.key := by
  have silent := registered.producers_succeed coherent member isPseudo listed
  simp only [WiringContext.producers, isLocal] at silent
  obtain ⟨field, made⟩ := Draft.exists_of_after silent
  obtain ⟨origin, outer, given, found, isField⟩ := Answer.originField_eq_ok_iff.1 made
  exact ⟨origin, outer, field, given, found, isField, .ofFilled isLocal made fun _ =>
    registered.metadata?_pseudo coherent member isPseudo listed⟩

end WiredForm.Registered

end FormFlow
