import Mathlib
import FormFlow.Proofs.Request.Cloning
import FormFlow.Proofs.Wiring.Filling

/-!
# The local answers of a request

An answer of the form keeps the producers that wiring gave it. An answer that a call makes belongs
to a field, the submitted value of the field is there with it
(`RequestScope.Assembled.answer_made`), and the call that makes it connects it with what the field
has. Later calls add nothing to either: edges lead into new nodes only. So every answer that a
request made has what its field has, after any calls (`RequestScope.Reachable.provided`).

The producers of an answer are then replayed as its inputs are, in the order of precedence
(`RequestScope.answerProducers_replayed`). Two things are not replayed: a value at a second place,
and a submitted value that came after an answer of the form (`RequestScope.Twice.replayed_once`).
-/

set_option autoImplicit false

namespace FormFlow

open NodeSource

/-- What is found under an identity is a pseudo-node that has it. -/
theorem NodeStore.Coherent.exists_pseudo {store : NodeStore} (coherent : store.Coherent)
    {identity : PseudoKey} {id : NodeId} (found : store.pseudo? identity = some id) :
    ∃ node ∈ store.nodes, node.id = id ∧ store.node? id = some node ∧
      ∃ origin, node.kind = .pseudo ⟨identity, origin⟩ := by
  obtain ⟨node, known, identified⟩ := (NodeStore.pseudo?_eq_some_iff coherent).1 found
  obtain ⟨member, same⟩ := (NodeStore.node?_eq_some_iff coherent).1 known
  obtain ⟨⟨_, origin⟩, isPseudo, rfl⟩ := Option.map_eq_some_iff.1 identified
  exact ⟨node, member, same, known, origin, NodeKind.pseudo?_eq_some_iff.1 isPseudo⟩

/-- Copying keeps what a pseudo-node is known by. -/
theorem Renaming.pseudo?_apply (scheme : Renaming) (direct : Bool) (kind : NodeKind)
    (place : NodeId → NodeId) :
    (scheme.apply direct (kind.remapIds place)).pseudo?.map Pseudo.toPseudoKey =
      kind.pseudo?.map Pseudo.toPseudoKey := by
  cases kind with
  | field | collection => cases direct <;> rfl
  | reference expression =>
    rw [NodeKind.remapIds, apply]
    split <;> rfl
  | _ => rfl

namespace RequestScope

/-! ## What an iteration makes -/

namespace Assembled

variable {wired : WiredForm} {overlay after : Overlay} {template : Template} {scheme : Renaming}
  {index : Nat} {complete : NodeStore} {state : Synthesis.State Layered}
  (made : Assembled wired overlay after template scheme index complete state)
  (coherent : wired.form.nodes.Coherent) (anchored : wired.form.nodes.Anchored overlay.nodes)
include made coherent anchored

/-- A pseudo-node that was copied is one of the form under another identifier. -/
theorem hasPseudo_of_new {node : Node}
    (member : node ∈ newNodes template scheme index overlay.nodes) {definition : Pseudo}
    (isPseudo : node.kind = .pseudo definition) :
    HasPseudo wired.form.nodes definition.toPseudoKey := by
  rcases eq_or_copyFor member with rfl | ⟨entry, known, rfl⟩
  · cases isPseudo
  have identity : entry.node.identity? = some definition.toPseudoKey := by
    rw [Node.identity?, ← scheme.pseudo?_apply entry.direct entry.node.kind
      (copyOf (copyIds template.nodes
        (overlay.nodes.push (iterationNode template index overlay.nodes)).nextId))]
    exact congrArg (fun kind => kind.pseudo?.map Pseudo.toPseudoKey) isPseudo
  rcases Layered.node?_eq_some_iff.1 (made.iterable.found coherent anchored known) with
    own | ⟨_, lower⟩
  · -- The copy and what it copies would have one identity in one store.
    have original := (NodeStore.pseudo?_eq_some_iff made.anchored.coherent).2
      ⟨entry.node, made.grows.node?_of_found own, identity⟩
    have copied := (NodeStore.pseudo?_eq_some_iff made.anchored.coherent).2
      ⟨_, NodeStore.node?_of_mem made.anchored.coherent
        (made.nodes ▸ List.mem_append_right _ member), congrArg (fun kind =>
          kind.pseudo?.map Pseudo.toPseudoKey) isPseudo⟩
    have same := Option.some_inj.1 (original.symm.trans copied)
    have low := NodeStore.id_lt_nextId anchored.coherent own
    have inside : copyFor template scheme index overlay.nodes entry ∈
        copiesOf template scheme index overlay.nodes := List.mem_map_of_mem known
    have high := copies_high inside
    rw [← same] at high
    omega
  · exact ⟨entry.node.id, (NodeStore.pseudo?_eq_some_iff coherent).2 ⟨_, lower, identity⟩⟩

/-- The pseudo-nodes that are made are those that some nodes want. -/
theorem exists_wants : ∃ isLocal fields references repeated,
    (∀ node ∈ fields, node? (⟨wired.form.nodes, complete⟩ : Layered) node.id = some node) ∧
      state = (Synthesis.wants template.step isLocal fields references repeated).foldl
        Synthesis.ofWant ⟨⟨wired.form.nodes, complete⟩, []⟩ := by
  have found : ∀ test : NodeKind → Bool,
      ∀ node ∈ (newNodes template scheme index overlay.nodes).filter (fun node =>
        test node.kind && !awaitsIteration (⟨wired.form.nodes, complete⟩ : Layered) node),
      node? (⟨wired.form.nodes, complete⟩ : Layered) node.id = some node :=
    fun _ _ member => made.node?_of_new (List.mem_of_mem_filter member)
  obtain ⟨isLocal, _, run⟩ := Synthesis.run_eq_foldl (Layered.locates coherent template.step)
    (made.has_step coherent anchored) (found NodeKind.isField) (found NodeKind.isReference)
    (found NodeKind.isRepeated)
  exact ⟨isLocal, _, _, _, found NodeKind.isField, made.run_eq.symm.trans run⟩

/-- A local answer that is made belongs to a field, and the submitted value of the field is there
with it. -/
theorem answer_made {node : Node} (member : node ∈ after.nodes.nodes) {definition : Pseudo}
    (isPseudo : node.kind = .pseudo definition) (isLocal : definition.kind = .answerLocal)
    (absent : ¬HasPseudo wired.form.nodes definition.toPseudoKey) :
    node ∈ overlay.nodes.nodes ∨ node.id ∈ state.created ∧ ∃ outer field,
      definition.origin = some outer.id ∧
      node? (layersOver wired after) outer.id = some outer ∧ outer.kind = .field field ∧
      HasPseudo (layersOver wired after) ⟨.post, definition.scope, definition.key⟩ := by
  obtain ⟨⟨kind, step, code⟩, origin⟩ := definition
  obtain rfl : kind = .answerLocal := isLocal
  have good := made.has_step coherent anchored
  obtain ⟨known, fields, references, repeated, found, run⟩ := made.exists_wants coherent anchored
  have within : ∀ entry ∈ Synthesis.wants template.step known fields references repeated,
      entry.1.scope = template.step := fun _ => Synthesis.scope_of_wants
  obtain ⟨_, shown, has⟩ := @Synthesis.foldl_wants _ _ _ _ (Layered.locates coherent template.step)
    _ ⟨⟨wired.form.nodes, complete⟩, []⟩ within good
  rw [← run] at shown has
  rw [made.store] at member
  rw [made.layers_eq coherent anchored]
  rcases Synthesis.foldl_origins coherent good within node (run ▸ member) with
    old | ⟨_, isKnown, fresh, wanted⟩
  · change node ∈ complete.nodes at old
    rw [made.nodes] at old
    exact .inl ((List.mem_append.1 old).resolve_right fun new =>
      absent (made.hasPseudo_of_new coherent anchored new isPseudo))
  · cases isPseudo.symm.trans isKnown
    obtain ⟨front, rest, split, -⟩ := List.lookup_eq_some_iff.1 wanted
    have asked : (⟨.answerLocal, step, code⟩, origin) ∈
        Synthesis.wants template.step known fields references repeated := split ▸ by simp
    obtain ⟨outer, wants, field, isField, rfl, rfl⟩ := Synthesis.exists_field_of_wants asked
    obtain rfl : step = template.step := within _ asked
    refine .inr ⟨?_, outer, field, rfl, shown.node _ _ (found outer wants), isField, ?_⟩
    · obtain ⟨new, added⟩ := made.exists_added
      rw [added.nodes] at member
      rw [added.created]
      refine List.mem_map_of_mem ((List.mem_append.1 member).resolve_left fun old => fresh ?_)
      refine Layered.hasPseudo_iff.2 (.inr ?_)
      exact (NodeStore.hasPseudo_iff made.anchored.coherent).2
        ⟨node, old, by rw [Node.identity?, isPseudo]; rfl⟩
    · have posted : (⟨.post, template.step, field.code⟩, some outer.id) ∈
          Synthesis.wants template.step known fields references repeated :=
        Synthesis.mem_wants.2 (.inl ⟨outer, wants, Synthesis.mem_fieldWants.2
          ⟨field, isField, .inl rfl⟩⟩)
      exact (has _).2 (.inr (List.mem_map_of_mem posted))

end Assembled

/-! ## What a request has for its answers -/

theorem inputs_context (request : RequestScope) (step : NodeId) (code : String) (field : Field) :
    Answer.inputs (request.context step) code field =
      ⟨request.wired.scopes.lastLoadFrom? step, field.defaultValue,
        pseudo? request.layers ⟨.post, step, code⟩, field.formatters⟩ := rfl

/-- A local answer of a request belongs to a field, the submitted value of which is there, and the
edges into it connect what the field has. -/
structure Answered (request : RequestScope) (id : NodeId) (definition : Pseudo) (outer : Node)
    (field : Field) : Prop where
  origin : definition.origin = some outer.id
  found : node? request.layers outer.id = some outer
  isField : outer.kind = .field field
  post : HasPseudo request.layers ⟨.post, definition.scope, definition.key⟩
  connected : (Answer.inputs (request.context definition.scope) definition.key field).Connected
    request.overlay.graph id definition.key

/-- The local answers that a request made for itself have what their fields have. -/
def Provided (request : RequestScope) : Prop :=
  ∀ node ∈ request.overlay.nodes.nodes, ∀ definition, node.kind = .pseudo definition →
    definition.kind = .answerLocal → ¬HasPseudo request.wired.form.nodes definition.toPseudoKey →
      ∃ outer field, Answered request node.id definition outer field

/-- There is no edge of a request into a node that it does not have yet. -/
theorem Stacked.metadata?_of_high {request : RequestScope} (stacked : Stacked request)
    {triple : Triple} (high : request.overlay.nodes.nextId ≤ triple.consumer.val) :
    request.overlay.graph.metadata? triple = none := by
  refine Option.eq_none_iff_forall_ne_some.2 fun metadata found => ?_
  obtain ⟨edge, member, rfl, _⟩ := DependencyGraph.exists_of_metadata? found
  obtain ⟨node, inside, leads⟩ := List.mem_map.1 (stacked.consumers edge member)
  have low := stacked.anchored.coherent.below node inside
  rw [leads] at low
  exact Nat.lt_irrefl _ (Nat.lt_of_lt_of_le low high)

theorem Stacked.edgesTo_of_low {request : RequestScope} (stacked : Stacked request) {id : NodeId}
    (low : id.val < request.wired.form.nodes.nextId) : request.overlay.graph.edgesTo id = [] := by
  refine List.filter_eq_nil_iff.2 fun edge member same => ?_
  obtain ⟨node, inside, leads⟩ := List.mem_map.1 (stacked.consumers edge member)
  have high := stacked.anchored.high node inside
  rw [leads, of_decide_eq_true same] at high
  omega

/-- A call adds no edge into a node that was there. -/
theorem Isolated.metadata?_eq {before after : RequestScope} {made : List Node} {added : List Edge}
    (isolated : Isolated before after made added) {triple : Triple}
    (old : triple.consumer.val < before.overlay.nodes.nextId) :
    after.overlay.graph.metadata? triple = before.overlay.graph.metadata? triple := by
  have elsewhere : (added.find? fun edge => edge.triple = triple) = none := by
    refine List.find?_eq_none.2 fun edge member same => ?_
    obtain ⟨node, new, leads⟩ := List.mem_map.1 (isolated.consumers edge member)
    have high := isolated.nodesAbove node new
    rw [leads, show edge.consumer = triple.consumer from
      congrArg Triple.consumer (of_decide_eq_true same)] at high
    omega
  rw [DependencyGraph.metadata?, isolated.edges, List.find?_append, elsewhere, Option.or_none]
  rfl

/-- What an answer has stays. -/
theorem Answered.keep {before after : RequestScope} {made : List Node} {added : List Edge}
    {node outer : Node} {definition : Pseudo} {field : Field}
    (answered : Answered before node.id definition outer field)
    (isolated : Isolated before after made added) (stacked : Stacked before)
    (member : node ∈ before.overlay.nodes.nodes) :
    Answered after node.id definition outer field := by
  have low := stacked.anchored.coherent.below node member
  obtain ⟨post, posted⟩ := answered.post
  have later := isolated.shown.pseudo _ _ posted
  have inputs : Answer.inputs (after.context definition.scope) definition.key field =
      Answer.inputs (before.context definition.scope) definition.key field := by
    have scopes : after.wired.scopes = before.wired.scopes := by rw [isolated.wired]
    have same : pseudo? after.layers ⟨.post, definition.scope, definition.key⟩ =
        pseudo? before.layers ⟨.post, definition.scope, definition.key⟩ := later.trans posted.symm
    rw [inputs_context, inputs_context, scopes, same]
  refine
    { origin := answered.origin
      found := isolated.shown.node _ _ answered.found
      isField := answered.isField
      post := ⟨post, later⟩
      connected := fun producer role => ?_ }
  rw [isolated.metadata?_eq low, inputs]
  exact answered.connected producer role

section

variable {request : RequestScope} (coherent : request.wired.form.nodes.Coherent)
include coherent

/-- **A call keeps what the answers of a request have, and gives it to the new ones.** -/
theorem Stacked.provided (stacked : Stacked request) (provided : Provided request)
    (collection : NodeId) (index : Nat) :
    Provided (request.materialize collection index).1 := by
  obtain ⟨_, _, isolated⟩ := stacked.isolated coherent collection index
  rcases instance_cases coherent stacked.anchored collection index with
    same | ⟨after, template, scheme, complete, state, record, made, done⟩
  · rw [same]
    exact provided
  have anchored := stacked.anchored
  intro node member definition isPseudo isLocal absent
  rw [isolated.wired] at absent
  rw [done] at member
  rcases made.answer_made coherent anchored member isPseudo isLocal absent with
    old | ⟨created, outer, field, origin, found, isField, post⟩
  · obtain ⟨outer, field, answered⟩ := provided node old definition isPseudo isLocal absent
    exact ⟨outer, field, answered.keep isolated stacked old⟩
  · rw [done]
    refine ⟨outer, field, origin, found, isField, post, ?_⟩
    refine .ofFilled isLocal (Answer.originField_eq_ok_iff.2
      ⟨outer.id, outer, origin, found, isField⟩) fun triple into => ?_
    have seen : node? (layersOver request.wired after) node.id = some node :=
      Layered.node?_eq_some_iff.2 (.inl (NodeStore.node?_of_mem
        (made.anchored_after coherent anchored).coherent member))
    obtain ⟨ready, solo⟩ :=
      Pass.solo_pseudo request.wired.scopes request.wired.config seen isPseudo
    have inside : node.id ∈ batchOf template scheme index request.overlay.nodes ++ state.created :=
      List.mem_append_right _ created
    have unconnected : request.overlay.graph.metadata? triple = none :=
      stacked.metadata?_of_high (into ▸ (made.mem_batch coherent anchored inside).1)
    change after.graph.metadata? triple = _
    rw [made.metadata?_after coherent anchored, unconnected, Option.none_or, Pass.batchOffer?, into,
      if_pos ⟨inside, ready⟩, solo]
    rfl

end

theorem Reachable.provided {wired : WiredForm} (coherent : wired.form.nodes.Coherent)
    {request : RequestScope} (reached : Reachable wired request) : Provided request := by
  induction reached with
  | start => exact nofun
  | @materialize request collection index reached ih =>
    obtain ⟨rfl, stacked⟩ := reached.stacked coherent
    exact stacked.provided coherent ih collection index
  | answer answers _ ih =>
    intro node member definition isPseudo isLocal absent
    obtain ⟨outer, field, answered⟩ := ih node member definition isPseudo isLocal absent
    exact ⟨outer, field, answered.origin, answered.found, answered.isField, answered.post,
      answered.connected⟩

/-! ## The producers of an answer -/

/-- The submitted value that is connected with the answer to a code: the one of the form for an
answer of the form, and otherwise the one that the request sees. -/
def answerPost? (request : RequestScope) (step : NodeId) (code : String) : Option NodeId :=
  if (request.wired.form.nodes.pseudo? ⟨.answerLocal, step, code⟩).isSome then
    request.wired.form.nodes.pseudo? ⟨.post, step, code⟩
  else request.layers.pseudo? ⟨.post, step, code⟩

/-- What the answer to a code in a step is connected with: what its field has, and what serves the
step. -/
def answerInputs (request : RequestScope) (load : Option NodeId) (step : NodeId) (code : String)
    (field : Field) : AnswerInputs :=
  ⟨load, field.defaultValue, request.answerPost? step code, field.formatters⟩

/-- A pseudo-node was made for a field that is there. -/
structure MadeFor (layers : Layered) (identity : PseudoKey) (id : NodeId) (outer : Node)
    (field : Field) : Prop where
  made : ∃ node, node? layers id = some node ∧ node.kind = .pseudo ⟨identity, some outer.id⟩
  found : node? layers outer.id = some outer
  isField : outer.kind = .field field

section

variable {form : Form} {config : WiringConfig} {wired : WiredForm}
  (registered : WiredForm.Registered form config wired) (coherent : form.nodes.Coherent)
  {request : RequestScope} (reached : Reachable wired request) {step answer : NodeId}
  {code : String}
include registered coherent reached

/-- An answer of the form has the producers that wiring connected. -/
theorem producers_of_form (listed : step ∈ wired.scopes.steps)
    (found : wired.form.nodes.pseudo? ⟨.answerLocal, step, code⟩ = some answer) :
    ∃ outer field, MadeFor request.layers ⟨.answerLocal, step, code⟩ answer outer field ∧
      producerRoles (request.edgesTo answer) = AnswerInputs.replayed
        ⟨wired.scopes.lastLoadFrom? step, field.defaultValue,
          wired.form.nodes.pseudo? ⟨.post, step, code⟩, field.formatters⟩ := by
  have whole := registered.coherent coherent
  obtain ⟨rfl, stacked⟩ := reached.stacked whole
  have shown : Shows request.wired.form.nodes request.layers :=
    Layered.shows_base whole stacked.anchored
  obtain ⟨node, member, rfl, known, _, isPseudo⟩ := whole.exists_pseudo found
  obtain ⟨origin, outer, field, rfl, present, isField, connected⟩ :=
    registered.connected_answer coherent member isPseudo listed rfl
  obtain ⟨inside, rfl⟩ := (NodeStore.node?_eq_some_iff whole).1 present
  refine ⟨outer, field,
    ⟨⟨node, shown.node _ _ known, isPseudo⟩, shown.node _ _ present, isField⟩, ?_⟩
  have own := stacked.edgesTo_of_low (NodeStore.id_lt_nextId whole known)
  rw [edgesTo, own, List.append_nil]
  exact connected.producerRoles_edgesTo registered.nodup_triples

/-- An answer of the request has the producers that it was made with. -/
theorem producers_of_request
    (absent : wired.form.nodes.pseudo? ⟨.answerLocal, step, code⟩ = none)
    (found : request.overlay.nodes.pseudo? ⟨.answerLocal, step, code⟩ = some answer) :
    HasPseudo request.layers ⟨.post, step, code⟩ ∧
    ∃ outer field, MadeFor request.layers ⟨.answerLocal, step, code⟩ answer outer field ∧
      producerRoles (request.edgesTo answer) = AnswerInputs.replayed
        ⟨wired.scopes.lastLoadFrom? step, field.defaultValue,
          pseudo? request.layers ⟨.post, step, code⟩, field.formatters⟩ := by
  have whole := registered.coherent coherent
  have provided := reached.provided whole
  obtain ⟨rfl, stacked⟩ := reached.stacked whole
  obtain ⟨node, member, rfl, known, origin, isPseudo⟩ :=
    stacked.anchored.coherent.exists_pseudo found
  obtain ⟨outer, field, answered⟩ := provided node member _ isPseudo rfl fun ⟨_, lower⟩ => by
    cases absent.symm.trans lower
  obtain rfl : origin = some outer.id := answered.origin
  have lower := registered.edgesTo_of_high coherent (stacked.anchored.high node member)
  refine ⟨answered.post, outer, field,
    ⟨⟨node, Layered.node?_eq_some_iff.2 (.inl known), isPseudo⟩, answered.found, answered.isField⟩,
    ?_⟩
  rw [edgesTo, lower, List.nil_append]
  exact answered.connected.producerRoles_edgesTo stacked.distinct

/-- An answer of a step has the producers that its inputs are replayed as. -/
theorem producers_of_answer (listed : step ∈ wired.scopes.steps)
    (found : request.answerNode? step code = some answer) :
    ∃ outer field, MadeFor request.layers ⟨.answerLocal, step, code⟩ answer outer field ∧
      (wired.form.nodes.pseudo? ⟨.answerLocal, step, code⟩ = none →
        (request.answerPost? step code).isSome = true) ∧
      producerRoles (request.edgesTo answer) =
        (request.answerInputs (wired.scopes.lastLoadFrom? step) step code field).replayed := by
  have same := (reached.stacked (registered.coherent coherent)).1
  change (request.wired.form.nodes.pseudo? _).orElse (fun _ => _) = _ at found
  simp only [answerInputs, answerPost?]
  rw [same] at found ⊢
  cases lower : wired.form.nodes.pseudo? ⟨.answerLocal, step, code⟩ with
  | some id =>
    rw [lower] at found
    obtain rfl := Option.some_inj.1 found
    obtain ⟨outer, field, madeFor, all⟩ :=
      producers_of_form registered coherent reached listed lower
    exact ⟨outer, field, madeFor, nofun, all⟩
  | none =>
    rw [lower] at found
    obtain ⟨⟨post, posted⟩, outer, field, madeFor, all⟩ :=
      producers_of_request registered coherent reached lower found
    exact ⟨outer, field, madeFor, fun _ => Option.isSome_iff_exists.2 ⟨post, posted⟩, all⟩

end

theorem answerProducers_eq {request : RequestScope} {step answer : NodeId} {code : String}
    (found : request.answerNode? step code = some answer) :
    request.answerProducers step code = producerRoles (request.edgesTo answer) := by
  rw [answerProducers, found]

/-- An answer is connected with the submitted value that the request sees, unless the answer is one
of the form and the submitted value is not. -/
theorem answerPost?_eq {request : RequestScope} (coherent : request.wired.form.nodes.Coherent)
    (anchored : request.wired.form.nodes.Anchored request.overlay.nodes) {step : NodeId}
    {code : String} (timely : HasPseudo request.wired.form.nodes ⟨.answerLocal, step, code⟩ →
      HasPseudo request.layers ⟨.post, step, code⟩ →
        HasPseudo request.wired.form.nodes ⟨.post, step, code⟩) :
    request.answerPost? step code = pseudo? request.layers ⟨.post, step, code⟩ := by
  rw [answerPost?]
  split
  · rename_i answered
    have shown : Shows request.wired.form.nodes request.layers :=
      Layered.shows_base coherent anchored
    cases posted : request.wired.form.nodes.pseudo? ⟨.post, step, code⟩ with
    | some post => exact (shown.pseudo _ _ posted).symm
    | none =>
      refine (Option.eq_none_iff_forall_ne_some.2 fun post found => ?_).symm
      obtain ⟨_, own⟩ := timely (Option.isSome_iff_exists.1 answered) ⟨post, found⟩
      cases posted.symm.trans own
  · rfl

/-- **The producers of a local answer are replayed in order, one entry for the load-transition and
one for each value**: the transition that serves the step, the default value of the field that the
answer belongs to, the submitted value, and the formatters by their positions. A value that has
several of these places is replayed at one of them, the first of the submitted value, the formatters
in order, and the default value: an edge between two nodes is not added again. The submitted value
is the one that was there when the answer was connected; an answer that the request made has one.
So every place has its entry if no value fills two places and no submitted value came to an answer
of the form later. -/
theorem answerProducers_replayed {form : Form} {config : WiringConfig} {wired : WiredForm}
    (built : form.Built) (acyclic : Acyclic form.nodes)
    (wiring : WiredForm.wire form config = .ok wired) {request : RequestScope}
    (reached : Reachable wired request) {step answer : NodeId} {code : String}
    (isStep : ∃ node ∈ form.nodes.nodes, node.kind.isStep = true ∧ node.id = step)
    (found : request.answerNode? step code = some answer) :
    ∃ outer field, MadeFor request.layers ⟨.answerLocal, step, code⟩ answer outer field ∧
      request.answerProducers step code =
        (request.answerInputs (ScopeTree.loadAbove? form.nodes step) step code field).replayed ∧
      (wired.form.nodes.pseudo? ⟨.answerLocal, step, code⟩ = none →
        (request.answerPost? step code).isSome = true) ∧
      ((HasPseudo wired.form.nodes ⟨.answerLocal, step, code⟩ →
          HasPseudo request.layers ⟨.post, step, code⟩ →
            HasPseudo wired.form.nodes ⟨.post, step, code⟩) →
        ((pseudo? request.layers ⟨.post, step, code⟩).toList ++ field.formatters ++
          field.defaultValue.toList).Nodup →
        field.formatters.length ≤ indexBound →
        request.answerProducers step code = AnswerInputs.declared
          ⟨ScopeTree.loadAbove? form.nodes step, field.defaultValue,
            pseudo? request.layers ⟨.post, step, code⟩, field.formatters⟩) := by
  have registered := WiredForm.wire_spec wiring
  have coherent := built.coherent
  have whole := registered.coherent coherent
  have listed : step ∈ wired.scopes.steps := (ScopeTree.mem_steps_build registered.scopes).2 isStep
  obtain ⟨outer, field, madeFor, posted, all⟩ :=
    producers_of_answer registered coherent reached listed found
  rw [← answerProducers_eq found, registered.lastLoadFrom?_eq coherent acyclic listed] at all
  refine ⟨outer, field, madeFor, all, posted, fun timely distinct indexed => ?_⟩
  obtain ⟨rfl, stacked⟩ := reached.stacked whole
  rw [all, answerInputs, answerPost?_eq whole stacked.anchored timely]
  exact AnswerInputs.replayed_eq_declared _ distinct indexed

namespace Stops

/-- The request after the first stop. -/
def request : RequestScope := ((start wired).materialize ⟨4⟩ 0).1

/-- The name of the first stop is loaded, has a default value, and is submitted and trimmed. -/
theorem first_replayed :
    request.answerNode? ⟨2⟩ "stop_0_name" = some ⟨16⟩ ∧
      request.answerProducers ⟨2⟩ "stop_0_name" =
        [(.load, ⟨1⟩), (.default, ⟨3⟩), (.post, ⟨15⟩), (.formatter 0, ⟨12⟩)] := by
  have found : request.answerNode? ⟨2⟩ "stop_0_name" = some ⟨16⟩ := rfl
  have answer : node? request.layers ⟨16⟩ = some ⟨⟨16⟩, some ⟨2⟩,
      .pseudo ⟨⟨.answerLocal, ⟨2⟩, "stop_0_name"⟩, some ⟨11⟩⟩⟩ := rfl
  have copy : node? request.layers ⟨11⟩ = some ⟨⟨11⟩, some ⟨10⟩,
      .field ⟨"stop_0_name", "text", [⟨12⟩], some ⟨3⟩⟩⟩ := rfl
  obtain ⟨outer, field, ⟨⟨node, made, isPseudo⟩, there, isField⟩, replayed, -⟩ :=
    answerProducers_replayed built plain.acyclic wiring (.materialize ⟨4⟩ 0 .start)
      ⟨_, List.mem_of_getElem? (i := 2) rfl, rfl, rfl⟩ found
  obtain rfl := Option.some_inj.1 (answer.symm.trans made)
  have own : (⟨11⟩ : NodeId) = outer.id := Option.some_inj.1 (congrArg Pseudo.origin
    (NodeKind.pseudo.inj isPseudo))
  rw [← own] at there
  obtain rfl := Option.some_inj.1 (copy.symm.trans there)
  cases isField
  exact ⟨found, replayed.trans (by decide)⟩

end Stops

/-! ### A formatter in two places

The field names its formatter twice, and the answer to "city" is there before anything asks for its
submitted value, which the first iteration makes. -/

namespace Twice

def form : Form :=
  ⟨"trip", {
    nodes := [
      ⟨⟨0⟩, none, .journey "trip"⟩,
      ⟨⟨1⟩, some ⟨0⟩, .step "/who"⟩,
      ⟨⟨2⟩, some ⟨1⟩, .field ⟨"name", "text", [⟨3⟩, ⟨3⟩], none⟩⟩,
      ⟨⟨3⟩, some ⟨2⟩, .function "trim" []⟩,
      ⟨⟨4⟩, some ⟨1⟩, .field ⟨"town", "text", [], none⟩⟩,
      ⟨⟨5⟩, some ⟨1⟩, .pseudo ⟨⟨.answerLocal, ⟨1⟩, "city"⟩, some ⟨4⟩⟩⟩,
      ⟨⟨6⟩, some ⟨1⟩, .collection ⟨"leg", none⟩⟩,
      ⟨⟨7⟩, some ⟨6⟩, .reference ⟨["post", "city"]⟩⟩]
    containment := [(⟨0⟩, ⟨1⟩), (⟨1⟩, ⟨2⟩), (⟨2⟩, ⟨3⟩), (⟨1⟩, ⟨4⟩), (⟨1⟩, ⟨5⟩), (⟨1⟩, ⟨6⟩),
      (⟨6⟩, ⟨7⟩)]
    references := [⟨7⟩]
    identities := [(⟨.answerLocal, ⟨1⟩, "city"⟩, ⟨5⟩)]
    nextId := 8 }⟩

def text : String :=
  "[\"trip\",[[[0,null,[\"journey\",\"trip\"]],[1,0,[\"step\",\"/who\"]]," ++
    "[2,1,[\"field\",\"name\",\"text\",[3,3]]],[3,2,[\"function\",\"trim\"]]," ++
    "[4,1,[\"field\",\"town\",\"text\"]]," ++
    "[5,1,[\"pseudo\",\"answer_local\",1,\"city\",4]],[6,1,[\"collection\",\"leg\"]]," ++
    "[7,6,[\"reference\",[\"post\",\"city\"]]]],8]]"

set_option maxRecDepth 2000 in
theorem read : form.Built := .ofText (by cbv : Form.ofText text = .ok form)

theorem acyclic : Acyclic form.nodes :=
  NodeStore.acyclic_of_descends NodeId.val (by decide)

def wired : WiredForm := (WiredForm.wire form .default).toOption.getD default

/-- The request after an iteration. -/
def request : RequestScope := ((start wired).materialize ⟨6⟩ 0).1

/-- The formatter is replayed at its first position only, and the submitted value that came later
is not replayed. -/
theorem replayed_once :
    (form.Built ∧ Acyclic form.nodes ∧ WiredForm.wire form .default = .ok wired ∧
      Reachable wired request) ∧
    (request.answerNode? ⟨1⟩ "name" = some ⟨9⟩ ∧
      MadeFor request.layers ⟨.answerLocal, ⟨1⟩, "name"⟩ ⟨9⟩
        ⟨⟨2⟩, some ⟨1⟩, .field ⟨"name", "text", [⟨3⟩, ⟨3⟩], none⟩⟩
        ⟨"name", "text", [⟨3⟩, ⟨3⟩], none⟩ ∧
      request.answerProducers ⟨1⟩ "name" ≠ AnswerInputs.declared
        ⟨ScopeTree.loadAbove? form.nodes ⟨1⟩, none,
          request.layers.pseudo? ⟨.post, ⟨1⟩, "name"⟩, [⟨3⟩, ⟨3⟩]⟩) ∧
    request.answerNode? ⟨1⟩ "city" = some ⟨5⟩ ∧
      MadeFor request.layers ⟨.answerLocal, ⟨1⟩, "city"⟩ ⟨5⟩
        ⟨⟨4⟩, some ⟨1⟩, .field ⟨"town", "text", [], none⟩⟩ ⟨"town", "text", [], none⟩ ∧
      request.answerProducers ⟨1⟩ "city" ≠ AnswerInputs.declared
        ⟨ScopeTree.loadAbove? form.nodes ⟨1⟩, none,
          request.layers.pseudo? ⟨.post, ⟨1⟩, "city"⟩, []⟩ := by
  have name : request.answerProducers ⟨1⟩ "name" = [(.post, ⟨8⟩), (.formatter 0, ⟨3⟩)] := by cbv
  have city : request.answerProducers ⟨1⟩ "city" = [] := by cbv
  refine ⟨⟨read, acyclic, rfl, .materialize ⟨6⟩ 0 .start⟩,
    ⟨rfl, ⟨⟨_, rfl, rfl⟩, rfl, rfl⟩, ?_⟩, rfl, ⟨⟨_, rfl, rfl⟩, rfl, rfl⟩, ?_⟩
  · rw [name]
    decide
  · rw [city]
    decide

end Twice

end RequestScope

end FormFlow
