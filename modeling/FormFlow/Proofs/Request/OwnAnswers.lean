import FormFlow.Proofs.Request.Cloning
import FormFlow.Proofs.Request.Identities
import FormFlow.Proofs.Wiring.Filling

/-!
# The answers of an iteration

An iteration gives new codes to the fields of its template, and each new code is that of a local
answer which the iteration made (`RequestScope.TurnOf.exists_answer`). The answer belongs to the
copy of the first field with the old code, and the edges into it come from what is linked to that
copy (`RequestScope.run_edgesTo_answer`): what the template has is replaced by its copy, what stands
outside is shared between the iterations.

No answer belongs to two iterations, and what leads into it stays (`RequestScope.run_own_answers`).
-/

set_option autoImplicit false

namespace FormFlow

open NodeSource

theorem Renaming.join_inj {opening one other : String}
    (same : join opening one = join opening other) : one = other :=
  (String.append_right_inj _).1 same

/-- The copy of a field links to the copies of what the field links to. -/
theorem Renaming.exists_apply_field (scheme : Renaming) (direct : Bool) (place : NodeId → NodeId)
    (definition : Field) : ∃ field,
      scheme.apply direct ((NodeKind.field definition).remapIds place) = .field field ∧
      field.formatters ++ field.defaultValue.toList =
        (definition.formatters ++ definition.defaultValue.toList).map place := by
  have links : definition.formatters.map place ++ (definition.defaultValue.map place).toList =
      (definition.formatters ++ definition.defaultValue.toList).map place := by
    rw [List.map_append, Option.toList_map]
  cases direct <;> exact ⟨_, rfl, links⟩

/-- The code of a field that belongs to a collection itself. -/
theorem Layered.ownCode?_eq_some_iff {layers : Layered} {collection id : NodeId} {node : Node}
    (found : layers.node? id = some node) {code : String} :
    layers.ownCode? collection id = some code ↔
      (repeatedAbove? layers node).map Node.id = some collection ∧
        node.kind.field?.map Field.code = some code := by
  simp only [ownCode?, found, Option.bind_eq_bind, Option.bind_some, Option.bind_eq_some_iff,
    Option.ite_none_right_eq_some, Option.some_inj, Option.map_eq_some_iff]
  constructor
  · rintro ⟨field, isField, outer, around, own, same⟩
    exact ⟨⟨outer, around, own⟩, field, isField, same⟩
  · rintro ⟨⟨outer, around, own⟩, field, isField, same⟩
    exact ⟨field, isField, outer, around, own, same⟩

namespace RequestScope

/-! ## The fields of an iteration -/

namespace Turn

variable {request : RequestScope} {after : Overlay} {template : Template} {complete : NodeStore}
  {state : Synthesis.State Layered} {record : Iteration}
  (turn : Turn request after template complete state record)
  (grounded : Grounded request.wired) (settled : Settled request)
include turn grounded settled

/-- The ready fields of an iteration are the copies of the template's own fields. -/
theorem readyFields_eq : readyNodes (layersOver request.wired after) record NodeKind.isField =
    (template.nodes.filter fun entry => entry.direct && entry.node.kind.isField).map
      (copyFor template (.ofTemplate template record.index) record.index
        request.overlay.nodes) := by
  have copies : copiesOf template (.ofTemplate template record.index) record.index
      request.overlay.nodes = template.nodes.map
        (copyFor template (.ofTemplate template record.index) record.index
          request.overlay.nodes) := rfl
  have waits := turn.made.awaitsIteration_copy grounded.coherent settled.anchored settled.placed
    grounded.upright
  rw [(turn.wantedBy_eq grounded settled).1, readyNodes, turn.filterMap_batch, newNodes,
    List.filter_cons_of_neg (by simp [iterationNode, NodeKind.isField]), copies, List.filter_map]
  refine congrArg (List.map _) (List.filter_congr fun entry member => ?_)
  have isField : (copyFor template (.ofTemplate template record.index) record.index
      request.overlay.nodes entry).kind.isField = entry.node.kind.isField :=
    NodeKind.isField_copy _ _ _ _
  rw [Function.comp, isField, waits entry member]
  cases entry.node.kind <;> simp [NodeKind.isField, isDeferred]

/-- The ready field with a new code is the copy of the first field with the old one. -/
theorem find?_readyFields (code : String) :
    (readyNodes (layersOver request.wired after) record NodeKind.isField).find? (fun node =>
        decide (node.kind.field?.map Field.code =
          some (Renaming.join (Renaming.ofTemplate template record.index).opening code))) =
      (template.nodes.find? fun entry => entry.direct &&
        decide (entry.node.kind.field?.map Field.code = some code)).map
          (copyFor template (.ofTemplate template record.index) record.index
            request.overlay.nodes) := by
  rw [turn.readyFields_eq grounded settled, List.find?_map, List.find?_filter,
    ← List.head?_filter, ← List.head?_filter]
  refine congrArg (fun entries => (List.head? entries).map _)
    (List.filter_congr fun entry member => ?_)
  cases direct : entry.direct with
  | false => rfl
  | true =>
    cases kind : entry.node.kind with
    | field definition =>
      obtain ⟨field, copied, renamed⟩ :=
        copyFor_field request.overlay.nodes member direct kind
      have own : (copyFor template (.ofTemplate template record.index) record.index
          request.overlay.nodes entry).kind.field? = some field := by rw [copied]; rfl
      have original : (NodeKind.field definition).field? = some definition := rfl
      rw [Bool.eq_iff_iff]
      simp only [Function.comp, own, original, NodeKind.isField, Option.map_some, renamed,
        Option.some_inj, Bool.true_and, decide_eq_true_eq, true_and]
      exact ⟨Renaming.join_inj, congrArg _⟩
    | _ => simp [NodeKind.isField, NodeKind.field?]

end Turn

section

variable {wired : WiredForm} (grounded : Grounded wired) (started : Settled (start wired))
  {calls before : List (NodeId × Nat)} {after : Overlay} {template : Template}
  {complete : NodeStore} {state : Synthesis.State Layered} {record : Iteration}
include grounded started

/-- What was copied is still there. -/
theorem TurnOf.found_original
    (turn : TurnOf wired calls before after template complete state record) :
    ∀ entry ∈ template.nodes,
      node? (run wired calls).layers entry.node.id = some entry.node := by
  intro entry member
  obtain ⟨rest, rfl⟩ := turn.call
  exact (run_shows grounded started before _).node _ _ (turn.turn.made.iterable.found
    (grounded_run grounded before).coherent (settled_run grounded started before).anchored member)

/-- The first field with a code in the listing of a template. -/
theorem TurnOf.find?_listed (turn : TurnOf wired calls before after template complete state record)
    (code : String) :
    (Template.ids template.nodes).find? (fun id =>
        decide ((run wired calls).layers.ownCode? record.collection id = some code)) =
      (template.nodes.find? fun entry => entry.direct &&
        decide (entry.node.kind.field?.map Field.code = some code)).map
          fun entry => entry.node.id := by
  have ground := grounded_run grounded before
  have settled := settled_run grounded started before
  have upright := settled.placed.upright
  have made := turn.turn.made
  have shown : Shows (run wired before).layers (run wired calls).layers := by
    obtain ⟨rest, rfl⟩ := turn.call
    exact run_shows grounded started before _
  rw [Template.ids, List.find?_map, ← List.head?_filter, ← List.head?_filter]
  refine congrArg (fun entries => (List.head? entries).map _)
    (List.filter_congr fun entry member => ?_)
  have found : node? (run wired before).layers entry.node.id = some entry.node :=
    made.iterable.found ground.coherent settled.anchored member
  have there : (run wired calls).layers.node? entry.node.id = some entry.node :=
    turn.found_original grounded started entry member
  have around : repeatedAbove? (run wired calls).layers entry.node =
      repeatedAbove? (run wired before).layers entry.node :=
    shown.repeatedAbove?_eq upright found
  have direct := made.iterable.listed.direct entry member
  rw [← turn.turn.recorded.collection] at direct
  rw [Function.comp, direct, ← Bool.decide_and, decide_eq_decide,
    Layered.ownCode?_eq_some_iff there, around]
  rfl

/-- The answer to a new code is made for the copy of the first field with the old one. -/
theorem TurnOf.exists_answer
    (turn : TurnOf wired calls before after template complete state record)
    (known : record ∈ (run wired calls).iterations) {pair : String × String}
    (renamed : pair ∈ record.renamed) :
    ∃ entry, template.nodes.find? (fun entry => entry.direct &&
        decide (entry.node.kind.field?.map Field.code = some pair.1)) = some entry ∧
      ∃ node ∈ (run wired calls).overlay.nodes.nodes, node.kind =
        .pseudo ⟨⟨.answerLocal, record.step, pair.2⟩,
          some (copyFor template (.ofTemplate template record.index) record.index
            (run wired before).overlay.nodes entry).id⟩ := by
  have ground := grounded_run grounded before
  have settled := settled_run grounded started before
  have named : pair.2 ∈ record.renamed.map Prod.snd := List.mem_map_of_mem renamed
  obtain ⟨id, found⟩ := run_answer grounded started known named
  rcases run_pseudo?_cases grounded started calls found with
    lower | ⟨node, member, rfl, definition, isPseudo, key⟩
  · exact absurd ((shows_form grounded started before).hasPseudo ⟨id, lower⟩)
      (turn.turn.unclaimed named)
  obtain ⟨-, maker, made, isLocal, -, wanted⟩ := run_wanted grounded started member isPseudo
  rw [key] at wanted
  obtain ⟨front, rest, split, -⟩ := List.lookup_eq_some_iff.1 wanted
  have asked : (⟨.answerLocal, record.step, pair.2⟩, definition.origin) ∈
      wantedBy (run wired calls).layers isLocal maker := split ▸ by simp
  obtain ⟨field, ready, _, isField, code, _⟩ := exists_field_of_wantedBy asked
  have step : record.step = maker.step := Synthesis.scope_of_wants asked
  obtain rfl : record = maker := run_claimed grounded started known made step named
    ((run_codes grounded started made pair.2).2 ⟨field, ready, _, isField, code⟩)
  rw [wantedBy, Synthesis.lookup_wants_answer, (turn.wantedBy_eq grounded started).1] at wanted
  have opening : pair.2 =
      Renaming.join (Renaming.ofTemplate template record.index).opening pair.1 := by
    rw [turn.turn.recorded.renamed] at renamed
    exact Renaming.eq_join_of_mem_fields _ _ pair renamed
  rw [opening, turn.turn.find?_readyFields ground settled, Option.map_map] at wanted
  obtain ⟨entry, first, origin⟩ := Option.map_eq_some_iff.1 wanted
  refine ⟨entry, first, node, member, ?_⟩
  obtain ⟨identity, _⟩ := definition
  obtain rfl : identity = ⟨.answerLocal, record.step, pair.2⟩ := key
  cases origin
  exact isPseudo

/-- What an iteration was made from is what stands below the collection now. -/
theorem TurnOf.spans (turn : TurnOf wired calls before after template complete state record) :
    Spans ((run wired calls).layers.holder record.collection).parts
      (((run wired calls).layers.holder record.collection).parts record.collection)
      (Template.ids template.nodes) := by
  have ground := grounded_run grounded before
  have settled := settled_run grounded started before
  have made := turn.turn.made
  obtain ⟨_, _, listed, traverses, entries⟩ := turn.exists_traverses grounded started
  obtain ⟨top, definition, present, isCollection, _⟩ := made.iterable.collection
  have content := made.iterable.listed.isContent settled.placed
    (fun _ _ => Layered.node?_of_holder ground.coherent settled.anchored) present
    (by rw [isCollection]; rfl)
  have holding : ((run wired before).layers.holder template.collection).Coherent :=
    Template.coherent_holder ground.coherent settled.anchored _
  have spans := traverses.spans_parts holding
  rw [← entries, ← turn.turn.recorded.collection] at spans
  rw [← turn.turn.recorded.collection] at present
  obtain ⟨rest, rfl⟩ := turn.call
  rw [run_parts grounded started before _ ⟨top, present⟩ present (by rw [isCollection]; rfl)]
  refine spans.congr fun id member => ?_
  obtain ⟨entry, known, rfl⟩ := List.mem_map.1 member
  exact run_parts grounded started before _ ⟨top, present⟩
    (made.iterable.found ground.coherent settled.anchored known)
    (Bool.or_eq_false_iff.1 (content entry known).scope).2

omit grounded started in
/-- The copy of a node is where the record has it. -/
theorem TurnOf.id_copyFor
    (turn : TurnOf wired calls before after template complete state record)
    {layers : Layered} {copies : List (NodeId × NodeId)}
    (seen : Instantiates layers record template copies) {entry : TemplateNode}
    (member : entry ∈ template.nodes) :
    (copyFor template (.ofTemplate template record.index) record.index
      (run wired before).overlay.nodes entry).id = copyOf copies entry.node.id := by
  have same := turn.turn.recorded.nodes.symm.trans seen.nodes
  rw [copiesOf, Template.ids, List.map_map, List.map_map] at same
  exact List.map_inj_left.1 same entry member

/-- An iteration belongs to a step that is wired. -/
theorem TurnOf.step_listed
    (turn : TurnOf wired calls before after template complete state record) :
    wired.scopes.isStep record.step = true := by
  obtain ⟨_, _, _, _, _, _, isStep, _⟩ := Template.read_spec (grounded_run grounded before).coherent
    (settled_run grounded started before).anchored.coherent turn.turn.read
  rw [wired_run] at isStep
  rw [turn.turn.recorded.step]
  exact isStep

/-- A code that an iteration gave to a field is that of a submitted value. -/
theorem run_post {record : Iteration} (member : record ∈ (run wired calls).iterations)
    {code : String} (named : code ∈ record.renamed.map Prod.snd) :
    HasPseudo (run wired calls).layers ⟨.post, record.step, code⟩ := by
  obtain ⟨isLocal, supplied⟩ := run_supplied grounded started member
  obtain ⟨node, inside, field, isField, rfl⟩ := (run_codes grounded started member code).1 named
  exact supplied.has (⟨.post, record.step, field.code⟩, some node.id)
    (Synthesis.mem_wants.2 (.inl ⟨node, inside, Synthesis.mem_fieldWants.2
      ⟨field, isField, .inl rfl⟩⟩))

/-- The edges into a node stay the same. -/
theorem run_edgesTo_append (calls more : List (NodeId × Nat)) {id : NodeId}
    (there : (run wired calls).layers.Has id) :
    (run wired (calls ++ more)).edgesTo id = (run wired calls).edgesTo id := by
  induction more using List.reverseRecOn with
  | nil => rw [List.append_nil]
  | append_singleton more call ih =>
    obtain ⟨_, stacked⟩ := (reachable_run wired (calls ++ more)).stacked grounded.coherent
    obtain ⟨_, _, isolated⟩ :=
      stacked.isolated (grounded_run grounded _).coherent call.1 call.2
    obtain ⟨node, found⟩ := there
    rw [← List.append_assoc, run_concat, ← ih]
    exact isolated.edgesTo id ⟨node, (run_shows grounded started calls more).node _ _ found⟩

end

/-! ## The edges into the pseudo-nodes of a request -/

section

variable {form : Form} {config : WiringConfig} {wired : WiredForm}
  (registered : WiredForm.Registered form config wired) (coherent : form.nodes.Coherent)
  (plainForm : form.Plain)
include registered coherent plainForm

/-- The edges into a pseudo-node of a request come from what would fill it now. -/
theorem run_edgesTo_pseudo (calls : List (NodeId × Nat)) {node : Node}
    (member : node ∈ (run wired calls).overlay.nodes.nodes) {definition : Pseudo}
    (isPseudo : node.kind = .pseudo definition) (producer : NodeId) (role : Role) :
    (∃ edge ∈ (run wired calls).edgesTo node.id, edge.producer = producer ∧ edge.role = role) ↔
      (producer, role) ∈
        (((run wired calls).context definition.scope).producers node.id definition).sources := by
  have grounded := grounded_of_registered registered coherent plainForm
  have started := settled_start registered coherent plainForm
  have settled := settled_run grounded started calls
  have fills : ∀ triple : Triple, triple.consumer = node.id → _ := fun _ =>
    run_fills registered coherent plainForm calls member isPseudo
  have high := settled.anchored.high node member
  rw [wired_run] at high
  have own : (run wired calls).edgesTo node.id =
      (run wired calls).overlay.graph.edgesTo node.id := by
    rw [edgesTo, wired_run, registered.edgesTo_of_high coherent high, List.nil_append]
  rw [own, Draft.mem_sources_iff]
  constructor
  · rintro ⟨edge, into, rfl, rfl⟩
    obtain ⟨known, consumer⟩ := List.mem_filter.1 into
    have found := DependencyGraph.metadata?_of_mem settled.distinct known
    rw [fills _ (of_decide_eq_true consumer)] at found
    obtain ⟨c, asked, same, _⟩ := Draft.exists_of_offer? found
    obtain ⟨producerSame, _, roleSame⟩ := Triple.mk.inj same
    exact ⟨c, asked, producerSame, roleSame⟩
  · rintro ⟨c, asked, rfl, rfl⟩
    have into := WiringContext.producers_into _ _ _ c asked
    obtain ⟨metadata, offered⟩ := Draft.exists_offer? asked
    rw [← fills c.triple into] at offered
    obtain ⟨edge, known, same, _⟩ := DependencyGraph.exists_of_metadata? offered
    obtain ⟨producerSame, consumerSame, roleSame⟩ := Triple.mk.inj same
    refine ⟨edge, List.mem_filter.2 ⟨known, ?_⟩, producerSame, roleSame⟩
    exact decide_eq_true (consumerSame.trans into)

/-- The edges into a local answer of a request: from the submitted value, the formatters and the
default value of the field that it was made for, and from the load-transition of the step. -/
theorem run_edgesTo_answer (calls : List (NodeId × Nat)) {node : Node}
    (member : node ∈ (run wired calls).overlay.nodes.nodes) {step origin : NodeId} {code : String}
    (isPseudo : node.kind = .pseudo ⟨⟨.answerLocal, step, code⟩, some origin⟩)
    (listed : step ∈ wired.scopes.steps) {made : Node} {field : Field}
    (found : node? (run wired calls).layers origin = some made) (isField : made.kind = .field field)
    (producer : NodeId) (role : Role) :
    (∃ edge ∈ (run wired calls).edgesTo node.id, edge.producer = producer ∧ edge.role = role) ↔
      (producer, role) ∈
        (((run wired calls).layers.pseudo? ⟨.post, step, code⟩).toList ++ field.formatters ++
            field.defaultValue.toList).map (fun value => (value, Role.dataFlow)) ++
          (ScopeTree.loadAbove? form.nodes step).toList.map
            fun transition => (transition, Role.effect) := by
  have originField : Answer.originField ((run wired calls).context step) node.id
      ⟨⟨.answerLocal, step, code⟩, some origin⟩ = .ok field :=
    Answer.originField_eq_ok_iff.2 ⟨origin, made, rfl, found, isField⟩
  rw [run_edgesTo_pseudo registered coherent plainForm calls member isPseudo,
    WiringContext.producers]
  dsimp only
  rw [Answer.localProducers, originField, Draft.sources_after]
  change _ ∈ Draft.sources (Answer.fieldProducers _ _ _ _) ↔ _
  rw [WiringContext.sources_fieldProducers]
  have load : ((run wired calls).context step).scopes.lastLoadFrom? step =
      ScopeTree.loadAbove? form.nodes step := by
    rw [context, wired_run]
    exact registered.lastLoadFrom?_eq coherent plainForm.acyclic listed
  change _ ∈ _ ++ (((run wired calls).context step).scopes.lastLoadFrom? step).toList.map _ ↔ _
  rw [load]
  rfl

end

/-! ## The answers of an iteration -/

/-- The local answer for a new code of an iteration. The nodes that were copied are `listed`, and
`place` finds their copies; `first` is the first field with the old code among the collection's
own. -/
structure OwnAnswer (form : Form) (request : RequestScope) (record : Iteration)
    (listed : List NodeId) (place : NodeId → NodeId) (old new : String) (first : NodeId)
    (definition : Field) (answer post : NodeId) : Prop where
  origin : listed.find? (fun id =>
    decide (request.layers.ownCode? record.collection id = some old)) = some first
  original : ∃ node, request.layers.node? first = some node ∧ node.kind = .field definition
  made : ∃ node ∈ request.overlay.nodes.nodes, node.id = answer ∧
    node.kind = .pseudo ⟨⟨.answerLocal, record.step, new⟩, some (place first)⟩
  found : request.layers.pseudo? ⟨.answerLocal, record.step, new⟩ = some answer
  posted : request.layers.pseudo? ⟨.post, record.step, new⟩ = some post
  producers : ∀ producer role,
    (∃ edge ∈ request.edgesTo answer, edge.producer = producer ∧ edge.role = role) ↔
      (producer, role) ∈ (post, Role.dataFlow) ::
        ((definition.formatters ++ definition.defaultValue.toList).map fun value =>
          (place value, Role.dataFlow)) ++
        (ScopeTree.loadAbove? form.nodes record.step).toList.map fun load => (load, Role.effect)
  alone : ∀ other ∈ request.iterations, ∀ pair ∈ other.renamed,
    request.layers.pseudo? ⟨.answerLocal, other.step, pair.2⟩ = some answer → other = record

/-- **Every iteration has its own answers**, whatever other iterations there are. The nodes that it
copied are those that stand below the collection, in pre-order, and for each new code there is a
local answer in the request, made for the copy of the first field with the old code. Its producers
are the submitted value, the formatters and the default value of this field, each in its copy if it
was copied too, and the load-transition at or above the step. No other iteration has this answer,
and no later call changes what leads into it. -/
theorem run_own_answers {form : Form} {config : WiringConfig} {wired : WiredForm}
    (built : form.Built) (plain : form.Plain) (wiring : WiredForm.wire form config = .ok wired)
    (calls : List (NodeId × Nat)) {record : Iteration}
    (member : record ∈ (run wired calls).iterations) :
    ∃ listed place,
      Spans ((run wired calls).layers.holder record.collection).parts
        (((run wired calls).layers.holder record.collection).parts record.collection) listed ∧
      record.nodes = listed.map place ∧ (∀ id ∉ listed, place id = id) ∧
      ∀ pair ∈ record.renamed, ∃ first definition answer post,
        OwnAnswer form (run wired calls) record listed place pair.1 pair.2 first definition answer
          post ∧
        ∀ more, (run wired (calls ++ more)).layers.pseudo?
            ⟨.answerLocal, record.step, pair.2⟩ = some answer ∧
          (run wired (calls ++ more)).layers.node? answer =
            (run wired calls).layers.node? answer ∧
          (run wired (calls ++ more)).edgesTo answer = (run wired calls).edgesTo answer := by
  have registered := WiredForm.wire_spec wiring
  have grounded := grounded_of_registered registered built.coherent plain
  have started := settled_start registered built.coherent plain
  obtain ⟨before, after, template, complete, state, turn⟩ := exists_turn grounded started member
  obtain ⟨copies, seen⟩ := turn.instantiates grounded started
  refine ⟨Template.ids template.nodes, copyOf copies, turn.spans grounded started, seen.nodes,
    seen.others, fun pair renamed => ?_⟩
  have named : pair.2 ∈ record.renamed.map Prod.snd := List.mem_map_of_mem renamed
  obtain ⟨entry, first, node, inside, isPseudo⟩ :=
    turn.exists_answer grounded started member renamed
  obtain ⟨post, posted⟩ := run_post grounded started member named
  have known := List.mem_of_find?_eq_some first
  rw [turn.id_copyFor seen known] at isPseudo
  have found := run_pseudo?_of_mem grounded started calls inside isPseudo
  obtain ⟨definition, isField⟩ : ∃ definition, entry.node.kind = .field definition := by
    have declares := List.find?_some first
    rw [Bool.and_eq_true, decide_eq_true_eq] at declares
    obtain ⟨definition, isField, _⟩ := Option.map_eq_some_iff.1 declares.2
    exact ⟨definition, NodeKind.field?_eq_some_iff.1 isField⟩
  obtain ⟨field, copied, links⟩ := Renaming.exists_apply_field
    (.ofTemplate template record.index) entry.direct (copyOf copies) definition
  rw [← isField] at copied
  have listed := (ScopeTree.isStep_iff_mem_steps built.coherent.nodup registered.scopes).1
    (turn.step_listed grounded started)
  refine ⟨entry.node.id, definition, node.id, post, ?_, fun more => ?_⟩
  · refine
      { origin := by rw [turn.find?_listed grounded started, first]; rfl
        original := ⟨entry.node, turn.found_original grounded started entry known, isField⟩
        made := ⟨node, inside, rfl, isPseudo⟩
        found := found
        posted := posted
        producers := fun producer role => ?_
        alone := fun other among another renamedThere there => ?_ }
    · rw [run_edgesTo_answer registered built.coherent plain calls inside isPseudo listed
        (seen.copy entry known) copied, List.append_assoc, links]
      change _ ∈ ((NodeSource.pseudo? (run wired calls).layers _).toList ++ _).map _ ++ _ ↔ _
      rw [posted, List.map_append, List.map_map]
      rfl
    · have same := run_pseudo?_inj grounded started calls there found
      have step : other.step = record.step := congrArg PseudoKey.scope same
      have code : another.2 = pair.2 := congrArg PseudoKey.key same
      exact run_claimed grounded started among member step
        (code ▸ List.mem_map_of_mem renamedThere) named
  · have shown := run_shows grounded started calls more
    have there := run_node?_of_mem grounded started calls inside
    exact ⟨shown.pseudo _ _ found, (shown.node _ _ there).trans there.symm,
      run_edgesTo_append grounded started calls more ⟨node, there⟩⟩

namespace Stops

/-- Two stops. -/
def calls : List (NodeId × Nat) := [(⟨4⟩, 0), (⟨4⟩, 1)]

/-- The name of the first stop is its own answer, also when there is a second stop. -/
theorem first_answered :
    first ∈ (run wired calls).iterations ∧ ("name", "stop_0_name") ∈ first.renamed ∧
      ∃ listed place field definition answer post, OwnAnswer form (run wired calls) first listed
        place "name" "stop_0_name" field definition answer post := by
  have known : first ∈ (run wired calls).iterations := List.mem_of_getElem? (i := 0) rfl
  have renamed : ("name", "stop_0_name") ∈ first.renamed := List.mem_of_getElem? (i := 0) rfl
  obtain ⟨listed, place, -, -, -, answers⟩ := run_own_answers built plain wiring calls known
  obtain ⟨field, definition, answer, post, own, -⟩ := answers _ renamed
  exact ⟨known, renamed, listed, place, field, definition, answer, post, own⟩

end Stops

end RequestScope

end FormFlow
