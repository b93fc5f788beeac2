import FormFlow.Proofs.Request.Supply
import FormFlow.Proofs.Wiring.Renumbered

/-!
# Wiring as it stands

The nodes of an iteration are wired when they are made, by what is there at that time. In what
follows the edges of a request are told from the request as it stands: a pseudo-node is filled by
what would fill it now (`RequestScope.run_fills`), and a reference reads what it would read now
(`RequestScope.run_reads`).

There is one exception. A reference that finds no local answer to a code reads a remote one, and a
later iteration may give this code to one of its fields. From then on the remote answer is contested
(`RequestScope.Contested`): it would not be made any more, and new references read the local one.
-/

set_option autoImplicit false

namespace FormFlow

open NodeSource

/-- A pseudo-node asks for what fills it. -/
theorem Pass.solo_pseudo {σ : Type} [NodeSource σ] {nodes : σ} (scopes : ScopeTree)
    (config : WiringConfig) {id : NodeId} {node : Node} {definition : Pseudo}
    (found : node? nodes id = some node) (isPseudo : node.kind = .pseudo definition) :
    isReady nodes id = true ∧ solo nodes scopes config id =
      (⟨nodes, scopes, .none, definition.scope, config⟩ : WiringContext σ).producers id
        definition := by
  have owned : owningStep? nodes id = some definition.scope := by
    simp only [owningStep?]
    rw [found, Option.bind_some, isPseudo]
    rfl
  refine ⟨?_, ?_⟩
  · rw [isReady, found]
    simp [awaitsIteration, isPseudo, isDeferred]
  · rw [solo, owned]
    dsimp only
    rw [single_pseudo found isPseudo, WiringContext.producers]
    cases definition.kind <;> rfl

/-- If more is there, a reference reads what it read, or a local answer has come to what was
remote. -/
theorem Pass.readOf?_or_remote {σ τ υ : Type} [NodeSource σ] [NodeSource τ] [NodeSource υ]
    {made : σ} {later : τ} (more : ∀ identity, HasPseudo made identity → HasPseudo later identity)
    (nodes : υ) (step : NodeId) (node : Node) (expression : Reference) :
    readOf? later nodes step node expression = readOf? made nodes step node expression ∨
      ∃ code, readOf? made nodes step node expression = some ⟨.answerRemote, step, code⟩ ∧
        readOf? later nodes step node expression = some ⟨.answerLocal, step, code⟩ ∧
        ¬HasPseudo made ⟨.answerLocal, step, code⟩ ∧ HasPseudo later ⟨.answerLocal, step, code⟩ := by
  simp only [readOf?]
  cases expression.selected? with
  | none => exact .inl rfl
  | some space =>
    cases space with
    | post | query | params | data | selfValue | item => exact .inl rfl
    | answers =>
      dsimp only
      split
      · exact .inl rfl
      · cases expression.lookupKey? .answers with
        | none => exact .inl rfl
        | some code =>
          simp only [Option.bind_some, identityOf?]
          by_cases before : HasPseudo made ⟨.answerLocal, step, code⟩
          · rw [if_pos (Option.isSome_iff_exists.2 before),
              if_pos (Option.isSome_iff_exists.2 (more _ before))]
            exact .inl rfl
          · rw [if_neg fun known => before (Option.isSome_iff_exists.1 known)]
            by_cases now : HasPseudo later ⟨.answerLocal, step, code⟩
            · rw [if_pos (Option.isSome_iff_exists.2 now)]
              exact .inr ⟨code, rfl, rfl, before, now⟩
            · rw [if_neg fun known => now (Option.isSome_iff_exists.1 known)]
              exact .inl rfl

namespace RequestScope

/-- An iteration gave a code to a field of a step. -/
def Claims (request : RequestScope) (step : NodeId) (code : String) : Prop :=
  ∃ record ∈ request.iterations, record.step = step ∧ code ∈ record.renamed.map Prod.snd

/-- A remote answer to a code that an iteration gave to a field of the same step. -/
def Contested (request : RequestScope) (id : NodeId) : Prop :=
  ∃ step code, request.layers.pseudo? ⟨.answerRemote, step, code⟩ = some id ∧
    request.Claims step code

/-- A step of the form in a request as it stands. -/
def context (request : RequestScope) (step : NodeId) : WiringContext Layered :=
  ⟨request.layers, request.wired.scopes, .none, step, request.wired.config⟩

/-- The edges into a reference of a request: one from the pseudo-node that it reads, if it reads
any. -/
structure Reads (request : RequestScope) (id : NodeId) (expression : Reference)
    (identity? : Option PseudoKey) : Prop where
  present : ∀ identity, identity? = some identity → HasPseudo request.layers identity
  edges : ∀ triple metadata, triple.consumer = id →
    (request.overlay.graph.metadata? triple = some metadata ↔
      Pass.Binds request.layers id expression identity? triple metadata)

section

variable {wired : WiredForm} (grounded : Grounded wired) (started : Settled (start wired))
include grounded started

/-- **A local answer is one of the form, or an iteration gave its code to a field.** -/
theorem run_local_iff (calls : List (NodeId × Nat)) (step : NodeId) (code : String) :
    HasPseudo (run wired calls).layers ⟨.answerLocal, step, code⟩ ↔
      HasPseudo wired.form.nodes ⟨.answerLocal, step, code⟩ ∨
        (run wired calls).Claims step code := by
  have coherent := (settled_run grounded started calls).anchored.coherent
  constructor
  · intro has
    rw [layers_run_eq, Layered.hasPseudo_iff, NodeStore.hasPseudo_iff coherent] at has
    apply has.imp_right
    rintro ⟨node, member, identified⟩
    obtain ⟨definition, isPseudo, same⟩ := Option.map_eq_some_iff.1 identified
    obtain ⟨_, record, known, isLocal, _, wanted⟩ := run_wanted grounded started member
      (NodeKind.pseudo?_eq_some_iff.1 isPseudo)
    rw [same] at wanted
    obtain ⟨first, last, split, _⟩ := List.lookup_eq_some_iff.1 wanted
    have inside : (⟨.answerLocal, step, code⟩, definition.origin) ∈
        wantedBy (run wired calls).layers isLocal record := by simp [split]
    have scope : step = record.step := Synthesis.scope_of_wants inside
    obtain ⟨field, ready, definition, isField, coded, _⟩ := exists_field_of_wantedBy inside
    exact ⟨record, known, scope.symm,
      (run_codes grounded started known code).2 ⟨field, ready, definition, isField, coded⟩⟩
  · rintro (has | ⟨record, member, rfl, named⟩)
    · exact (shows_form grounded started calls).hasPseudo has
    · exact run_answer grounded started member named

/-! ## Edges stay -/

/-- What leads into a node stays the same. -/
theorem run_metadata?_append (calls more : List (NodeId × Nat)) {triple : Triple}
    (there : (run wired calls).layers.Has triple.consumer) :
    (run wired (calls ++ more)).overlay.graph.metadata? triple =
      (run wired calls).overlay.graph.metadata? triple := by
  induction more using List.reverseRecOn with
  | nil => rw [List.append_nil]
  | append_singleton more call ih =>
    have settled := settled_run grounded started (calls ++ more)
    have ground := grounded_run grounded (calls ++ more)
    rw [← List.append_assoc, run_concat, ← ih]
    rcases settled.materialize_cases ground call.1 call.2 with
      same | ⟨after, template, scheme, complete, state, iterations, made, done⟩
    · rw [same]
    · obtain ⟨node, found⟩ := there
      have low := settled.anchored.lt_nextId ground.coherent
        ⟨node, (run_shows grounded started calls more).node _ _ found⟩
      have outside : triple.consumer ∉ batchOf template scheme call.2
          (run wired (calls ++ more)).overlay.nodes ++ state.created := by
        intro member
        have high := (made.mem_batch ground.coherent settled.anchored member).1
        omega
      rw [done]
      change after.graph.metadata? triple = _
      rw [made.metadata?_after ground.coherent settled.anchored, Pass.batchOffer?,
        if_neg fun both => outside both.1, Option.or_none]

namespace TurnOf

variable {calls before : List (NodeId × Nat)} {after : Overlay} {template : Template}
  {complete : NodeStore} {state : Synthesis.State Layered} {record : Iteration}
  (turn : TurnOf wired calls before after template complete state record)
include turn

/-- The edges into what was made in a turn were added in the turn. -/
theorem metadata?_eq {triple : Triple}
    (member : triple.consumer ∈ batch record ++ state.created) :
    (run wired calls).overlay.graph.metadata? triple =
      if Pass.isReady (layersOver (run wired before).wired after) triple.consumer = true then
        (Pass.solo (layersOver (run wired before).wired after) wired.scopes wired.config
          triple.consumer).offer? triple
      else none := by
  have settled := settled_run grounded started before
  have ground := grounded_run grounded before
  rw [turn.turn.batch_eq] at member
  have high := (turn.turn.made.mem_batch ground.coherent settled.anchored member).1
  have unseen : (run wired before).overlay.graph.metadata? triple = none := by
    apply Option.eq_none_iff_forall_ne_some.2
    intro metadata known
    have low := (settled.consumers triple metadata known).2
    omega
  have there : (run wired (before ++ [(record.collection, record.index)])).layers.Has
      triple.consumer := by
    obtain ⟨new, appended, ids⟩ := turn.turn.made.nodes_after
    rw [← ids] at member
    obtain ⟨node, fresh, same⟩ := List.mem_map.1 member
    have coherent :=
      (turn.turn.made.anchored_after ground.coherent settled.anchored).coherent
    refine ⟨node, ?_⟩
    rw [turn.layers_eq, ← same]
    exact Layered.node?_eq_some_iff.2 (.inl (NodeStore.node?_of_mem coherent
      (appended ▸ List.mem_append_right _ fresh)))
  obtain ⟨rest, rfl⟩ := turn.call
  have stays := run_metadata?_append grounded started
    (before ++ [(record.collection, record.index)]) rest there
  rw [List.append_assoc] at stays
  rw [show before ++ (record.collection, record.index) :: rest =
    before ++ ([(record.collection, record.index)] ++ rest) from rfl, stays, turn.reached]
  change after.graph.metadata? triple = _
  rw [turn.turn.made.metadata?_after ground.coherent settled.anchored, unseen, Option.none_or,
    Pass.batchOffer?, wired_run]
  simp [member]

/-- What stands in an iteration was made with it. -/
theorem mem_new {id : NodeId} {node : Node} (member : id ∈ batch record)
    (found : node? (run wired calls).layers id = some node) :
    node ∈ newNodes template (.ofTemplate template record.index) record.index
      (run wired before).overlay.nodes ∧ node.id = id := by
  obtain ⟨other, new, named, present⟩ := turn.turn.exists_node member
  have shown := (turn.turn.shows_complete (grounded_run grounded before)
    (settled_run grounded started before)).trans (turn.shown grounded started)
  cases (shown.node id other present).symm.trans found
  exact ⟨new, named⟩

end TurnOf

/-- What a pseudo-node of a request was made for is there. -/
theorem run_fillable (calls : List (NodeId × Nat)) {node : Node}
    (member : node ∈ (run wired calls).overlay.nodes.nodes) {definition : Pseudo}
    (isPseudo : node.kind = .pseudo definition) :
    Fillable (run wired calls).layers definition := by
  obtain ⟨_, record, _, isLocal, supplied, wanted⟩ := run_wanted grounded started member isPseudo
  obtain ⟨first, last, split, _⟩ := List.lookup_eq_some_iff.1 wanted
  have inside : (definition.toPseudoKey, definition.origin) ∈
      wantedBy (run wired calls).layers isLocal record := by simp [split]
  have seen : ∀ test, ∀ other ∈ readyNodes (run wired calls).layers record test,
      node? (run wired calls).layers other.id = some other := by
    intro test other ready
    obtain ⟨⟨id, _, found⟩, _⟩ := mem_readyNodes.1 ready
    rw [LawfulSource.id_of_node? _ _ _ found]
    exact found
  obtain ⟨⟨kind, step, key⟩, origin⟩ := definition
  obtain rfl : step = record.step := Synthesis.scope_of_wants inside
  refine ⟨?_, ?_⟩
  · rintro ⟨⟩
    obtain ⟨other, ready, field, isField, rfl, same⟩ := exists_field_of_wantedBy inside
    refine ⟨other.id, other, field, same, seen _ other ready, isField, ?_⟩
    refine supplied.has (⟨.post, record.step, field.code⟩, some other.id) ?_
    exact Synthesis.mem_wants.2 (.inl ⟨other, ready, Synthesis.mem_fieldWants.2
      ⟨field, isField, .inl rfl⟩⟩)
  · rintro ⟨⟩
    obtain ⟨other, ready, keyed, same⟩ := exists_repeated_of_wantedBy inside
    exact ⟨other.id, other, same, seen _ other ready, keyed⟩

/-- A node that is no pseudo-node is one of the form, or it stands in an iteration. -/
theorem run_node_cases (calls : List (NodeId × Nat)) {id : NodeId} {node : Node}
    (found : node? (run wired calls).layers id = some node) (plain : node.kind.pseudo? = none) :
    node? wired.form.nodes id = some node ∨
      ∃ record ∈ (run wired calls).iterations, id ∈ batch record := by
  have anchored := (settled_run grounded started calls).anchored
  rw [layers_run_eq] at found
  rcases Layered.node?_eq_some_iff.1 found with own | ⟨_, lower⟩
  · right
    obtain ⟨member, rfl⟩ := (NodeStore.node?_eq_some_iff anchored.coherent).1 own
    obtain ⟨before, after, template, complete, state, record, known, turn, inside, there⟩ :=
      exists_turn_of_mem grounded started member
    refine ⟨record, known, (List.mem_append.1 inside).resolve_right fun created => ?_⟩
    -- Whatever was made besides the iteration and its copies is a pseudo-node.
    obtain ⟨new, added⟩ := turn.turn.made.exists_added
    rw [added.created] at created
    obtain ⟨other, fresh, same⟩ := List.mem_map.1 created
    have settled := settled_run grounded started before
    have coherent := (turn.turn.made.anchored_after (grounded_run grounded before).coherent
      settled.anchored).coherent
    have nodes := added.nodes
    rw [← turn.turn.made.store] at nodes
    have present := NodeStore.node?_of_mem coherent (nodes ▸ List.mem_append_right _ fresh)
    rw [same, NodeStore.node?_of_mem coherent there] at present
    cases present
    obtain ⟨⟨definition, isPseudo⟩, _⟩ := added.each node fresh
    rw [isPseudo] at plain
    cases plain
  · exact .inl lower

/-- Nothing leads into a node that is neither a pseudo-node nor a reference. -/
theorem run_metadata?_eq_none (calls : List (NodeId × Nat)) {node : Node}
    (member : node ∈ (run wired calls).overlay.nodes.nodes) (plain : node.kind.pseudo? = none)
    (noReference : node.kind.reference? = none) {triple : Triple}
    (into : triple.consumer = node.id) :
    (run wired calls).overlay.graph.metadata? triple = none := by
  obtain ⟨before, after, template, complete, state, record, _, turn, inside, there⟩ :=
    exists_turn_of_mem grounded started member
  have coherent := (turn.turn.made.anchored_after (grounded_run grounded before).coherent
    (settled_run grounded started before).anchored).coherent
  have seen : node? (layersOver (run wired before).wired after) node.id = some node :=
    Layered.node?_eq_some_iff.2 (.inl (NodeStore.node?_of_mem coherent there))
  have solo : Pass.solo (layersOver (run wired before).wired after) wired.scopes wired.config
      node.id = [] := by
    rw [Pass.solo]
    split
    · exact Pass.single_other seen plain noReference
    · rfl
  rw [turn.metadata?_eq grounded started (into ▸ inside), into, solo, Draft.offer?_nil, ite_self]

end

/-! ## Pseudo-nodes of a request -/

section

variable {wired : WiredForm} (grounded : Grounded wired) (started : Settled (start wired))
  (calls : List (NodeId × Nat))
include grounded started

/-- A pseudo-node of the request is found under its identity. -/
theorem run_pseudo?_of_mem {node : Node} (member : node ∈ (run wired calls).overlay.nodes.nodes)
    {definition : Pseudo} (isPseudo : node.kind = .pseudo definition) :
    (run wired calls).layers.pseudo? definition.toPseudoKey = some node.id := by
  have coherent := (settled_run grounded started calls).anchored.coherent
  obtain ⟨absent, _⟩ := run_wanted grounded started member isPseudo
  have lower : wired.form.nodes.pseudo? definition.toPseudoKey = none :=
    Option.eq_none_iff_forall_ne_some.2 fun id found => absent ⟨id, found⟩
  rw [layers_run_eq, Layered.pseudo?, lower]
  exact (NodeStore.pseudo?_eq_some_iff coherent).2
    ⟨node, NodeStore.node?_of_mem coherent member, by rw [Node.identity?, isPseudo]; rfl⟩

/-- A pseudo-node that is found is one of the form or one of the request. -/
theorem run_pseudo?_cases {identity : PseudoKey} {id : NodeId}
    (found : (run wired calls).layers.pseudo? identity = some id) :
    wired.form.nodes.pseudo? identity = some id ∨
      ∃ node ∈ (run wired calls).overlay.nodes.nodes, node.id = id ∧
        ∃ definition, node.kind = .pseudo definition ∧ definition.toPseudoKey = identity := by
  have coherent := (settled_run grounded started calls).anchored.coherent
  rw [layers_run_eq, Layered.pseudo?] at found
  dsimp only at found
  cases lower : wired.form.nodes.pseudo? identity with
  | some other =>
    rw [lower] at found
    exact .inl found
  | none =>
    rw [lower] at found
    obtain ⟨node, present, identified⟩ := (NodeStore.pseudo?_eq_some_iff coherent).1 found
    obtain ⟨member, rfl⟩ := (NodeStore.node?_eq_some_iff coherent).1 present
    obtain ⟨definition, isPseudo, same⟩ := Option.map_eq_some_iff.1 identified
    exact .inr ⟨node, member, rfl, definition, NodeKind.pseudo?_eq_some_iff.1 isPseudo, same⟩

/-- No two identities are those of one pseudo-node. -/
theorem run_pseudo?_inj {identity other : PseudoKey} {id : NodeId}
    (found : (run wired calls).layers.pseudo? identity = some id)
    (again : (run wired calls).layers.pseudo? other = some id) : identity = other := by
  have coherent := (grounded_run grounded calls).coherent
  have anchored := (settled_run grounded started calls).anchored
  obtain ⟨node, present, identified⟩ := Layered.node?_of_pseudo? coherent anchored found
  obtain ⟨same, there, named⟩ := Layered.node?_of_pseudo? coherent anchored again
  cases present.symm.trans there
  exact Option.some.inj (identified.symm.trans named)

end

/-! ## Requests over a plain form -/

section

variable {form : Form} {config : WiringConfig} {wired : WiredForm}
  (registered : WiredForm.Registered form config wired) (coherent : form.nodes.Coherent)
  (plainForm : form.Plain)
include registered coherent plainForm

/-- Nothing but pseudo-nodes could stand in a pseudo-node. -/
theorem run_plain_parent (calls : List (NodeId × Nat)) {id parent : NodeId} {node outer : Node}
    (found : node? (run wired calls).layers id = some node) (plain : node.kind.pseudo? = none)
    (contained : node.parent = some parent)
    (present : node? (run wired calls).layers parent = some outer) : outer.kind.pseudo? = none := by
  have grounded := grounded_of_registered registered coherent plainForm
  have started := settled_start registered coherent plainForm
  rcases run_node_cases grounded started calls found plain with lower | ⟨record, known, inside⟩
  · have own := registered.mem_form coherent lower plain
    have member := List.mem_of_find?_eq_some (own : form.nodes.node? id = some node)
    obtain ⟨around, there⟩ :=
      Option.isSome_iff_exists.1 (plainForm.contained node member parent contained)
    have seen := (registered.grows coherent).shows.node parent around there
    cases ((shows_form grounded started calls).node _ _ seen).symm.trans present
    exact plainForm.pseudos outer (List.mem_of_find?_eq_some there)
  · obtain ⟨before, after, template, complete, state, turn⟩ := exists_turn grounded started known
    have ground := grounded_run grounded before
    have settled := settled_run grounded started before
    have made := turn.turn.made
    have shown := (turn.turn.shows_complete ground settled).trans (turn.shown grounded started)
    have new : ∀ other ∈ newNodes template (.ofTemplate template record.index) record.index
        (run wired before).overlay.nodes, other.id = parent → outer.kind.pseudo? = none := by
      rintro other member rfl
      cases (shown.node _ _ (made.node?_of_new member)).symm.trans present
      exact made.pseudo?_of_new ground.coherent settled.anchored settled.placed member
    obtain ⟨fresh, _⟩ := turn.mem_new grounded started inside found
    rcases List.mem_cons.1 fresh with rfl | copy
    · cases contained
      obtain ⟨top, definition, there, isCollection, _⟩ := made.iterable.collection
      have seen := shown.node _ _
        ((made.shows_complete ground.coherent settled.anchored).node _ _ there)
      cases seen.symm.trans present
      rw [isCollection]
      rfl
    · have hangs : Hangs (· = ⟨(run wired before).overlay.nodes.nextId⟩)
          (copiesOf template (.ofTemplate template record.index) record.index
            (run wired before).overlay.nodes) := copyNode_hangs made.iterable.listed _ _ _
      obtain ⟨first, last, split⟩ := List.append_of_mem copy
      obtain ⟨above, within, place⟩ := hangs first node last split
      cases contained.symm.trans within
      rcases place with rfl | earlier
      · exact new _ (List.mem_cons_self ..) rfl
      · obtain ⟨other, member, named⟩ := List.mem_map.1 earlier
        exact new other (List.mem_cons_of_mem _ (split ▸ List.mem_append_left _ member)) named

/-- **A pseudo-node of a request is filled by what would fill it now.** -/
theorem run_fills (calls : List (NodeId × Nat)) {node : Node}
    (member : node ∈ (run wired calls).overlay.nodes.nodes) {definition : Pseudo}
    (isPseudo : node.kind = .pseudo definition) {triple : Triple}
    (into : triple.consumer = node.id) :
    (run wired calls).overlay.graph.metadata? triple =
      (((run wired calls).context definition.scope).producers node.id definition).offer?
        triple := by
  have grounded := grounded_of_registered registered coherent plainForm
  have started := settled_start registered coherent plainForm
  have settled := settled_run grounded started calls
  obtain ⟨before, after, template, complete, state, record, known, turn, inside, fresh⟩ :=
    exists_turn_of_mem grounded started member
  -- The node as it was right after its turn.
  have layers := turn.layers_eq
  have settled' := settled_run grounded started
    (before ++ [(record.collection, record.index)])
  have shown := turn.shown grounded started
  have overlay : (run wired (before ++ [(record.collection, record.index)])).overlay = after := by
    rw [turn.reached]
  rw [← overlay] at fresh
  have seen := run_node?_of_mem grounded started _ fresh
  rw [layers] at seen
  have fillable := run_fillable grounded started _ fresh isPseudo
  rw [layers] at fillable
  obtain ⟨ready, solo⟩ := Pass.solo_pseudo wired.scopes wired.config seen isPseudo
  rw [turn.metadata?_eq grounded started (into ▸ inside), into, if_pos ready, solo]
  congr 1
  have placed : WellPlaced (layersOver (run wired before).wired after) :=
    layers ▸ settled'.placed
  have renumbers : Renumbering (layersOver (run wired before).wired after)
      (run wired calls).layers id := by
    refine shown.renumbering ?_
    rw [← layers]
    exact fun _ _ _ _ => run_plain_parent registered coherent plainForm _
  have identity : definition.toPseudoKey.Renumbered id definition.toPseudoKey := by
    refine ⟨rfl, rfl, fun _ => rfl, fun isItem => ?_⟩
    obtain ⟨collection, index, _, _, _, key, _⟩ := fillable.exists_collection
      ⟨layersOver (run wired before).wired after, wired.scopes, .none, definition.scope,
        wired.config⟩ node.id placed isItem
    exact ⟨collection, index, key, key⟩
  have whole := @WiringContext.producers_renumbered _ _
    ⟨layersOver (run wired before).wired after, wired.scopes, .none, definition.scope,
      wired.config⟩ ((run wired calls).context definition.scope) id
    (by rw [context, wired_run]) rfl (fun _ _ => rfl) node.id _ _ renumbers _ _ identity rfl fillable
    (fillable.later shown) placed settled.placed (by simp)
    (fun submitted found => shown.pseudo _ _ found)
  rw [Draft.renumber_id] at whole
  exact whole.symm

/-- **A reference of a request reads what it would read now**, unless it reads the remote answer to a
code that an iteration gave to a field later. Then it would read the local one now. -/
theorem run_reads (calls : List (NodeId × Nat)) {node : Node}
    (member : node ∈ (run wired calls).overlay.nodes.nodes) {step : NodeId} {expression : Reference}
    (isReference : node.kind = .reference expression)
    (owned : owningStep? (run wired calls).layers node.id = some step) :
    ∃ identity?, Reads (run wired calls) node.id expression identity? ∧
      (identity? = Pass.readOf? (run wired calls).layers (run wired calls).layers step node
          expression ∨
        ∃ code, identity? = some ⟨.answerRemote, step, code⟩ ∧
          Pass.readOf? (run wired calls).layers (run wired calls).layers step node expression =
            some ⟨.answerLocal, step, code⟩ ∧ (run wired calls).Claims step code) := by
  have grounded := grounded_of_registered registered coherent plainForm
  have started := settled_start registered coherent plainForm
  have settled := settled_run grounded started calls
  obtain ⟨birth, born, connected⟩ := run_connected grounded started
    (fun _ _ _ _ => connected_start registered coherent plainForm) calls
    (run_node?_of_mem grounded started calls member) isReference owned
  have more := (run_shows grounded started (calls.take birth) (calls.drop birth))
  rw [List.take_append_drop] at more
  have joined : ∀ triple, triple.consumer = node.id → (run wired calls).joined.metadata? triple =
      (run wired calls).overlay.graph.metadata? triple := by
    intro triple into
    have lower : (run wired calls).wired.graph.metadata? triple = none := by
      apply Option.eq_none_iff_forall_ne_some.2
      intro metadata known
      have low := (grounded_run grounded calls).consumers triple metadata known
      have high := settled.anchored.high node member
      rw [into] at low
      omega
    rw [metadata?_joined, lower, Option.none_or]
  refine ⟨_, ⟨connected.present, fun triple metadata into => joined triple into ▸
    connected.connections triple metadata into⟩, ?_⟩
  rcases Pass.readOf?_or_remote (fun _ has => more.hasPseudo has) (run wired calls).layers step node
    expression with same | ⟨code, remote, reads, unseen, has⟩
  · exact .inl same.symm
  · refine .inr ⟨code, remote, reads,
      ((run_local_iff grounded started calls step code).1 has).resolve_left fun lower => ?_⟩
    exact unseen ((shows_form grounded started _).hasPseudo lower)

end

end RequestScope

end FormFlow
