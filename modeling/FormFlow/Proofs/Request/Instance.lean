import FormFlow.Proofs.Request.Layers
import FormFlow.Proofs.Wiring.PlainForm

/-!
# What an iteration adds to a request

An attempt that succeeds puts the iteration and the copies of the template behind the nodes of
the request, then the pseudo-nodes for them, and wires all of these (`RequestScope.build_spec`).
-/

set_option autoImplicit false

namespace FormFlow

open NodeSource

namespace RequestScope

variable {wired : WiredForm} {overlay : Overlay}

/-- A template of a collection that belongs to no open template. -/
structure Iterable (layers : Layered) (template : Template) : Prop where
  collection : ∃ outer definition, node? layers template.collection = some outer ∧
    outer.kind = .collection definition ∧ inOpenTemplate layers outer = false
  step : owningStep? layers template.collection = some template.step
  listed : Template.Listed layers (layers.holder template.collection) template.collection
    template.nodes

/-- The iteration and the copies. -/
def newNodes (template : Template) (scheme : Renaming) (index : Nat) (store : NodeStore) :
    List Node :=
  iterationNode template index store :: copiesOf template scheme index store

/-- The identifiers of the iteration and the copies. -/
def batchOf (template : Template) (scheme : Renaming) (index : Nat) (store : NodeStore) :
    List NodeId :=
  (newNodes template scheme index store).map Node.id

/-- The pass over the iteration, the copies and the pseudo-nodes that were made for them. -/
def passOf (wired : WiredForm) (overlay : Overlay) (batch : List NodeId)
    (state : Synthesis.State Layered) : PassResult :=
  Pass.wireNodes state.nodes wired.scopes wired.config (batch ++ state.created) overlay.graph

/-- What an attempt to make an iteration has put together: the iteration and the copies in
`complete`, the pseudo-nodes in `state`, and the edges in `after`. -/
structure Assembled (wired : WiredForm) (overlay after : Overlay) (template : Template)
    (scheme : Renaming) (index : Nat) (complete : NodeStore) (state : Synthesis.State Layered) :
    Prop where
  iterable : Iterable (layersOver wired overlay) template
  nodes : complete.nodes = overlay.nodes.nodes ++ newNodes template scheme index overlay.nodes
  anchored : wired.form.nodes.Anchored complete
  grows : NodeStore.Grows overlay.nodes.nextId overlay.nodes complete
  ran : Synthesis.runBatch (⟨wired.form.nodes, complete⟩ : Layered) template.step
    (batchOf template scheme index overlay.nodes) = .ok state
  store : after.nodes = state.nodes.overlay
  graph : after.graph = (passOf wired overlay (batchOf template scheme index overlay.nodes)
    state).graph

/-- What an attempt that succeeds has made: the wiring of what it put together reports. -/
structure Instance (wired : WiredForm) (overlay after : Overlay) (template : Template)
    (scheme : Renaming) (index : Nat) (complete : NodeStore) (state : Synthesis.State Layered) :
    Prop extends Assembled wired overlay after template scheme index complete state where
  reports : ∃ report,
    (passOf wired overlay (batchOf template scheme index overlay.nodes) state).report = .ok report

/-- What is recorded of an iteration. -/
structure Recorded (record : Iteration) (template : Template) (scheme : Renaming) (index : Nat)
    (store : NodeStore) : Prop where
  node : record.node = ⟨store.nextId⟩
  collection : record.collection = template.collection
  step : record.step = template.step
  nodes : record.nodes = (copiesOf template scheme index store).map Node.id
  renamed : record.renamed = scheme.fields
  index : record.index = index

/-- What is recorded of the wiring of an iteration. -/
structure Reported (record : Iteration) (wired : WiredForm) (overlay : Overlay)
    (batch : List NodeId) (state : Synthesis.State Layered) : Prop where
  pseudoNodes : record.pseudoNodes = state.created
  report : (passOf wired overlay batch state).report = .ok record.report

/-- Once the pseudo-nodes are made, what comes of an attempt is decided by the report. -/
theorem connect_eq {template : Template} {iteration : NodeId} {copies : List NodeId}
    {state : Synthesis.State Layered}
    (ran : Synthesis.makeBatch .endless (layersOver wired overlay) template.step
      (iteration :: copies) = .ok state) (scheme : Renaming) (index : Nat) :
    connect wired template scheme index iteration copies overlay =
      ⟨⟨state.nodes.overlay, (passOf wired overlay (iteration :: copies) state).graph⟩,
        ((passOf wired overlay (iteration :: copies) state).report.mapError .wiring).map
          fun report => {
            node := iteration
            collection := template.collection
            index := index
            step := template.step
            nodes := copies
            pseudoNodes := state.created
            renamed := scheme.fields
            report := report }⟩ := by
  unfold connect passOf
  dsimp only [List.cons_append]
  rw [ran]
  dsimp only
  cases (Pass.wireNodes state.nodes wired.scopes wired.config
    (iteration :: (copies ++ state.created)) overlay.graph).report <;> rfl

theorem connect_spec {template : Template} {scheme : Renaming} {index : Nat} {iteration : NodeId}
    {copies : List NodeId} {made : Iteration}
    (succeeded : (connect wired template scheme index iteration copies overlay).result = .ok made) :
    (∃ state, Synthesis.runBatch (layersOver wired overlay) template.step (iteration :: copies) =
        .ok state ∧
      (connect wired template scheme index iteration copies overlay).overlay =
        ⟨state.nodes.overlay, (passOf wired overlay (iteration :: copies) state).graph⟩ ∧
      Reported made wired overlay (iteration :: copies) state) ∧
    made.node = iteration ∧ made.collection = template.collection ∧ made.index = index ∧
      made.step = template.step ∧ made.nodes = copies ∧ made.renamed = scheme.fields := by
  cases ran : Synthesis.makeBatch .endless (layersOver wired overlay) template.step
    (iteration :: copies) with
  | error error =>
    unfold connect at succeeded
    dsimp only at succeeded
    rw [ran] at succeeded
    cases succeeded
  | ok state =>
    rw [connect_eq ran] at succeeded ⊢
    obtain ⟨report, reported, same⟩ := Except.map_eq_ok_iff.1 succeeded
    rw [← same]
    exact ⟨⟨state, Synthesis.makeBatch_endless ran, rfl, rfl, Except.mapError_eq_ok_iff.1 reported⟩, rfl, rfl, rfl, rfl, rfl, rfl⟩

/-- An attempt that succeeds has made an iteration of the template that was read, and records it.
No new code was that of a local answer. -/
theorem build_made (coherent : wired.form.nodes.Coherent)
    (anchored : wired.form.nodes.Anchored overlay.nodes) {collection : NodeId} {index : Nat}
    {template : Template} {made : Iteration}
    (read : Template.read (layersOver wired overlay) wired.scopes collection = .ok template)
    (succeeded : (build wired overlay collection index).result = .ok made) :
    (∃ complete state, Instance wired overlay (build wired overlay collection index).overlay
        template (.ofTemplate template index) index complete state ∧
      Reported made wired overlay
        (batchOf template (.ofTemplate template index) index overlay.nodes) state) ∧
    Recorded made template (.ofTemplate template index) index overlay.nodes ∧
    collision? (layersOver wired overlay) template.step (.ofTemplate template index) = none := by
  unfold build at succeeded ⊢
  dsimp only at succeeded ⊢
  rw [read] at succeeded ⊢
  dsimp only at succeeded ⊢
  obtain ⟨outer, definition, present, isCollection, closed, owned, _, rfl, _, listed⟩ :=
    Template.read_spec coherent anchored.coherent read
  cases collides : collision? (layersOver wired overlay) template.step
    (.ofTemplate template index) with
  | some code =>
    rw [collides] at succeeded
    cases succeeded
  | none =>
    rw [collides] at succeeded
    dsimp only at succeeded ⊢
    generalize Renaming.ofTemplate template index = scheme at succeeded ⊢
    cases free : overlay.nodes.conflict? (iterationNode template index overlay.nodes) with
    | some error =>
      rw [copyTemplate_of_conflict free] at succeeded
      cases succeeded
    | none =>
      rw [copyTemplate_of_free free] at succeeded ⊢
      cases run : insertAll (copiesOf template scheme index overlay.nodes)
        (overlay.nodes.push (iterationNode template index overlay.nodes)) with
      | mk complete failure =>
        rw [run] at succeeded
        obtain ⟨inner, grown, all⟩ := copies_anchored coherent anchored ⟨outer, present⟩ listed
          scheme index free run
        cases failure with
        | some error => cases succeeded
        | none =>
          obtain ⟨⟨state, ran, reached, reported⟩, node, collection, index, step, copied, renamed⟩ :=
            connect_spec succeeded
          refine ⟨⟨complete, state, ?_, reported.pseudoNodes, reported.report⟩,
            ⟨node, collection, step, copied, renamed, index⟩, rfl⟩
          dsimp only
          exact
            { iterable := ⟨⟨outer, definition, present, isCollection, closed⟩, owned, listed⟩
              nodes := all rfl
              anchored := inner
              grows := grown
              ran := ran
              store := by rw [reached]
              graph := by rw [reached]; rfl
              reports := ⟨made.report, reported.report⟩ }

/-- An attempt that succeeds has made an iteration. -/
theorem build_spec (coherent : wired.form.nodes.Coherent)
    (anchored : wired.form.nodes.Anchored overlay.nodes) {collection : NodeId} {index : Nat}
    {made : Iteration} (succeeded : (build wired overlay collection index).result = .ok made) :
    ∃ template scheme complete state,
      Instance wired overlay (build wired overlay collection index).overlay template scheme index
        complete state := by
  cases read : Template.read (layersOver wired overlay) wired.scopes collection with
  | error error =>
    unfold build at succeeded
    dsimp only at succeeded
    rw [read] at succeeded
    cases succeeded
  | ok template =>
    obtain ⟨⟨complete, state, finished, _⟩, _⟩ := build_made coherent anchored read succeeded
    exact ⟨template, _, complete, state, finished⟩

end RequestScope

end FormFlow
