import FormFlow.Proofs.Request.Flow
import FormFlow.Proofs.Wiring.Sequence

/-!
# The order in which a request is connected

An iteration fills only pseudo-nodes that it has made itself, but it may add readers to pseudo-nodes
that were there before. So no call fills a pseudo-node that an earlier connection has let a
reference read, and within a call what fills comes first anyway (`RequestScope.run_sequenced`).

What does not read a pseudo-node but takes a value from it all the same is a local answer, and the
pseudo-node is then a submitted value, which nothing fills. Hence in the edges of the form and of
the request, one after the other, everything that leads into a pseudo-node stands in front of
everything that comes from it (`RequestScope.filled_before_read`).
-/

set_option autoImplicit false

namespace FormFlow

open NodeSource

/-- Edges in which everything that leads into a node stands in front of everything that comes from
it. -/
def FilledFirst (edges : List Edge) (id : NodeId) : Prop :=
  ∀ (i j : Nat) (into out : Edge), edges[i]? = some into → edges[j]? = some out →
    into.consumer = id → out.producer = id → i < j

namespace RequestScope

/-- The connections that an iteration adds are in order, and they lead into nodes that it has
made. -/
theorem Instance.connections_after {wired : WiredForm} {overlay after : Overlay}
    {template : Template} {scheme : Renaming} {index : Nat} {complete : NodeStore}
    {state : Synthesis.State Layered}
    (made : Instance wired overlay after template scheme index complete state)
    (coherent : wired.form.nodes.Coherent) (anchored : wired.form.nodes.Anchored overlay.nodes)
    (distinct : overlay.graph.triples.Nodup) :
    ∃ new : List (Triple × EdgeMetadata),
      after.graph.connections = overlay.graph.connections ++ new ∧ new.Pairwise InOrder ∧
        ∀ connection ∈ new, overlay.nodes.nextId ≤ connection.1.consumer.val := by
  have locating : ∀ step, (⟨state.nodes, wired.scopes, .none, step, wired.config⟩ :
      WiringContext Layered).Locating := by
    intro step kind key id found
    rw [← made.layers_eq coherent anchored] at found ⊢
    obtain ⟨node, present, identified⟩ := Layered.node?_of_pseudo? coherent
      (made.anchored_after coherent anchored) found
    obtain ⟨definition, isPseudo, same⟩ := Option.map_eq_some_iff.1 identified
    exact ⟨definition, ⟨Option.bind_eq_some_iff.2 ⟨node, present, isPseudo⟩,
      congrArg PseudoKey.scope same⟩, congrArg PseudoKey.kind same⟩
  obtain ⟨report, reported⟩ := made.reports
  obtain ⟨new, wiring, ordered⟩ := Pass.sequenced_wireNodes locating reported
  refine ⟨new, made.graph ▸ wiring, ordered, fun connection member => ?_⟩
  obtain ⟨edges, grown⟩ := made.edges_after
  have same : new = edges.map fun edge => (edge.triple, edge.metadata) := by
    have both : overlay.graph.connections ++ new =
        overlay.graph.connections ++ edges.map fun edge => (edge.triple, edge.metadata) := by
      rw [← wiring]
      change (passOf _ _ _ _).graph.connections = _
      rw [← made.graph, grown]
      exact List.map_append
    exact List.append_cancel_left both
  rw [same] at member
  obtain ⟨edge, inside, rfl⟩ := List.mem_map.1 member
  exact (made.mem_batch coherent anchored
    (made.consumer_of_new coherent anchored distinct (by rw [grown]) edge inside)).1

section

variable {form : Form} {config : WiringConfig} {wired : WiredForm}
  (registered : WiredForm.Registered form config wired) (coherent : form.nodes.Coherent)
  (plain : form.Plain)
include registered coherent plain

/-- What a reference reads is there when the connection is made. -/
theorem has_of_reading (calls : List (NodeId × Nat)) {edge : Edge}
    (member : edge ∈ (run wired calls).joined.edges) (isRead : edge.metadata.reference ≠ none) :
    (run wired calls).layers.Has edge.producer := by
  cases run_enters registered coherent plain calls member with
  | fills _ _ _ _ _ _ silent => exact absurd silent isRead
  | reads node expression step found isReference owned =>
    obtain ⟨_, source, _, present, _⟩ :=
      run_reading registered coherent plain calls member found isReference owned
    exact ⟨source, present⟩

/-- **No call fills what a reference reads already.** -/
theorem run_sequenced (calls : List (NodeId × Nat)) :
    (run wired calls).joined.connections.Pairwise InOrder := by
  have grounded := grounded_of_registered registered coherent plain
  have started := settled_start registered coherent plain
  induction calls using List.reverseRecOn with
  | nil =>
    have same : (run wired []).joined.connections = wired.graph.connections :=
      congrArg (List.map _) (List.append_nil _)
    rw [same]
    exact registered.sequenced coherent
  | append_singleton calls call ih =>
    have settled := settled_run grounded started calls
    have ground := grounded_run grounded calls
    rw [run_concat]
    rcases settled.materialize_cases ground call.1 call.2 with
      same | ⟨after, template, scheme, complete, state, iterations, made, done⟩
    · rwa [same]
    obtain ⟨new, grown, ordered, high⟩ :=
      made.connections_after ground.coherent settled.anchored settled.distinct
    have joined : ({ run wired calls with overlay := after, iterations } :
        RequestScope).joined.connections = (run wired calls).joined.connections ++ new := by
      have both : ∀ request : RequestScope, request.joined.connections =
          request.wired.graph.connections ++ request.overlay.graph.connections :=
        fun _ => List.map_append
      rw [both, both, grown, List.append_assoc]
    rw [done, joined]
    refine List.pairwise_append.2 ⟨ih, ordered, ?_⟩
    -- What was read before has a lower number than whatever the iteration has made.
    rintro _ earlier later inNew isRead - same
    obtain ⟨edge, member, rfl⟩ := List.mem_map.1 earlier
    have there := has_of_reading registered coherent plain calls member isRead
    have low := settled.anchored.lt_nextId ground.coherent there
    have above := high later inNew
    rw [same] at above
    exact absurd low (Nat.not_lt_of_le above)

/-- Whatever leads into a pseudo-node fills it, and the pseudo-node is no submitted value. -/
theorem run_into_pseudo (calls : List (NodeId × Nat)) {edge : Edge}
    (member : edge ∈ (run wired calls).joined.edges) {node : Node} {definition : Pseudo}
    (found : (run wired calls).layers.node? edge.consumer = some node)
    (isPseudo : node.kind = .pseudo definition) :
    edge.metadata.reference = none ∧ definition.kind ≠ .post := by
  cases run_enters registered coherent plain calls member with
  | fills target other present isTarget produced _ silent =>
    cases found.symm.trans present
    cases isPseudo.symm.trans isTarget
    exact ⟨silent, produced⟩
  | reads target expression step present isReference _ =>
    cases found.symm.trans present
    cases isPseudo.symm.trans isReference

/-- Whatever comes from a pseudo-node that is no submitted value is read by a reference. -/
theorem run_from_pseudo
    (linked : ∀ node ∈ form.nodes.nodes, ∀ id ∈ node.kind.valueIds, form.nodes.contains id = true)
    (calls : List (NodeId × Nat)) {edge : Edge} (member : edge ∈ (run wired calls).joined.edges)
    {node : Node} {definition : Pseudo}
    (found : (run wired calls).layers.node? edge.producer = some node)
    (isPseudo : node.kind = .pseudo definition) (produced : definition.kind ≠ .post) :
    edge.metadata.reference ≠ none := by
  cases run_enters registered coherent plain calls member with
  | fills _ other _ _ _ filled _ =>
    -- No field or collection of a plain form takes a value from a pseudo-node.
    have bounds := NodeKind.stage_bounds (NodeKind.pseudo?_eq_some_iff.2 isPseudo)
    obtain ⟨source, there, way⟩ :=
      run_filled registered coherent plain (plain.takesFrom linked) calls filled
    cases found.symm.trans there
    rcases way with starts | ⟨_, submitted, isSubmitted, isPost⟩ | ⟨_, stage⟩
    · omega
    · cases isPseudo.symm.trans isSubmitted
      exact absurd isPost produced
    · omega
  | reads target expression step present isReference owned =>
    exact (run_reading registered coherent plain calls member present isReference owned).1

end

/-- **Producers are wired before consumers.** If the formatters, default values and sources of a
plain form are there, then for every pseudo-node of a request over it, whatever fills the
pseudo-node stands in front of whatever takes a value from it. -/
theorem filled_before_read {form : Form} {config : WiringConfig} {wired : WiredForm}
    (built : form.Built) (plain : form.Plain)
    (linked : ∀ node ∈ form.nodes.nodes, ∀ id ∈ node.kind.valueIds, form.nodes.contains id = true)
    (wiring : WiredForm.wire form config = .ok wired) {request : RequestScope}
    (reached : Reachable wired request) {id : NodeId} {node : Node} {definition : Pseudo}
    (found : request.layers.node? id = some node) (isPseudo : node.kind = .pseudo definition) :
    FilledFirst (wired.graph.edges ++ request.overlay.graph.edges) id := by
  have registered := WiredForm.wire_spec wiring
  have coherent := built.coherent
  obtain ⟨calls, same⟩ := reached.exists_calls
  have edges : wired.graph.edges ++ request.overlay.graph.edges =
      (run wired calls).joined.edges := by
    rw [same, joined, wired_run]
  replace found : (run wired calls).layers.node? id = some node := by
    rw [same] at found
    exact found
  rw [edges]
  rintro i j into out atInto atOut rfl leaves
  have inside := List.mem_of_getElem? atInto
  obtain ⟨silent, produced⟩ := run_into_pseudo registered coherent plain calls inside found isPseudo
  have isRead := run_from_pseudo registered coherent plain linked calls (List.mem_of_getElem? atOut)
    (leaves ▸ found) isPseudo produced
  have ordered := List.pairwise_map.1 (run_sequenced registered coherent plain calls)
  rw [List.pairwise_iff_getElem] at ordered
  obtain ⟨below, rfl⟩ := List.getElem?_eq_some_iff.1 atInto
  obtain ⟨under, rfl⟩ := List.getElem?_eq_some_iff.1 atOut
  rcases Nat.lt_trichotomy i j with before | rfl | behind
  · exact before
  · exact absurd silent isRead
  · exact absurd leaves.symm (ordered j i under below behind isRead silent)

/-! ### An answer that later legs read

The answer to "start" is filled by a literal when the form is wired, and read by every leg. -/

namespace Walks

def form : Form :=
  ⟨"walk", {
    nodes := [
      ⟨⟨0⟩, none, .journey "walk"⟩,
      ⟨⟨1⟩, some ⟨0⟩, .step "/legs"⟩,
      ⟨⟨2⟩, some ⟨1⟩, .field ⟨"start", "text", [], some ⟨3⟩⟩⟩,
      ⟨⟨3⟩, some ⟨2⟩, .literal (.str "Oslo")⟩,
      ⟨⟨4⟩, some ⟨1⟩, .collection ⟨"leg", none⟩⟩,
      ⟨⟨5⟩, some ⟨4⟩, .reference ⟨["answers", "start"]⟩⟩]
    containment := [(⟨0⟩, ⟨1⟩), (⟨1⟩, ⟨2⟩), (⟨2⟩, ⟨3⟩), (⟨1⟩, ⟨4⟩), (⟨4⟩, ⟨5⟩)]
    references := [⟨5⟩]
    identities := []
    nextId := 6 }⟩

theorem built : form.Built := by
  have journey := Form.Built.addJourney (.empty "walk")
    (rfl : Form.addJourney _ none "walk" = .ok (_, ⟨0⟩))
  have step := journey.addStep (rfl : Form.addStep _ ⟨0⟩ "/legs" = .ok (_, ⟨1⟩))
  have field := step.addField (rfl : Form.addField _ ⟨1⟩ "start" "text" = .ok (_, ⟨2⟩))
  have literal := field.addLiteral
    (rfl : Form.addLiteral _ ⟨2⟩ (.str "Oslo") = .ok (_, ⟨3⟩))
  have collection := literal.addCollection
    (rfl : Form.addCollection _ ⟨1⟩ "leg" none = .ok (_, ⟨4⟩))
  have reference := collection.addReference
    (rfl : Form.addReference _ ⟨4⟩ ["answers", "start"] = .ok (_, ⟨5⟩))
  exact reference.setDefaultValue (rfl : Form.setDefaultValue _ ⟨2⟩ ⟨3⟩ = .ok _)

theorem plain : form.Plain :=
  .ofNodes NodeId.val (by decide) (by decide) (by decide) (by decide) (by decide)

def wired : WiredForm := (WiredForm.wire form .default).toOption.getD default

/-- The request after two legs. -/
def second : RequestScope := (((start wired).materialize ⟨4⟩ 0).1.materialize ⟨4⟩ 1).1

/-- The edges into the answer are the first ones, the copies of the legs read it later. -/
theorem start_filled_first :
    (wired.graph.edges ++ second.overlay.graph.edges).map
        (fun edge => (edge.producer.val, edge.consumer.val)) = [(6, 7), (3, 7), (7, 10), (7, 13)] ∧
      FilledFirst (wired.graph.edges ++ second.overlay.graph.edges) ⟨7⟩ :=
  ⟨rfl, filled_before_read built plain (by decide)
    (rfl : WiredForm.wire form .default = .ok wired)
    (.materialize ⟨4⟩ 1 (.materialize ⟨4⟩ 0 .start)) (rfl : second.layers.node? ⟨7⟩ = some _) rfl⟩

end Walks

end RequestScope

end FormFlow
