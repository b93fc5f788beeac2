import FormFlow.Proofs.Graph.Numbering
import FormFlow.Proofs.Request.Connection

/-!
# What a call leaves as it is

A call puts nodes and edges behind those of a request, and its edges lead into its own nodes
(`RequestScope.Instance.consumer_of_new`). A node that was there is therefore read as before, and
nothing new leads into it; it may only come to serve the new nodes
(`RequestScope.materialize_isolated`).

This needs no more of the form than that it was wired. The requests over it are stacked
(`RequestScope.Stacked`): nodes and edges of a request lie above those of the form, and its edges
lead into its nodes. A call keeps them stacked (`RequestScope.Stacked.materialize`), so all that
are reached are (`RequestScope.Reachable.stacked`).
-/

set_option autoImplicit false

namespace FormFlow

open NodeSource

/-! ## Graphs with further edges -/

namespace DependencyGraph

variable {graph later : DependencyGraph} {new : List Edge} (edges : later.edges = graph.edges ++ new)
include edges

/-- Edges that lead elsewhere leave the edges into a node as they are. -/
theorem edgesTo_of_append {id : NodeId} (elsewhere : ∀ edge ∈ new, edge.consumer ≠ id) :
    later.edgesTo id = graph.edgesTo id := by
  have none : new.filter (fun edge => decide (edge.consumer = id)) = [] :=
    List.filter_eq_nil_iff.2 fun edge member => by simpa using elsewhere edge member
  rw [edgesTo, edges, List.filter_append, none, List.append_nil]
  rfl

theorem edgesFrom_of_append (id : NodeId) :
    later.edgesFrom id = graph.edgesFrom id ++ new.filter fun edge => edge.producer = id := by
  rw [edgesFrom, edges, List.filter_append]
  rfl

end DependencyGraph

namespace RequestScope

/-! ## What an iteration adds -/

namespace Instance

variable {wired : WiredForm} {overlay after : Overlay} {template : Template} {scheme : Renaming}
  {index : Nat} {complete : NodeStore} {state : Synthesis.State Layered}
  (made : Instance wired overlay after template scheme index complete state)
include made

/-- The overlay afterwards has the nodes of the batch behind the earlier ones. -/
theorem nodes_after : ∃ new, after.nodes.nodes = overlay.nodes.nodes ++ new ∧
    new.map Node.id = batchOf template scheme index overlay.nodes ++ state.created := by
  obtain ⟨created, added⟩ := made.exists_added
  refine ⟨newNodes template scheme index overlay.nodes ++ created, ?_, ?_⟩
  · rw [made.store, added.nodes, ← List.append_assoc]
    exact congrArg (· ++ created) made.nodes
  · rw [List.map_append, added.created]
    rfl

/-- The overlay afterwards has further edges behind the earlier ones. -/
theorem edges_after : ∃ new, after.graph = { overlay.graph with
    edges := overlay.graph.edges ++ new } := by
  rw [made.graph]
  exact exists_wireNodes ..

theorem numbered_after (numbered : overlay.graph.Numbered) : after.graph.Numbered := by
  rw [made.graph, passOf]
  simp only [Pass.wireNodes]
  split
  · exact numbered
  · rw [PassResult.graph_ofDraft]
    exact Draft.numbered_applyTo _ numbered

/-- An edge that was added leads into a node of the batch. -/
theorem consumer_of_new (coherent : wired.form.nodes.Coherent)
    (anchored : wired.form.nodes.Anchored overlay.nodes)
    (distinct : overlay.graph.triples.Nodup) {new : List Edge}
    (edges : after.graph.edges = overlay.graph.edges ++ new) :
    ∀ edge ∈ new, edge.consumer ∈ batchOf template scheme index overlay.nodes ++ state.created := by
  intro edge member
  have inside : edge.triple ∈ after.graph.triples :=
    List.mem_map_of_mem (edges ▸ List.mem_append_right _ member)
  have outside : overlay.graph.metadata? edge.triple = none := by
    apply Option.eq_none_iff_forall_ne_some.2
    intro metadata known
    have once := made.nodup_after distinct
    rw [DependencyGraph.triples, edges, List.map_append] at once
    exact (List.nodup_append.1 once).2.2 _ (DependencyGraph.mem_triples_iff.2 ⟨metadata, known⟩) _
      (List.mem_map_of_mem member) rfl
  obtain ⟨metadata, found⟩ := DependencyGraph.mem_triples_iff.1 inside
  rw [made.metadata?_after coherent anchored, outside, Option.none_or, Pass.batchOffer?] at found
  split at found
  · rename_i within
    exact within.1
  · cases found

end Instance

/-! ## Requests over any form -/

/-- The nodes and edges of a request lie above those of its form. Its edges repeat no connection,
are numbered in order, and lead into its own nodes. -/
structure Stacked (request : RequestScope) : Prop where
  anchored : request.wired.form.nodes.Anchored request.overlay.nodes
  distinct : request.overlay.graph.triples.Nodup
  numbered : request.overlay.graph.Numbered
  next : request.overlay.graph.firstId = request.wired.graph.nextId
  consumers : ∀ edge ∈ request.overlay.graph.edges,
    edge.consumer ∈ request.overlay.nodes.nodes.map Node.id

theorem stacked_start (wired : WiredForm) : Stacked (start wired) where
  anchored := NodeStore.anchored_startingAt _
  distinct := List.nodup_nil
  numbered := DependencyGraph.numbered_startingAt _
  next := rfl
  consumers := nofun

/-- What a call leaves as it is: it has put nodes and edges behind those of the request, and the
edges lead into these nodes. -/
structure Isolated (before after : RequestScope) (made : List Node) (added : List Edge) :
    Prop where
  wired : after.wired = before.wired
  answers : after.answers = before.answers
  nodes : after.overlay.nodes.nodes = before.overlay.nodes.nodes ++ made
  edges : after.overlay.graph.edges = before.overlay.graph.edges ++ added
  nodesAbove : ∀ node ∈ made, before.overlay.nodes.nextId ≤ node.id.val
  edgesAbove : ∀ edge ∈ added, before.overlay.graph.nextId ≤ edge.id.val
  consumers : ∀ edge ∈ added, edge.consumer ∈ made.map Node.id
  shown : Shows before.layers after.layers
  edgesTo : ∀ id, before.layers.Has id → after.edgesTo id = before.edgesTo id
  edgesFrom : ∀ id, after.edgesFrom id =
    before.edgesFrom id ++ added.filter fun edge => edge.producer = id
  iteration : ∀ collection index record, before.iteration? collection index = some record →
    after.iteration? collection index = some record

theorem Isolated.refl (request : RequestScope) : Isolated request request [] [] where
  wired := rfl
  answers := rfl
  nodes := by simp
  edges := by simp
  nodesAbove := nofun
  edgesAbove := nofun
  consumers := nofun
  shown := .refl _
  edgesTo := fun _ _ => rfl
  edgesFrom := by simp
  iteration := fun _ _ _ => id

section

variable {request : RequestScope} (coherent : request.wired.form.nodes.Coherent)
include coherent

/-- A call keeps a request stacked. -/
theorem Stacked.materialize (stacked : Stacked request) (collection : NodeId) (index : Nat) :
    Stacked (request.materialize collection index).1 := by
  rcases instance_cases coherent stacked.anchored collection index with
    same | ⟨after, template, scheme, complete, state, record, made, done⟩
  · rw [same]
    exact stacked
  · rw [done]
    obtain ⟨nodes, appended, batch⟩ := made.nodes_after
    obtain ⟨edges, extended⟩ := made.edges_after
    have all : after.graph.edges = request.overlay.graph.edges ++ edges := by rw [extended]
    refine
      { anchored := made.anchored_after coherent stacked.anchored
        distinct := made.nodup_after stacked.distinct
        numbered := made.numbered_after stacked.numbered
        next := ?_
        consumers := ?_ }
    · change after.graph.firstId = _
      rw [extended]
      exact stacked.next
    · intro edge member
      change edge ∈ after.graph.edges at member
      change edge.consumer ∈ after.nodes.nodes.map Node.id
      rw [appended, List.map_append, List.mem_append]
      rw [all] at member
      apply (List.mem_append.1 member).imp (stacked.consumers edge)
      intro new
      rw [batch]
      exact made.consumer_of_new coherent stacked.anchored stacked.distinct all edge new

/-- What a call on a stacked request leaves as it is. -/
theorem Stacked.isolated (stacked : Stacked request) (collection : NodeId) (index : Nat) :
    ∃ made added, Isolated request (request.materialize collection index).1 made added := by
  rcases instance_cases coherent stacked.anchored collection index with
    same | ⟨after, template, scheme, complete, state, record, made, done⟩
  · rw [same]
    exact ⟨[], [], .refl request⟩
  · rw [done]
    have anchored := stacked.anchored
    obtain ⟨nodes, appended, batch⟩ := made.nodes_after
    obtain ⟨edges, extended⟩ := made.edges_after
    have all : after.graph.edges = request.overlay.graph.edges ++ edges := by rw [extended]
    have consumers := made.consumer_of_new coherent anchored stacked.distinct all
    have numbered := made.numbered_after stacked.numbered
    rw [extended] at numbered
    refine ⟨nodes, edges, ?_⟩
    refine
      { wired := rfl
        answers := rfl
        nodes := appended
        edges := all
        nodesAbove := ?_
        edgesAbove := (DependencyGraph.countUp_append.1 numbered).2.le
        consumers := fun edge member => batch ▸ consumers edge member
        shown := made.shows_after coherent anchored
        edgesTo := ?_
        edgesFrom := ?_
        iteration := ?_ }
    · intro node member
      exact (made.mem_batch coherent anchored (batch ▸ List.mem_map_of_mem member)).1
    · intro id has
      have low := anchored.lt_nextId coherent has
      have elsewhere : ∀ edge ∈ edges, edge.consumer ≠ id := by
        rintro edge member rfl
        have high := (made.mem_batch coherent anchored (consumers edge member)).1
        omega
      exact congrArg _ (DependencyGraph.edgesTo_of_append all elsewhere)
    · intro id
      change request.wired.graph.edgesFrom id ++ after.graph.edgesFrom id = _
      rw [DependencyGraph.edgesFrom_of_append all, ← List.append_assoc]
      rfl
    · intro collection index known found
      simp only [iteration?, List.find?_append] at found ⊢
      rw [found]
      rfl

end

theorem Reachable.stacked {wired : WiredForm} (coherent : wired.form.nodes.Coherent)
    {request : RequestScope} (reached : Reachable wired request) :
    request.wired = wired ∧ Stacked request := by
  induction reached with
  | start => exact ⟨rfl, stacked_start wired⟩
  | @materialize request collection index _ ih =>
    obtain ⟨rfl, stacked⟩ := ih
    refine ⟨?_, stacked.materialize coherent collection index⟩
    obtain ⟨_, _, isolated⟩ := stacked.isolated coherent collection index
    exact isolated.wired
  | answer answers _ ih =>
    obtain ⟨same, stacked⟩ := ih
    exact ⟨same, stacked.anchored, stacked.distinct, stacked.numbered, stacked.next,
      stacked.consumers⟩

/-- **A call adds to a request and changes nothing in it**, whatever was asked of the request
before. What is added are nodes and edges with new identifiers, and these edges lead into these
nodes. Every node that was there is read as before, has the edges into it that it had, in the
same order, and behind the edges out of it only some of the new ones; what was found by its
identity is found again. The form with its graph, the iterations that were made and the answers
are the same. -/
theorem materialize_isolated {form : Form} {config : WiringConfig} {wired : WiredForm}
    (built : form.Built) (wiring : WiredForm.wire form config = .ok wired)
    {request : RequestScope} (reached : Reachable wired request) (collection : NodeId)
    (index : Nat) :
    ∃ made added, Isolated request (request.materialize collection index).1 made added := by
  have coherent := (WiredForm.wire_spec wiring).coherent built.coherent
  obtain ⟨rfl, stacked⟩ := reached.stacked coherent
  exact stacked.isolated coherent collection index

/-! ### A form whose data every copy reads -/

namespace Orders

def form : Form :=
  ⟨"shop", {
    nodes := [
      ⟨⟨0⟩, none, .journey "shop"⟩,
      ⟨⟨1⟩, some ⟨0⟩, .step "/orders"⟩,
      ⟨⟨2⟩, some ⟨1⟩, .reference ⟨["data", "goods"]⟩⟩,
      ⟨⟨3⟩, some ⟨1⟩, .collection ⟨"order", some ⟨2⟩⟩⟩,
      ⟨⟨4⟩, some ⟨3⟩, .field ⟨"note", "text", [], none⟩⟩,
      ⟨⟨5⟩, some ⟨3⟩, .reference ⟨["data", "goods"]⟩⟩]
    containment := [(⟨0⟩, ⟨1⟩), (⟨1⟩, ⟨2⟩), (⟨1⟩, ⟨3⟩), (⟨3⟩, ⟨4⟩), (⟨3⟩, ⟨5⟩)]
    references := [⟨2⟩, ⟨5⟩]
    identities := []
    nextId := 6 }⟩

theorem built : form.Built := by
  have journey := Form.Built.addJourney (.empty "shop")
    (rfl : Form.addJourney _ none "shop" = .ok (_, ⟨0⟩))
  have step := journey.addStep (rfl : Form.addStep _ ⟨0⟩ "/orders" = .ok (_, ⟨1⟩))
  have source := step.addReference
    (rfl : Form.addReference _ ⟨1⟩ ["data", "goods"] = .ok (_, ⟨2⟩))
  have collection := source.addCollection
    (rfl : Form.addCollection _ ⟨1⟩ "order" (some ⟨2⟩) = .ok (_, ⟨3⟩))
  have field := collection.addField
    (rfl : Form.addField _ ⟨3⟩ "note" "text" = .ok (_, ⟨4⟩))
  exact field.addReference (rfl : Form.addReference _ ⟨3⟩ ["data", "goods"] = .ok (_, ⟨5⟩))

def wired : WiredForm := (WiredForm.wire form .default).toOption.getD default

/-- The request after one iteration. -/
def first : RequestScope := ((start wired).materialize ⟨3⟩ 0).1

/-- The goods, which the form reads, come to serve the copy of each order. -/
theorem second_isolated :
    (∃ record, (first.materialize ⟨3⟩ 1).2 = .ok record) ∧
      ((first.materialize ⟨3⟩ 1).1.edgesFrom ⟨6⟩).map Edge.consumer = [⟨2⟩, ⟨10⟩, ⟨16⟩] ∧
      ∃ made added, Isolated first (first.materialize ⟨3⟩ 1).1 made added :=
  ⟨⟨_, rfl⟩, rfl, materialize_isolated built (rfl : WiredForm.wire form .default = .ok wired)
    (.materialize ⟨3⟩ 0 .start) ⟨3⟩ 1⟩

end Orders

end RequestScope

end FormFlow
