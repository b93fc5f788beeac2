import Mathlib
import FormFlow.Graph.Order
import FormFlow.Proofs.Request.Isolation
import FormFlow.Proofs.Wiring.Producers

/-!
# One graph for a form and a request

A request is read as two graphs, one behind the other, or as one graph into which the edges of
the request were taken over. Taking edges over leaves out the connections that are there and
numbers the others anew, but neither happens here: the edges of the form lead into nodes of the
form and those of a request into its own (`RequestScope.Stacked.fresh`), and the numbers of the
request start where those of the form end. The one graph is therefore the two, edge by edge
(`RequestScope.Stacked.mergedGraph_eq`), and it is read like them
(`RequestScope.mergedGraph_agrees`).

Where edges come from does not matter for this. A source that a loaded collection names need not
be there, and its number may later be given to a node of the request.
-/

set_option autoImplicit false

namespace FormFlow

namespace RequestScope

/-- The edges of a form lead into its nodes. -/
theorem consumer_lt_nextId {form : Form} {config : WiringConfig} {wired : WiredForm}
    (registered : WiredForm.Registered form config wired) (coherent : form.nodes.Coherent)
    {edge : Edge} (member : edge ∈ wired.graph.edges) :
    edge.consumer.val < wired.form.nodes.nextId := by
  obtain ⟨node, there, named, _⟩ := registered.consumer_of_edge coherent member
  rw [← named]
  exact (registered.coherent coherent).below node there

section

variable {request : RequestScope} (stacked : Stacked request)
  (consumers : ∀ edge ∈ request.wired.graph.edges,
    edge.consumer.val < request.wired.form.nodes.nextId)
include stacked consumers

/-- No connection of a request is one of its form. -/
theorem Stacked.fresh :
    ∀ triple ∈ request.overlay.graph.triples, triple ∉ request.wired.graph.triples := by
  intro triple upper lower
  obtain ⟨own, made, rfl⟩ := List.mem_map.1 upper
  obtain ⟨edge, known, same⟩ := List.mem_map.1 lower
  obtain ⟨node, there, named⟩ := List.mem_map.1 (stacked.consumers own made)
  have into : edge.consumer = own.consumer := congrArg Triple.consumer same
  have high := stacked.anchored.high node there
  have low := consumers edge known
  rw [named] at high
  rw [into] at low
  omega

/-- The one graph is the graph of the form with that of the request behind it. -/
theorem Stacked.mergedGraph_eq : request.mergedGraph = request.joined :=
  DependencyGraph.extend_eq stacked.numbered stacked.next stacked.distinct
    (stacked.fresh consumers)

end

theorem edgesFrom_joined (request : RequestScope) (id : NodeId) :
    request.joined.edgesFrom id = request.edgesFrom id :=
  List.filter_append ..

/-- The order of evaluation sees edges only, not which graph they are in. -/
theorem order_joined (request : RequestScope) :
    evaluationOrder [request.joined] = request.order := by
  simp only [order, evaluationOrder, DependencyView.ofGraphs, List.flatMap_cons, List.flatMap_nil,
    List.append_nil, joined]

/-- **The ways to read a request agree**, whatever was asked of the request before: no connection
is in the graph of the form and in that of the request, the merged graph has the edges of the
form and behind them those of the request, with the same identifiers and metadata, every node has
the same edges into it and out of it in both, and the order of evaluation is the same. -/
theorem mergedGraph_agrees {form : Form} {config : WiringConfig} {wired : WiredForm}
    (built : form.Built) (wiring : WiredForm.wire form config = .ok wired)
    {request : RequestScope} (reached : Reachable wired request) :
    (∀ triple ∈ request.overlay.graph.triples, triple ∉ request.wired.graph.triples) ∧
    request.mergedGraph.edges = request.wired.graph.edges ++ request.overlay.graph.edges ∧
    (∀ id, request.mergedGraph.edgesTo id = request.edgesTo id) ∧
    (∀ id, request.mergedGraph.edgesFrom id = request.edgesFrom id) ∧
    evaluationOrder [request.mergedGraph] = request.order := by
  have registered := WiredForm.wire_spec wiring
  obtain ⟨rfl, stacked⟩ := reached.stacked (registered.coherent built.coherent)
  have consumers : ∀ edge ∈ request.wired.graph.edges,
      edge.consumer.val < request.wired.form.nodes.nextId :=
    fun _ => consumer_lt_nextId registered built.coherent
  rw [stacked.mergedGraph_eq consumers]
  exact ⟨stacked.fresh consumers, rfl, request.edgesTo_joined, request.edgesFrom_joined,
    request.order_joined⟩

/-! ### A form whose collection names a source that is not there -/

namespace Dangling

def form : Form :=
  ⟨"shop", {
    nodes := [
      ⟨⟨0⟩, none, .journey "shop"⟩,
      ⟨⟨1⟩, some ⟨0⟩, .step "/orders"⟩,
      ⟨⟨2⟩, some ⟨1⟩, .collection ⟨"order", some ⟨6⟩⟩⟩,
      ⟨⟨3⟩, some ⟨2⟩, .field ⟨"note", "text", [], none⟩⟩]
    containment := [(⟨0⟩, ⟨1⟩), (⟨1⟩, ⟨2⟩), (⟨2⟩, ⟨3⟩)]
    references := []
    identities := []
    nextId := 4 }⟩

def text : String :=
  "[\"shop\",[[[0,null,[\"journey\",\"shop\"]],[1,0,[\"step\",\"/orders\"]]," ++
    "[2,1,[\"collection\",\"order\",6]],[3,2,[\"field\",\"note\",\"text\"]]],4]]"

theorem read : form.Built := .ofText (by cbv : Form.ofText text = .ok form)

def wired : WiredForm := (WiredForm.wire form .default).toOption.getD default

/-- The request after one iteration. -/
def first : RequestScope := ((start wired).materialize ⟨2⟩ 0).1

theorem reached : Reachable wired first := .materialize ⟨2⟩ 0 .start

/-- The copy with the number of the missing source feeds the items of the collection and of its
iteration, from an edge in either graph. -/
theorem copy_feeds :
    (first.mergedGraph.edgesFrom ⟨6⟩).map Edge.consumer = [⟨4⟩, ⟨9⟩] ∧
      evaluationOrder [first.mergedGraph] = first.order := by
  obtain ⟨_, _, _, sameFrom, sameOrder⟩ :=
    mergedGraph_agrees read (rfl : WiredForm.wire form .default = .ok wired) reached
  refine ⟨?_, sameOrder⟩
  rw [sameFrom]
  rfl

end Dangling

end RequestScope

end FormFlow
