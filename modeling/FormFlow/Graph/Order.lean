import FormFlow.Form.Error
import FormFlow.Graph.Basic

/-!
# The order of evaluation

Wiring does not look for cycles. They come to light here, where the nodes that take part in
a dependency are put in an order in which producers stand before their consumers.

The graphs are first merged into a `DependencyView`: the nodes in the order of their first
appearance and, for each pair of producer and consumer, one arc. A depth-first search along
the arcs then lists the nodes as they are finished; reversed, that list is the order, if
there is one. A second search, against the arcs and along the order, reaches nothing new
from any node exactly if the order respects every arc.

Both searches work off a stack. A step either discovers a node, of which there are finitely
many, or shortens the stack.
-/

set_option autoImplicit false

namespace FormFlow

/-- A pair of producer and consumer, with the role of the last edge between them. -/
structure Arc where
  producer : NodeId
  consumer : NodeId
  role : Role
deriving DecidableEq, Repr, Inhabited

/-- One or more graphs as a set of nodes and arcs. -/
structure DependencyView where
  nodes : List NodeId
  arcs : List Arc
deriving DecidableEq, Repr, Inhabited

namespace DependencyView

/-- No nodes and no arcs. -/
def empty : DependencyView := ⟨[], []⟩

/-- Appends a node unless it is there. -/
def appendNew (nodes : List NodeId) (id : NodeId) : List NodeId :=
  if id ∈ nodes then nodes else nodes ++ [id]

/-- Sets the role of the arc between two nodes, which keeps its place if it is there. -/
def setArc (arc : Arc) : List Arc → List Arc
  | [] => [arc]
  | other :: rest =>
    if other.producer = arc.producer ∧ other.consumer = arc.consumer then arc :: rest
    else other :: setArc arc rest

/-- Takes an edge into a view. -/
def addEdge (view : DependencyView) (edge : Edge) : DependencyView where
  nodes := appendNew (appendNew view.nodes edge.producer) edge.consumer
  arcs := setArc ⟨edge.producer, edge.consumer, edge.role⟩ view.arcs

/-- The view of graphs, graph by graph and edge by edge. -/
def ofGraphs (graphs : List DependencyGraph) : DependencyView :=
  (graphs.flatMap DependencyGraph.edges).foldl addEdge empty

/-- The consumers of a node, in the order of the arcs. -/
def successors (view : DependencyView) (id : NodeId) : List NodeId :=
  (view.arcs.filter fun arc => arc.producer = id).map Arc.consumer

/-- The producers of a node, in the order of the arcs. -/
def predecessors (view : DependencyView) (id : NodeId) : List NodeId :=
  (view.arcs.filter fun arc => arc.consumer = id).map Arc.producer

/-- The state of the first search: the nodes not yet discovered, and the finished ones, the
last finished first. -/
structure Search where
  pending : List NodeId
  finished : List NodeId
deriving DecidableEq, Repr

/-- Searches from the nodes on the stack, whose top is the head, along the arcs. A node is
finished when it comes up again after all that it leads to. Fails at a node that is its own
consumer. -/
def explore (view : DependencyView) (stack : List NodeId) (search : Search) :
    Except StructureError Search :=
  match stack with
  | [] => .ok search
  | top :: rest =>
    if top ∈ search.pending then
      if top ∈ view.successors top then .error (.cycle top)
      else
        let pending := search.pending.erase top
        let fresh := (view.successors top).filter fun id => id ∈ pending
        view.explore (fresh.reverse ++ stack) { search with pending }
    else if top ∈ search.finished then view.explore rest search
    else view.explore rest { search with finished := top :: search.finished }
termination_by (search.pending.length, stack.length)
decreasing_by
  · rename_i present _
    have shorter := List.length_erase_of_mem present
    have positive := List.length_pos_of_mem present
    exact Prod.Lex.left _ _ (by simp only [shorter]; omega)
  · exact Prod.Lex.right _ (by simp)
  · exact Prod.Lex.right _ (by simp)

/-- Searches from every node in order. -/
def exploreAll (view : DependencyView) : List NodeId → Search → Except StructureError Search
  | [], search => .ok search
  | id :: rest, search =>
    if id ∈ search.pending then do
      let next ← view.explore [id] search
      view.exploreAll rest next
    else view.exploreAll rest search

/-- Searches from the nodes on the stack against the arcs, where `found` nodes were reached
before. Fails at the second node that it reaches; otherwise returns the nodes that are still
not reached. -/
def retrace (view : DependencyView) (stack pending : List NodeId) (found : Nat) :
    Except StructureError (List NodeId) :=
  match stack with
  | [] => .ok pending
  | top :: rest =>
    if top ∈ pending then
      if found = 0 then
        let remaining := pending.erase top
        let fresh := (view.predecessors top).filter fun id => id ∈ remaining
        view.retrace (fresh.reverse ++ rest) remaining 1
      else .error (.cycle top)
    else view.retrace rest pending found
termination_by (pending.length, stack.length)
decreasing_by
  · rename_i present _
    have shorter := List.length_erase_of_mem present
    have positive := List.length_pos_of_mem present
    exact Prod.Lex.left _ _ (by simp only [shorter]; omega)
  · exact Prod.Lex.right _ (by simp)

/-- Searches from every node of an order, each in its turn. -/
def retraceAll (view : DependencyView) : (order pending : List NodeId) →
    Except StructureError Unit
  | [], _ => .ok ()
  | id :: rest, pending => do
    let remaining ← view.retrace [id] pending 0
    view.retraceAll rest remaining

/-- The nodes of a view, producers before their consumers. -/
def order (view : DependencyView) : Except StructureError (List NodeId) := do
  let search ← view.exploreAll view.nodes ⟨view.nodes, []⟩
  view.retraceAll search.finished view.nodes
  return search.finished

end DependencyView

/-- The nodes that take part in the dependencies of some graphs, producers before their
consumers. -/
def evaluationOrder (graphs : List DependencyGraph) : Except StructureError (List NodeId) :=
  (DependencyView.ofGraphs graphs).order

end FormFlow
