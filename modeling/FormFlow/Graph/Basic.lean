import FormFlow.Graph.Edge

/-!
# The dependency graph

A graph is its edges in the order of their addition. An edge whose producer, consumer and
role are already connected is not added again, so wiring twice adds nothing. Identifiers
count up from the first one of the graph; an earlier state is therefore named by the
identifier that its next edge would have had, and `truncate` goes back to it.
-/

set_option autoImplicit false

namespace FormFlow

/-- A graph of dependency edges. -/
structure DependencyGraph where
  edges : List Edge
  /-- The number of the first identifier. -/
  firstId : Nat
deriving DecidableEq, Repr, Inhabited

namespace DependencyGraph

/-- A graph without edges whose identifiers start at a number. -/
def startingAt (first : Nat) : DependencyGraph := ⟨[], first⟩

/-- A graph without edges. -/
def empty : DependencyGraph := startingAt 0

/-- The number of edges. -/
def size (graph : DependencyGraph) : Nat := graph.edges.length

/-- Whether a graph has no edges. -/
def isEmpty (graph : DependencyGraph) : Bool := graph.edges.isEmpty

/-- The number of the next identifier. -/
def nextId (graph : DependencyGraph) : Nat := graph.firstId + graph.size

/-- The connections of a graph. -/
def triples (graph : DependencyGraph) : List Triple := graph.edges.map Edge.triple

/-- Whether a connection is there. -/
def contains (graph : DependencyGraph) (triple : Triple) : Bool :=
  graph.edges.any fun edge => edge.triple = triple

/-- Adds an edge unless its connection is there, and says whether it did. -/
def add (graph : DependencyGraph) (triple : Triple) (metadata : EdgeMetadata) :
    DependencyGraph × Bool :=
  if graph.contains triple then (graph, false)
  else
    let edge : Edge :=
      ⟨⟨graph.nextId⟩, triple.producer, triple.consumer, triple.role, metadata⟩
    ({ graph with edges := graph.edges ++ [edge] }, true)

/-- Adds an edge with the ends and metadata of another. -/
def addEdge (graph : DependencyGraph) (edge : Edge) : DependencyGraph :=
  (graph.add edge.triple edge.metadata).1

/-- Adds the edges of another graph in order, with new identifiers. -/
def extend (graph other : DependencyGraph) : DependencyGraph :=
  other.edges.foldl addEdge graph

/-- The graph of a list of edges, with identifiers from a number on. -/
def ofEdges (edges : List Edge) (first : Nat) : DependencyGraph :=
  edges.foldl addEdge (startingAt first)

/-- Removes the edges whose identifiers are at or above a mark. -/
def truncate (graph : DependencyGraph) (mark : Nat) : DependencyGraph :=
  { graph with edges := graph.edges.take (mark - graph.firstId) }

/-- The edges into a node, in order. -/
def edgesTo (graph : DependencyGraph) (consumer : NodeId) : List Edge :=
  graph.edges.filter fun edge => edge.consumer = consumer

/-- The edges out of a node, in order. -/
def edgesFrom (graph : DependencyGraph) (producer : NodeId) : List Edge :=
  graph.edges.filter fun edge => edge.producer = producer

/-- The producers of a node, in order. -/
def producersOf (graph : DependencyGraph) (consumer : NodeId) : List NodeId :=
  (graph.edgesTo consumer).map Edge.producer

/-- The consumers of a node, in order. -/
def consumersOf (graph : DependencyGraph) (producer : NodeId) : List NodeId :=
  (graph.edgesFrom producer).map Edge.consumer

/-- The edge with an identifier: its place is counted from the first one. -/
def edge? (graph : DependencyGraph) (id : EdgeId) : Option Edge :=
  if id.val < graph.firstId then none else graph.edges[id.val - graph.firstId]?

/-! ## Adding a connection and going back -/

/-- A connection is there exactly if it is among the triples. -/
theorem contains_iff {graph : DependencyGraph} {triple : Triple} :
    graph.contains triple = true ↔ triple ∈ graph.triples := by
  simp [contains, triples]

/-- A connection that is there leaves the graph as it is. -/
theorem add_of_contains {graph : DependencyGraph} {triple : Triple}
    (present : graph.contains triple = true) (metadata : EdgeMetadata) :
    graph.add triple metadata = (graph, false) := by
  simp [add, present]

/-- A new connection becomes the last edge. -/
theorem add_of_not_contains {graph : DependencyGraph} {triple : Triple}
    (fresh : graph.contains triple = false) (metadata : EdgeMetadata) :
    graph.add triple metadata =
      ({ graph with edges := graph.edges ++
          [⟨⟨graph.nextId⟩, triple.producer, triple.consumer, triple.role, metadata⟩] }, true) := by
  simp [add, fresh]

/-- Adding a connection keeps the first identifier. -/
@[simp]
theorem firstId_add (graph : DependencyGraph) (triple : Triple) (metadata : EdgeMetadata) :
    (graph.add triple metadata).1.firstId = graph.firstId := by
  unfold add
  split <;> rfl

/-- The triples after adding a connection. -/
theorem triples_add (graph : DependencyGraph) (triple : Triple) (metadata : EdgeMetadata) :
    (graph.add triple metadata).1.triples =
      if graph.contains triple then graph.triples else graph.triples ++ [triple] := by
  cases present : graph.contains triple with
  | true => simp [add_of_contains present]
  | false => simp [add_of_not_contains present, triples, Edge.triple]

/-- Adding a connection repeats none. -/
theorem nodup_triples_add {graph : DependencyGraph} (distinct : graph.triples.Nodup)
    (triple : Triple) (metadata : EdgeMetadata) :
    (graph.add triple metadata).1.triples.Nodup := by
  rw [triples_add]
  split
  · exact distinct
  · rename_i fresh
    rw [contains_iff] at fresh
    refine List.nodup_append.2 ⟨distinct, by simp, ?_⟩
    intro a ha b hb
    simp only [List.mem_singleton] at hb
    rintro rfl
    exact fresh (hb ▸ ha)

/-- Going back to where a graph is changes nothing. -/
@[simp]
theorem truncate_nextId (graph : DependencyGraph) : graph.truncate graph.nextId = graph := by
  simp [truncate, nextId, size]

end DependencyGraph

end FormFlow
