import FormFlow.Wiring.Pass

/-!
# What applying a draft does to a graph

Whether a draft fails or not, applying it only appends edges (`Draft.exists_applyTo`), so that
going back to the mark of the graph before undoes it.

Without a failure, the graph afterwards is known connection by connection. A graph gives each
connection the metadata of its edge (`DependencyGraph.metadata?`), a draft offers each
connection the metadata it asks for first (`Draft.offer?`), and a connection that the graph does
not have takes what the draft offers (`Draft.metadata?_applyTo`). Two drafts with the same offers
therefore have the same effect on a graph, in whatever order they ask.
-/

set_option autoImplicit false

namespace FormFlow

namespace Draft

/-- The first connection is added, then the others. -/
theorem graph_applyTo_cons (c : Connection) (rest : Draft) (graph : DependencyGraph) :
    (applyTo (.ok c :: rest) graph).graph =
      (applyTo rest (graph.add c.triple c.metadata).1).graph := by
  rw [applyTo]
  dsimp only
  split <;> rfl

/-- Applying a draft appends edges. -/
theorem exists_applyTo (draft : Draft) (graph : DependencyGraph) :
    ∃ new, (draft.applyTo graph).graph = { graph with edges := graph.edges ++ new } := by
  induction draft generalizing graph with
  | nil => exact ⟨[], by simp [applyTo]⟩
  | cons entry rest ih =>
    cases entry with
    | error error => exact ⟨[], by simp [applyTo]⟩
    | ok c =>
      have first : ∃ new, (graph.add c.triple c.metadata).1 =
          { graph with edges := graph.edges ++ new } := by
        simp only [DependencyGraph.add]
        split
        · exact ⟨[], by simp⟩
        · exact ⟨_, rfl⟩
      obtain ⟨one, added⟩ := first
      obtain ⟨more, applied⟩ := ih (graph.add c.triple c.metadata).1
      refine ⟨one ++ more, ?_⟩
      rw [graph_applyTo_cons, applied, added]
      simp

end Draft

namespace DependencyGraph

/-- Appended edges are removed by going back to the mark of the graph before. -/
theorem truncate_append (graph : DependencyGraph) (new : List Edge) :
    ({ graph with edges := graph.edges ++ new } : DependencyGraph).truncate graph.nextId =
      graph := by
  simp [truncate, nextId, size]

/-! ## Connections and their metadata -/

/-- The metadata of the edge that makes a connection. -/
def metadata? (graph : DependencyGraph) (triple : Triple) : Option EdgeMetadata :=
  (graph.edges.find? fun edge => edge.triple = triple).map Edge.metadata

/-- The connections of a graph with their metadata. -/
def connections (graph : DependencyGraph) : List (Triple × EdgeMetadata) :=
  graph.edges.map fun edge => (edge.triple, edge.metadata)

/-- In a graph that repeats no connection, the metadata that is found is the only one. -/
theorem mem_connections_iff {graph : DependencyGraph} (distinct : graph.triples.Nodup)
    {triple : Triple} {metadata : EdgeMetadata} :
    (triple, metadata) ∈ graph.connections ↔ graph.metadata? triple = some metadata := by
  simp only [connections, metadata?, triples] at *
  generalize graph.edges = edges at distinct ⊢
  induction edges with
  | nil => simp
  | cons edge rest ih =>
    rw [List.map_cons, List.nodup_cons] at distinct
    by_cases here : edge.triple = triple
    · subst here
      rw [List.find?_cons_of_pos (by simp)]
      constructor
      · intro member
        rcases List.mem_cons.1 member with same | later
        · cases same
          rfl
        · obtain ⟨other, known, same⟩ := List.mem_map.1 later
          have again : other.triple = edge.triple := congrArg Prod.fst same
          exact absurd (again ▸ List.mem_map_of_mem known) distinct.1
      · intro found
        cases found
        exact List.mem_cons_self ..
    · rw [List.find?_cons_of_neg (by simpa using here), ← ih distinct.2, List.map_cons,
        List.mem_cons]
      exact or_iff_right fun same => here (Prod.mk.inj same).1.symm

/-- In a graph that repeats no connection, the metadata of an edge is what its connection has. -/
theorem metadata?_of_mem {graph : DependencyGraph} (distinct : graph.triples.Nodup) {edge : Edge}
    (member : edge ∈ graph.edges) : graph.metadata? edge.triple = some edge.metadata :=
  (mem_connections_iff distinct).1 (List.mem_map_of_mem member)

theorem exists_of_metadata? {graph : DependencyGraph} {triple : Triple} {metadata : EdgeMetadata}
    (found : graph.metadata? triple = some metadata) :
    ∃ edge ∈ graph.edges, edge.triple = triple ∧ edge.metadata = metadata := by
  obtain ⟨edge, present, same⟩ := Option.map_eq_some_iff.1 found
  exact ⟨edge, List.mem_of_find?_eq_some present, by simpa using List.find?_some present, same⟩

theorem metadata?_add (graph : DependencyGraph) (triple other : Triple)
    (metadata : EdgeMetadata) :
    (graph.add triple metadata).1.metadata? other =
      (graph.metadata? other).or (if triple = other then some metadata else none) := by
  cases present : graph.contains triple with
  | true =>
    rw [add_of_contains present]
    by_cases same : triple = other
    · subst same
      have found : ∃ known, graph.metadata? triple = some known := by
        simp only [contains, List.any_eq_true] at present
        cases lookup : graph.edges.find? (fun edge => edge.triple = triple) with
        | some edge => exact ⟨edge.metadata, by rw [metadata?, lookup]; rfl⟩
        | none =>
          obtain ⟨edge, member, here⟩ := present
          exact absurd here (List.find?_eq_none.1 lookup edge member)
      obtain ⟨known, found⟩ := found
      simp [found]
    · simp [same]
  | false =>
    rw [add_of_not_contains present]
    simp only [metadata?, List.find?_append, List.find?_singleton, Edge.triple]
    by_cases same : triple = other
    · cases graph.edges.find? _ <;> simp [same]
    · simp [same]

/-! ## The edges into a node -/

theorem mem_triples_iff {graph : DependencyGraph} {triple : Triple} :
    triple ∈ graph.triples ↔ ∃ metadata, graph.metadata? triple = some metadata := by
  simp only [triples, metadata?]
  constructor
  · intro member
    obtain ⟨edge, known, rfl⟩ := List.mem_map.1 member
    cases found : graph.edges.find? fun other => other.triple = edge.triple with
    | some other => exact ⟨other.metadata, rfl⟩
    | none => simpa using List.find?_eq_none.1 found edge known
  · rintro ⟨metadata, found⟩
    obtain ⟨edge, present, _⟩ := Option.map_eq_some_iff.1 found
    have same : edge.triple = triple := by simpa using List.find?_some present
    exact same ▸ List.mem_map_of_mem (List.mem_of_find?_eq_some present)

/-- Without a connection into a node there is no edge into it. -/
theorem edgesTo_eq_nil {graph : DependencyGraph} {consumer : NodeId}
    (absent : ∀ triple, triple.consumer = consumer → graph.metadata? triple = none) :
    graph.edgesTo consumer = [] := by
  apply List.filter_eq_nil_iff.2
  intro edge member into
  obtain ⟨metadata, found⟩ := mem_triples_iff.1 (List.mem_map_of_mem (f := Edge.triple) member)
  rw [absent edge.triple (of_decide_eq_true into)] at found
  cases found

/-- If there is one connection into a node and none is repeated, then there is one edge into it. -/
theorem edgesTo_eq_singleton {graph : DependencyGraph} (distinct : graph.triples.Nodup)
    (triple : Triple) (metadata : EdgeMetadata)
    (only : ∀ other known, other.consumer = triple.consumer →
      (graph.metadata? other = some known ↔ other = triple ∧ known = metadata)) :
    ∃ edge, graph.edgesTo triple.consumer = [edge] ∧ edge.triple = triple ∧
      edge.metadata = metadata := by
  have each : ∀ edge ∈ graph.edgesTo triple.consumer,
      edge.triple = triple ∧ edge.metadata = metadata := by
    intro edge member
    obtain ⟨known, into⟩ := List.mem_filter.1 member
    have found := (mem_connections_iff distinct).1
      (List.mem_map_of_mem (f := fun edge : Edge => (edge.triple, edge.metadata)) known)
    exact (only edge.triple edge.metadata (of_decide_eq_true into)).1 found
  have once : ((graph.edgesTo triple.consumer).map Edge.triple).Nodup :=
    distinct.sublist (List.filter_sublist.map _)
  obtain ⟨edge, member, same⟩ := List.mem_map.1
    (mem_triples_iff.2 ⟨metadata, (only triple metadata rfl).2 ⟨rfl, rfl⟩⟩)
  have into : edge ∈ graph.edgesTo triple.consumer :=
    List.mem_filter.2 ⟨member, by simp [← same, Edge.triple]⟩
  cases edges : graph.edgesTo triple.consumer with
  | nil =>
    rw [edges] at into
    cases into
  | cons first rest =>
    rw [edges] at each once
    obtain ⟨here, carried⟩ := each first (List.mem_cons_self ..)
    refine ⟨first, ?_, here, carried⟩
    cases rest with
    | nil => rfl
    | cons second rest =>
      have there := (each second (List.mem_cons_of_mem _ (List.mem_cons_self ..))).1
      simp [here, there] at once

end DependencyGraph

namespace Draft

/-- The metadata that a draft asks for first for a connection. -/
def offer? (draft : Draft) (triple : Triple) : Option EdgeMetadata :=
  draft.findSome? fun entry =>
    match entry with
    | .ok c => if c.triple = triple then some c.metadata else none
    | .error _ => none

@[simp]
theorem offer?_nil (triple : Triple) : offer? [] triple = none := rfl

@[simp]
theorem offer?_append (first second : Draft) (triple : Triple) :
    (first ++ second).offer? triple = (first.offer? triple).or (second.offer? triple) := by
  simp only [offer?]
  rw [List.findSome?_append]

theorem offer?_flatMap {α : Type} (items : List α) (draft : α → Draft) (triple : Triple) :
    offer? (items.flatMap draft) triple =
      items.findSome? fun item => (draft item).offer? triple := by
  induction items with
  | nil => rfl
  | cons item rest ih =>
    rw [List.flatMap_cons, offer?_append, ih, List.findSome?_cons]
    cases (draft item).offer? triple <;> rfl

/-- A draft fails exactly if an error is in it. -/
theorem failure?_eq_none_iff {draft : Draft} :
    draft.failure? = none ↔ ∀ error, Except.error error ∉ draft := by
  rw [failure?, List.findSome?_eq_none_iff]
  constructor
  · intro silent error member
    cases silent _ member
  · intro absent entry member
    cases entry with
    | ok c => rfl
    | error error => exact absurd member (absent error)

theorem failure?_append {first second : Draft} :
    (first ++ second).failure? = none ↔ first.failure? = none ∧ second.failure? = none := by
  simp only [failure?_eq_none_iff, List.mem_append, not_or, forall_and]

theorem failure?_flatMap {α : Type} {items : List α} {draft : α → Draft} :
    failure? (items.flatMap draft) = none ↔ ∀ item ∈ items, (draft item).failure? = none := by
  simp only [failure?_eq_none_iff, List.mem_flatMap, not_exists, not_and]
  exact ⟨fun absent item member error => absent error item member,
    fun absent error item member => absent item member error⟩

/-- A connection that a graph does not have takes what the draft offers. -/
theorem metadata?_applyTo {draft : Draft} (succeeds : draft.failure? = none)
    (graph : DependencyGraph) (triple : Triple) :
    (draft.applyTo graph).graph.metadata? triple =
      (graph.metadata? triple).or (draft.offer? triple) := by
  induction draft generalizing graph with
  | nil => simp [applyTo]
  | cons entry rest ih =>
    cases entry with
    | error error => simp [failure?] at succeeds
    | ok c =>
      rw [graph_applyTo_cons, ih succeeds, DependencyGraph.metadata?_add, Option.or_assoc]
      congr 1
      simp only [offer?]
      rw [List.findSome?_cons]
      by_cases here : c.triple = triple <;> simp [here]

/-- Applying a draft repeats no connection. -/
theorem nodup_triples_applyTo (draft : Draft) {graph : DependencyGraph}
    (distinct : graph.triples.Nodup) : (draft.applyTo graph).graph.triples.Nodup := by
  induction draft generalizing graph with
  | nil => exact distinct
  | cons entry rest ih =>
    cases entry with
    | error error => exact distinct
    | ok c =>
      rw [graph_applyTo_cons]
      exact ih (DependencyGraph.nodup_triples_add distinct _ _)

end Draft

namespace PassResult

/-- A pass leaves the graph as far as its draft came. -/
theorem graph_ofDraft (steps : Nat) (draft : Draft) (graph : DependencyGraph) :
    (ofDraft steps draft graph).graph = (draft.applyTo graph).graph := by
  unfold ofDraft
  dsimp only
  split <;> rfl

/-- A pass reports exactly if its draft has no failure. -/
theorem report_ofDraft_eq_ok_iff {steps : Nat} {draft : Draft} {graph : DependencyGraph} :
    (∃ report, (ofDraft steps draft graph).report = .ok report) ↔ draft.failure? = none := by
  unfold ofDraft
  dsimp only
  rw [Draft.failure_applyTo]
  cases draft.failure? <;> simp

end PassResult

end FormFlow
