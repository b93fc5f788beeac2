import FormFlow.Proofs.Wiring.Outcome

/-!
# Numbers of edges

The edges of a graph are numbered in the order of their addition, without a gap
(`DependencyGraph.Numbered`). Whatever a draft adds keeps this (`Draft.numbered_applyTo`), so
the place of an edge tells its identifier, and going back to a mark leaves the edges with the
identifiers below it.

A graph that is numbered from the mark of another one on, and repeats none of its connections,
can be put behind it as it is: taking its edges over one by one gives each the identifier that it
has (`DependencyGraph.extend_eq`). In general the edges with new connections are put behind it,
and numbered anew (`DependencyGraph.foldl_addEdge_eq`).
-/

set_option autoImplicit false

namespace FormFlow

namespace DependencyGraph

/-- The identifiers of edges count up from a number. -/
def CountUp (first : Nat) (edges : List Edge) : Prop :=
  edges.map (fun edge => edge.id.val) = List.range' first edges.length

/-- The edges of a graph are numbered in order. -/
def Numbered (graph : DependencyGraph) : Prop := CountUp graph.firstId graph.edges

theorem countUp_append {first : Nat} {edges more : List Edge} :
    CountUp first (edges ++ more) ↔
      CountUp first edges ∧ CountUp (first + edges.length) more := by
  simp only [CountUp, List.map_append, List.length_append, ← List.range'_append_1]
  exact ⟨fun same => List.append_inj same (by simp), fun ⟨one, two⟩ => by rw [one, two]⟩

theorem countUp_singleton {first : Nat} {edge : Edge} :
    CountUp first [edge] ↔ edge.id.val = first := by
  simp [CountUp]

theorem CountUp.le {first : Nat} {edges : List Edge} (counted : CountUp first edges) :
    ∀ edge ∈ edges, first ≤ edge.id.val := by
  intro edge member
  have inside : edge.id.val ∈ List.range' first edges.length :=
    counted ▸ List.mem_map_of_mem (f := fun edge : Edge => edge.id.val) member
  exact (List.mem_range'_1.1 inside).1

theorem numbered_startingAt (first : Nat) : (startingAt first).Numbered := rfl

theorem Numbered.add {graph : DependencyGraph} (numbered : graph.Numbered) (triple : Triple)
    (metadata : EdgeMetadata) : (graph.add triple metadata).1.Numbered := by
  cases present : graph.contains triple with
  | true =>
    rw [add_of_contains present]
    exact numbered
  | false =>
    rw [add_of_not_contains present]
    exact countUp_append.2 ⟨numbered, countUp_singleton.2 rfl⟩

/-- Edges that come as the next ones of a graph are taken over as they are. -/
theorem foldl_addEdge {edges : List Edge} {graph : DependencyGraph}
    (counted : CountUp graph.nextId edges) (distinct : (edges.map Edge.triple).Nodup)
    (fresh : ∀ edge ∈ edges, edge.triple ∉ graph.triples) :
    edges.foldl addEdge graph = { graph with edges := graph.edges ++ edges } := by
  induction edges generalizing graph with
  | nil => simp
  | cons edge rest ih =>
    have parts : CountUp graph.nextId ([edge] ++ rest) := counted
    obtain ⟨here, later⟩ := countUp_append.1 parts
    obtain ⟨apart, others⟩ := List.nodup_cons.1 distinct
    have absent : graph.contains edge.triple = false := by
      rw [← Bool.not_eq_true, contains_iff]
      exact fresh edge (List.mem_cons_self ..)
    have first : graph.addEdge edge = { graph with edges := graph.edges ++ [edge] } := by
      have number : graph.nextId = edge.id.val := (countUp_singleton.1 here).symm
      rw [addEdge, add_of_not_contains absent, number]
      rfl
    rw [List.foldl_cons, first, ih]
    · simp
    · simpa [nextId, size, Nat.add_assoc] using later
    · exact others
    · intro other member
      have known : other.triple ∉ graph.triples := fresh other (List.mem_cons_of_mem _ member)
      simp only [triples, List.map_append, List.mem_append, List.map_cons, List.map_nil,
        List.mem_singleton, not_or]
      refine ⟨known, ?_⟩
      intro same
      exact apart (same ▸ List.mem_map_of_mem member)

/-- A graph that is numbered from the mark of another one on, with other connections, is put
behind it as it is. -/
theorem extend_eq {graph other : DependencyGraph} (numbered : other.Numbered)
    (next : other.firstId = graph.nextId) (distinct : other.triples.Nodup)
    (fresh : ∀ triple ∈ other.triples, triple ∉ graph.triples) :
    graph.extend other = { graph with edges := graph.edges ++ other.edges } :=
  foldl_addEdge (next ▸ numbered) distinct fun _ member => fresh _ (List.mem_map_of_mem member)

/-! ## Edges by their numbers -/

/-- Edges with identifiers that count up from a number. -/
def numberFrom : (first : Nat) → List Edge → List Edge
  | _, [] => []
  | first, edge :: rest => { edge with id := ⟨first⟩ } :: numberFrom (first + 1) rest

/-- The place of an edge tells its identifier. -/
theorem CountUp.id_eq {first : Nat} {edges : List Edge} (counted : CountUp first edges)
    {position : Nat} {edge : Edge} (found : edges[position]? = some edge) :
    edge.id.val = first + position := by
  have listed := congrArg (·[position]?) counted
  have inside : position < edges.length := (List.getElem?_eq_some_iff.1 found).1
  rw [List.getElem?_map, found, Option.map_some, List.getElem?_range' inside, Nat.one_mul] at listed
  exact Option.some.inj listed

theorem Numbered.edge?_eq_some_iff {graph : DependencyGraph} (numbered : graph.Numbered)
    {id : EdgeId} {edge : Edge} :
    graph.edge? id = some edge ↔ edge ∈ graph.edges ∧ edge.id = id := by
  rw [edge?]
  constructor
  · intro found
    split at found
    · cases found
    · rename_i high
      have number := numbered.id_eq found
      rw [Nat.add_sub_cancel' (Nat.not_lt.1 high)] at number
      exact ⟨List.mem_of_getElem? found, congrArg EdgeId.mk number⟩
  · rintro ⟨member, rfl⟩
    obtain ⟨position, found⟩ := List.getElem?_of_mem member
    have number := numbered.id_eq found
    rw [if_neg (by omega), number, Nat.add_sub_cancel_left]
    exact found

/-- The first edges of a graph are those with the lower identifiers. -/
theorem CountUp.take_eq {first mark : Nat} {edges : List Edge} (counted : CountUp first edges) :
    edges.take (mark - first) = edges.filter fun edge => edge.id.val < mark := by
  induction edges generalizing first with
  | nil => simp
  | cons edge rest ih =>
    have parts : CountUp first ([edge] ++ rest) := counted
    obtain ⟨here, later⟩ := countUp_append.1 parts
    rw [countUp_singleton] at here
    rw [List.length_singleton] at later
    by_cases low : first < mark
    · have next : mark - first = mark - (first + 1) + 1 := by omega
      rw [next, List.take_succ_cons, ih later, List.filter_cons_of_pos (by simpa [here] using low)]
    · have late : ∀ found ∈ edge :: rest, ¬found.id.val < mark := fun found member => by
        have := counted.le found member
        omega
      rw [Nat.sub_eq_zero_of_le (Nat.not_lt.1 low), List.take_zero, eq_comm,
        List.filter_eq_nil_iff]
      simpa using late

/-- Edges without repeated connections are taken over in order, as far as their connections are
new, and numbered anew. -/
theorem foldl_addEdge_eq {edges : List Edge} {graph : DependencyGraph}
    (distinct : (edges.map Edge.triple).Nodup) :
    edges.foldl addEdge graph =
      { graph with
        edges := graph.edges ++ numberFrom graph.nextId
          (edges.filter fun edge => !graph.contains edge.triple) } := by
  induction edges generalizing graph with
  | nil => simp [numberFrom]
  | cons edge rest ih =>
    obtain ⟨apart, others⟩ := List.nodup_cons.1 distinct
    rw [List.foldl_cons, ih others]
    cases present : graph.contains edge.triple with
    | true =>
      rw [addEdge, add_of_contains present, List.filter_cons_of_neg (by simp [present])]
    | false =>
      have same : ∀ later ∈ rest, (graph.addEdge edge).contains later.triple =
          graph.contains later.triple := by
        intro later member
        have different : later.triple ≠ edge.triple := fun same =>
          apart (same ▸ List.mem_map_of_mem member)
        rw [addEdge, Bool.eq_iff_iff, contains_iff, contains_iff, triples_add,
          if_neg (by simp [present])]
        simp [different]
      rw [List.filter_congr fun later member => congrArg not (same later member),
        List.filter_cons_of_pos (by simp [present]), addEdge, add_of_not_contains present]
      simp [numberFrom, nextId, size, Edge.triple, Nat.add_assoc]

end DependencyGraph

/-- Applying a draft numbers the edges that it adds. -/
theorem Draft.numbered_applyTo (draft : Draft) {graph : DependencyGraph}
    (numbered : graph.Numbered) : (draft.applyTo graph).graph.Numbered := by
  induction draft generalizing graph with
  | nil => exact numbered
  | cons entry rest ih =>
    cases entry with
    | error error => exact numbered
    | ok c =>
      rw [graph_applyTo_cons]
      exact ih (numbered.add _ _)

end FormFlow
