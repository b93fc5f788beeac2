import Mathlib
import FormFlow.Proofs.Serial.Graph

/-!
# The indices of a graph

An `IndexedGraph` holds its edges three times over: in the order of their addition, by slot under
the node that they lead to and under the node that they come from, and as a set of connections.
Every call writes to all of these, and going back to a mark has to take back exactly what was
written since. The edges alone leave no choice for the rest (`IndexedGraph.Sound.eq`), so it is
enough that every call keeps the indices sound and does to the edges what the function of its
name in `FormFlow.Graph.Basic` does.

`IndexedGraph.Follows` says which graphs calls lead to from a moment, where a graph may also be
saved and read, or take over another one, itself included. In all of them everything that is
looked up is found as if the edges were searched one by one, and a moment can be gone back to as
long as no call went back further (`IndexedGraph.reached_consistent`). If one did, other edges
may have the identifiers that were used at the moment (`IndexedGraph.Detour.not_restored`).
-/

set_option autoImplicit false

namespace FormFlow

deriving instance Hashable for NodeId
deriving instance Hashable for Role
deriving instance Hashable for Triple

/-! ## Slots by node -/

/-- The slots of edges, by node. -/
abbrev SlotIndex := Std.ExtHashMap NodeId (List Nat)

namespace SlotIndex

/-- Appends a slot to those of a node. -/
def push (index : SlotIndex) (node : NodeId) (slot : Nat) : SlotIndex :=
  index.alter node fun slots => some (slots.getD [] ++ [slot])

/-- Drops the slots from a number on, and the nodes that are left without slots. -/
def truncate (index : SlotIndex) (keep : Nat) : SlotIndex :=
  (index.map fun _ slots => slots.filter (· < keep)).filter fun _ slots => !slots.isEmpty

/-- The slots of the edges with a node at one end. -/
def slotsAt (endpoint : Edge → NodeId) (edges : List Edge) (node : NodeId) : List Nat :=
  (edges.zipIdx.filter fun entry => endpoint entry.1 = node).map Prod.snd

/-- Slots as an index lists them: a node without slots is not listed. -/
def bucket? (slots : List Nat) : Option (List Nat) := if slots.isEmpty then none else some slots

/-- An index lists, under every node, the slots of the edges with the node at one end. -/
def Lists (endpoint : Edge → NodeId) (edges : List Edge) (index : SlotIndex) : Prop :=
  ∀ node, index[node]? = bucket? (slotsAt endpoint edges node)

variable {endpoint : Edge → NodeId} {edges : List Edge} {index : SlotIndex}

theorem getD_bucket? (slots : List Nat) : (bucket? slots).getD [] = slots := by
  cases slots <;> rfl

theorem filter_bucket? (slots : List Nat) (keep : Nat) :
    ((bucket? slots).map fun slots => slots.filter (· < keep)).filter (fun left => !left.isEmpty) =
      bucket? (slots.filter (· < keep)) := by
  cases slots with
  | nil => rfl
  | cons slot rest =>
    change Option.filter _ (some ((slot :: rest).filter (· < keep))) = _
    cases (slot :: rest).filter (· < keep) <;> rfl

theorem slotsAt_append (edge : Edge) (node : NodeId) :
    slotsAt endpoint (edges ++ [edge]) node =
      slotsAt endpoint edges node ++ if endpoint edge = node then [edges.length] else [] := by
  simp only [slotsAt, List.zipIdx_append, List.filter_append, List.map_append, Nat.zero_add,
    List.zipIdx_singleton]
  split <;> rename_i here <;> simp [here]

/-- The first entries of a list with positions are those below a position. -/
theorem zipIdx_take (edges : List Edge) (start keep : Nat) :
    (edges.take keep).zipIdx start =
      (edges.zipIdx start).filter fun entry => entry.2 < start + keep := by
  induction edges generalizing start keep with
  | nil => simp
  | cons edge rest ih =>
    cases keep with
    | zero =>
      have late : ∀ entry ∈ (edge :: rest).zipIdx start, ¬entry.2 < start + 0 := fun entry member =>
        Nat.not_lt.2 (List.le_snd_of_mem_zipIdx member)
      simpa using late
    | succ keep =>
      have later := ih (start + 1) keep
      rw [Nat.add_right_comm, Nat.add_assoc] at later
      rw [List.take_succ_cons, List.zipIdx_cons, List.zipIdx_cons, later, List.filter_cons_of_pos]
      simp

theorem slotsAt_take (keep : Nat) (node : NodeId) :
    slotsAt endpoint (edges.take keep) node =
      (slotsAt endpoint edges node).filter (· < keep) := by
  rw [slotsAt, slotsAt, zipIdx_take, List.filter_map, List.filter_filter, List.filter_filter]
  simp [Bool.and_comm]

theorem lists_empty (endpoint : Edge → NodeId) : Lists endpoint [] (∅ : SlotIndex) := by
  intro node
  simp [slotsAt, bucket?]

theorem Lists.push (lists : Lists endpoint edges index) (edge : Edge) :
    Lists endpoint (edges ++ [edge]) (index.push (endpoint edge) edges.length) := by
  intro node
  rw [SlotIndex.push, Std.ExtHashMap.getElem?_alter, slotsAt_append]
  by_cases here : endpoint edge = node
  · simp only [here, lists node, getD_bucket?, beq_self_eq_true, if_true]
    simp [bucket?]
  · simp [here, lists node]

theorem Lists.truncate (lists : Lists endpoint edges index) (keep : Nat) :
    Lists endpoint (edges.take keep) (index.truncate keep) := by
  intro node
  rw [SlotIndex.truncate, Std.ExtHashMap.getElem?_filter', Std.ExtHashMap.getElem?_map, lists node,
    slotsAt_take]
  exact filter_bucket? (slotsAt endpoint edges node) keep

/-- What an index lists leaves no choice for the index. -/
theorem Lists.eq {other : SlotIndex} (lists : Lists endpoint edges index)
    (otherLists : Lists endpoint edges other) : index = other :=
  Std.ExtHashMap.ext_getElem? fun node => (lists node).trans (otherLists node).symm

end SlotIndex

/-! ## Graphs -/

/-- A graph with indices. -/
structure IndexedGraph where
  edges : List Edge
  /-- The slots of the edges into a node. -/
  incoming : SlotIndex
  /-- The slots of the edges out of a node. -/
  outgoing : SlotIndex
  /-- The connections that are there. -/
  seen : Std.ExtHashSet Triple
  /-- The number of the first identifier. -/
  firstId : Nat

namespace IndexedGraph

/-- A graph without edges whose identifiers start at a number. -/
def startingAt (first : Nat) : IndexedGraph := ⟨[], ∅, ∅, ∅, first⟩

/-- The number of the next identifier. -/
def nextId (graph : IndexedGraph) : Nat := graph.firstId + graph.edges.length

/-- Whether a connection is there. -/
def contains (graph : IndexedGraph) (triple : Triple) : Bool := graph.seen.contains triple

/-- Adds an edge in the next slot and enters it everywhere. -/
def push (graph : IndexedGraph) (triple : Triple) (metadata : EdgeMetadata) : IndexedGraph :=
  let slot := graph.edges.length
  { graph with
    edges := graph.edges ++
      [⟨⟨graph.firstId + slot⟩, triple.producer, triple.consumer, triple.role, metadata⟩]
    incoming := graph.incoming.push triple.consumer slot
    outgoing := graph.outgoing.push triple.producer slot
    seen := graph.seen.insert triple }

/-- Adds an edge unless its connection is there, and says whether it did. -/
def add (graph : IndexedGraph) (triple : Triple) (metadata : EdgeMetadata) :
    IndexedGraph × Bool :=
  if graph.seen.contains triple then (graph, false) else (graph.push triple metadata, true)

/-- Adds the edge of another graph, and counts it if it was added. -/
def count (state : IndexedGraph × Nat) (edge : Edge) : IndexedGraph × Nat :=
  let (graph, added) := state.1.add edge.triple edge.metadata
  (graph, if added then state.2 + 1 else state.2)

/-- Adds the edges of another graph in order, and says how many were added. -/
def extend (graph other : IndexedGraph) : IndexedGraph × Nat := other.edges.foldl count (graph, 0)

/-- Removes the edges whose identifiers are at or above a mark. -/
def truncate (graph : IndexedGraph) (mark : Nat) : IndexedGraph :=
  let keep := mark - graph.firstId
  if graph.edges.length ≤ keep then graph
  else
    { graph with
      edges := graph.edges.take keep
      incoming := graph.incoming.truncate keep
      outgoing := graph.outgoing.truncate keep
      seen := (graph.edges.drop keep).foldl (fun seen edge => seen.erase edge.triple) graph.seen }

/-- The edges in the slots of a node. Fails at a slot in which there is no edge. -/
def inSlots (graph : IndexedGraph) (index : SlotIndex) (node : NodeId) : Option (List Edge) :=
  (index[node]?.getD []).mapM fun slot => graph.edges[slot]?

/-- The edges into a node, in order. -/
def edgesTo (graph : IndexedGraph) (consumer : NodeId) : Option (List Edge) :=
  graph.inSlots graph.incoming consumer

/-- The edges out of a node, in order. -/
def edgesFrom (graph : IndexedGraph) (producer : NodeId) : Option (List Edge) :=
  graph.inSlots graph.outgoing producer

/-- The edge with an identifier: its slot is counted from the first one. -/
def edge? (graph : IndexedGraph) (id : EdgeId) : Option Edge :=
  if id.val < graph.firstId then none else graph.edges[id.val - graph.firstId]?

/-- The graph of a list of edges, with identifiers from a number on. -/
def ofEdges (edges : List Edge) (first : Nat) : IndexedGraph :=
  edges.foldl (fun graph edge => (graph.add edge.triple edge.metadata).1) (startingAt first)

/-- The edges of another graph whose connections are not there. -/
def missing (graph other : IndexedGraph) : List Edge :=
  other.edges.filter fun edge => !graph.contains edge.triple

/-- The graph without its indices. -/
def plain (graph : IndexedGraph) : DependencyGraph := ⟨graph.edges, graph.firstId⟩

/-- The text of a graph, which says nothing of the indices. -/
def text (graph : IndexedGraph) : String := graph.plain.toJson.compact

/-- Reads a graph from its text. -/
def ofText (text : String) : Except ReadError IndexedGraph :=
  Reader.ofText (Reader.structured (DependencyGraph.stored.map fun (first, edges) =>
    ofEdges edges first)) text

/-! ## What the indices say -/

/-- A graph each index of which says what its edges say. -/
structure Sound (graph : IndexedGraph) : Prop where
  numbered : graph.plain.Numbered
  distinct : graph.plain.triples.Nodup
  seen : ∀ triple, triple ∈ graph.seen ↔ triple ∈ graph.plain.triples
  incoming : SlotIndex.Lists Edge.consumer graph.edges graph.incoming
  outgoing : SlotIndex.Lists Edge.producer graph.edges graph.outgoing

variable {graph other : IndexedGraph}

theorem sound_startingAt (first : Nat) : (startingAt first).Sound where
  numbered := rfl
  distinct := List.nodup_nil
  seen := by simp [startingAt, plain, DependencyGraph.triples]
  incoming := SlotIndex.lists_empty Edge.consumer
  outgoing := SlotIndex.lists_empty Edge.producer

/-- The edges of a graph leave no choice for its indices. -/
theorem Sound.eq (sound : graph.Sound) (otherSound : other.Sound)
    (same : graph.plain = other.plain) : graph = other := by
  have seen : graph.seen = other.seen := Std.ExtHashSet.ext_mem fun triple => by
    rw [sound.seen, otherSound.seen, same]
  have incoming := sound.incoming
  have outgoing := sound.outgoing
  obtain ⟨edges, incomingOf, outgoingOf, seenOf, first⟩ := graph
  obtain ⟨otherEdges, otherIncoming, otherOutgoing, otherSeen, otherFirst⟩ := other
  cases same
  cases seen
  cases incoming.eq otherSound.incoming
  cases outgoing.eq otherSound.outgoing
  rfl

theorem Sound.contains_eq (sound : graph.Sound) (triple : Triple) :
    graph.contains triple = graph.plain.contains triple := by
  rw [Bool.eq_iff_iff, DependencyGraph.contains_iff, ← sound.seen]
  exact Std.ExtHashSet.contains_iff_mem

/-! ### Adding edges -/

theorem Sound.plain_add (sound : graph.Sound) (triple : Triple) (metadata : EdgeMetadata) :
    ((graph.add triple metadata).1.plain, (graph.add triple metadata).2) =
      graph.plain.add triple metadata := by
  have same : graph.seen.contains triple = graph.plain.contains triple := sound.contains_eq triple
  rw [add, DependencyGraph.add, same]
  split <;> rfl

theorem Sound.push (sound : graph.Sound) {triple : Triple} (fresh : graph.contains triple = false)
    (metadata : EdgeMetadata) : (graph.push triple metadata).Sound := by
  have absent : graph.plain.contains triple = false := sound.contains_eq triple ▸ fresh
  have same : (graph.push triple metadata).plain = (graph.plain.add triple metadata).1 := by
    rw [DependencyGraph.add_of_not_contains absent]
    rfl
  exact {
    numbered := same ▸ sound.numbered.add triple metadata
    distinct := same ▸ DependencyGraph.nodup_triples_add sound.distinct triple metadata
    seen := fun found => by
      rw [same, DependencyGraph.triples_add, if_neg (by simp [absent]), List.mem_append,
        ← sound.seen, List.mem_singleton]
      change found ∈ graph.seen.insert triple ↔ _
      rw [Std.ExtHashSet.mem_insert, beq_iff_eq, or_comm, eq_comm]
    incoming := sound.incoming.push _
    outgoing := sound.outgoing.push _ }

theorem Sound.add (sound : graph.Sound) (triple : Triple) (metadata : EdgeMetadata) :
    (graph.add triple metadata).1.Sound := by
  rw [IndexedGraph.add]
  split
  · exact sound
  · rename_i fresh
    exact sound.push (Bool.eq_false_iff.2 fresh) metadata

theorem add_of_contains {triple : Triple} (present : graph.contains triple = true)
    (metadata : EdgeMetadata) : graph.add triple metadata = (graph, false) :=
  if_pos present

theorem contains_add (triple found : Triple) (metadata : EdgeMetadata) :
    (graph.add triple metadata).1.contains found = true ↔
      graph.contains found = true ∨ found = triple := by
  rw [IndexedGraph.add]
  split
  · rename_i present
    exact ⟨.inl, fun either => either.elim id fun same => same ▸ present⟩
  · change (graph.seen.insert triple).contains found = true ↔ _
    rw [Std.ExtHashSet.contains_insert, Bool.or_eq_true, beq_iff_eq, or_comm, @eq_comm _ triple]
    rfl

/-! ### Taking over the edges of another graph -/

theorem Sound.foldl_count (sound : graph.Sound) (edges : List Edge) (already : Nat) :
    (edges.foldl count (graph, already)).1.Sound ∧
      (edges.foldl count (graph, already)).1.plain =
        edges.foldl DependencyGraph.addEdge graph.plain := by
  induction edges generalizing graph already with
  | nil => exact ⟨sound, rfl⟩
  | cons edge rest ih =>
    have one : (graph.add edge.triple edge.metadata).1.plain = graph.plain.addEdge edge :=
      congrArg Prod.fst (sound.plain_add edge.triple edge.metadata)
    rw [List.foldl_cons, List.foldl_cons, ← one]
    exact ih (sound.add edge.triple edge.metadata) _

theorem Sound.extend (sound : graph.Sound) (other : IndexedGraph) :
    (graph.extend other).1.Sound :=
  (sound.foldl_count other.edges 0).1

theorem Sound.plain_extend (sound : graph.Sound) (other : IndexedGraph) :
    (graph.extend other).1.plain = graph.plain.extend other.plain :=
  (sound.foldl_count other.edges 0).2

/-- What is counted is by how many edges the graph grew. -/
theorem length_foldl_count (edges : List Edge) (state : IndexedGraph × Nat) :
    (edges.foldl count state).1.edges.length + state.2 =
      state.1.edges.length + (edges.foldl count state).2 := by
  induction edges generalizing state with
  | nil => rfl
  | cons edge rest ih =>
    have later := ih (count state edge)
    have one : (count state edge).1.edges.length + state.2 =
        state.1.edges.length + (count state edge).2 := by
      simp only [count, add]
      split
      · rfl
      · simp only [IndexedGraph.push, List.length_append, List.length_singleton, if_true]
        omega
    rw [List.foldl_cons]
    omega

theorem contains_foldl_count (edges : List Edge) (state : IndexedGraph × Nat) (found : Triple) :
    (edges.foldl count state).1.contains found = true ↔
      state.1.contains found = true ∨ ∃ edge ∈ edges, edge.triple = found := by
  induction edges generalizing state with
  | nil => simp
  | cons edge rest ih =>
    rw [List.foldl_cons, ih]
    change (state.1.add edge.triple edge.metadata).1.contains found = true ∨ _ ↔ _
    rw [contains_add, List.exists_mem_cons_iff, or_assoc, @eq_comm _ found]

/-- Edges whose connections are all there add nothing. -/
theorem foldl_count_of_contains {edges : List Edge} {already : Nat}
    (present : ∀ edge ∈ edges, graph.contains edge.triple = true) :
    edges.foldl count (graph, already) = (graph, already) := by
  induction edges with
  | nil => rfl
  | cons edge rest ih =>
    have one : count (graph, already) edge = (graph, already) := by
      rw [count, add_of_contains (present edge (List.mem_cons_self ..))]
      rfl
    rw [List.foldl_cons, one]
    exact ih fun later member => present later (List.mem_cons_of_mem _ member)

/-! ### Going back -/

theorem mem_foldl_erase (edges : List Edge) (seen : Std.ExtHashSet Triple) (triple : Triple) :
    triple ∈ edges.foldl (fun seen edge => seen.erase edge.triple) seen ↔
      triple ∈ seen ∧ triple ∉ edges.map Edge.triple := by
  induction edges generalizing seen with
  | nil => simp
  | cons edge rest ih =>
    rw [List.foldl_cons, ih, Std.ExtHashSet.mem_erase, List.map_cons, List.mem_cons, not_or,
      beq_eq_false_iff_ne, ne_comm, @and_comm (triple ≠ edge.triple), and_assoc]

theorem plain_truncate (graph : IndexedGraph) (mark : Nat) :
    (graph.truncate mark).plain = graph.plain.truncate mark := by
  rw [truncate, DependencyGraph.truncate]
  split
  · rename_i short
    exact congrArg (DependencyGraph.mk · graph.firstId) (List.take_of_length_le short).symm
  · rfl

theorem Sound.truncate (sound : graph.Sound) (mark : Nat) : (graph.truncate mark).Sound := by
  rw [IndexedGraph.truncate]
  split
  · exact sound
  · have parts := List.take_append_drop (mark - graph.firstId) graph.edges
    have numbered : DependencyGraph.CountUp graph.firstId graph.edges := sound.numbered
    have distinct : (graph.edges.map Edge.triple).Nodup := sound.distinct
    rw [← parts] at numbered distinct
    rw [List.map_append, List.nodup_append'] at distinct
    exact {
      numbered := (DependencyGraph.countUp_append.1 numbered).1
      distinct := distinct.1
      seen := fun triple => by
        change triple ∈ List.foldl _ _ _ ↔ triple ∈ (graph.edges.take _).map Edge.triple
        rw [mem_foldl_erase, sound.seen]
        change triple ∈ graph.edges.map Edge.triple ∧ _ ↔ _
        nth_rewrite 1 [← parts]
        rw [List.map_append, List.mem_append]
        exact ⟨fun ⟨either, gone⟩ => either.resolve_right gone,
          fun kept => ⟨.inl kept, distinct.2.2 kept⟩⟩
      incoming := sound.incoming.truncate _
      outgoing := sound.outgoing.truncate _ }

/-! ### Looking edges up -/

theorem mapM_eq_some {α β : Type} {f : α → Option β} {g : α → β} {items : List α}
    (each : ∀ item ∈ items, f item = some (g item)) : items.mapM f = some (items.map g) := by
  induction items with
  | nil => rfl
  | cons item rest ih =>
    rw [List.mapM_cons, each item (List.mem_cons_self ..),
      ih fun later member => each later (List.mem_cons_of_mem _ member)]
    rfl

/-- No slot of an index is without an edge, and the edges in the slots of a node are those with
the node at the end that the index is for. -/
theorem inSlots_eq {endpoint : Edge → NodeId} {index : SlotIndex}
    (lists : SlotIndex.Lists endpoint graph.edges index) (node : NodeId) :
    graph.inSlots index node = some (graph.edges.filter fun edge => endpoint edge = node) := by
  have inSlot : ∀ entry ∈ graph.edges.zipIdx.filter (fun entry => endpoint entry.1 = node),
      graph.edges[entry.2]? = some entry.1 := fun entry member =>
    List.mem_zipIdx_iff_getElem?.1 (List.mem_of_mem_filter member)
  have alone : (graph.edges.zipIdx.filter fun entry => endpoint entry.1 = node).map Prod.fst =
      graph.edges.filter fun edge => endpoint edge = node := by
    conv_rhs => rw [← List.zipIdx_map_fst 0 graph.edges, List.filter_map]
    rfl
  rw [inSlots, lists node, SlotIndex.getD_bucket?, SlotIndex.slotsAt, List.mapM_map]
  exact (mapM_eq_some inSlot).trans (congrArg some alone)

/-! ## Runs of calls -/

/-- The graphs to which calls lead from a moment, as long as no call goes back below a mark. A
graph that is taken over was made by calls on its own. -/
inductive Follows : (mark : Nat) → (moment graph : IndexedGraph) → Prop where
  | here (mark : Nat) (moment : IndexedGraph) : Follows mark moment moment
  | add {mark : Nat} {moment graph : IndexedGraph} (follows : Follows mark moment graph)
      (triple : Triple) (metadata : EdgeMetadata) (producer : triple.producer.val < identBound)
      (consumer : triple.consumer.val < identBound) :
      Follows mark moment (graph.add triple metadata).1
  | extend {mark first : Nat} {moment graph other : IndexedGraph}
      (follows : Follows mark moment graph) (reached : Follows 0 (startingAt first) other) :
      Follows mark moment (graph.extend other).1
  | truncate {mark : Nat} {moment graph : IndexedGraph} (follows : Follows mark moment graph)
      (lower : Nat) (high : mark ≤ lower) : Follows mark moment (graph.truncate lower)
  | reload {mark : Nat} {moment graph again : IndexedGraph} (follows : Follows mark moment graph)
      (counted : graph.nextId < identBound) (read : ofText graph.text = .ok again) :
      Follows mark moment again

/-- The graphs to which calls lead from a graph without edges. -/
def Reached (first : Nat) (graph : IndexedGraph) : Prop := Follows 0 (startingAt first) graph

/-- What calls keep: the indices are sound, and every end of an edge fits its text. -/
structure Kept (graph : IndexedGraph) : Prop extends graph.Sound where
  ends : ∀ triple ∈ graph.plain.triples,
    triple.producer.val < identBound ∧ triple.consumer.val < identBound

theorem Kept.storable (kept : graph.Kept) (counted : graph.nextId < identBound) :
    graph.plain.Storable where
  first := Nat.lt_of_le_of_lt (Nat.le_add_right ..) counted
  edges := fun edge member => by
    obtain ⟨producer, consumer⟩ := kept.ends edge.triple (List.mem_map_of_mem member)
    refine ⟨?_, producer, consumer⟩
    obtain ⟨position, found⟩ := List.getElem?_of_mem member
    have inside : position < graph.edges.length := (List.getElem?_eq_some_iff.1 found).1
    have number : edge.id.val = graph.firstId + position := kept.numbered.id_eq found
    rw [nextId] at counted
    omega

/-- A graph is rebuilt from its edges. -/
theorem ofEdges_eq (sound : graph.Sound) : ofEdges graph.edges graph.firstId = graph := by
  have same : ∀ (edges : List Edge) (start : IndexedGraph) (already : Nat),
      edges.foldl (fun graph edge => (graph.add edge.triple edge.metadata).1) start =
        (edges.foldl count (start, already)).1 := by
    intro edges
    induction edges with
    | nil => exact fun _ _ => rfl
    | cons edge rest ih => exact fun start _ => ih (start.add edge.triple edge.metadata).1 _
  obtain ⟨rebuilt, plain⟩ := (sound_startingAt graph.firstId).foldl_count graph.edges 0
  rw [ofEdges, same _ _ 0]
  refine rebuilt.eq sound (plain.trans ?_)
  exact DependencyGraph.foldl_addEdge sound.numbered sound.distinct fun _ _ => List.not_mem_nil

/-- A graph is read back from its text as itself. -/
theorem Kept.ofText_text (kept : graph.Kept) (counted : graph.nextId < identBound) :
    ofText graph.text = .ok graph := by
  rw [ofText, text, Json.compact,
    DependencyGraph.ofText_stored (kept.storable counted) _ Scanner.airy_compact]
  exact congrArg Except.ok (ofEdges_eq kept.toSound)

theorem kept_startingAt (first : Nat) : (startingAt first).Kept where
  toSound := sound_startingAt first
  ends := nofun

theorem Kept.add (kept : graph.Kept) {triple : Triple} (producer : triple.producer.val < identBound)
    (consumer : triple.consumer.val < identBound) (metadata : EdgeMetadata) :
    (graph.add triple metadata).1.Kept where
  toSound := kept.toSound.add triple metadata
  ends := fun found member => by
    have same : (graph.add triple metadata).1.plain = _ := congrArg Prod.fst (kept.plain_add ..)
    rw [same, DependencyGraph.triples_add] at member
    split at member
    · exact kept.ends found member
    · rcases List.mem_append.1 member with earlier | here
      · exact kept.ends found earlier
      · rw [List.mem_singleton.1 here]
        exact ⟨producer, consumer⟩

theorem Kept.extend (kept : graph.Kept) (otherKept : other.Kept) :
    (graph.extend other).1.Kept where
  toSound := kept.toSound.extend other
  ends := fun found member => by
    have present : (graph.extend other).1.contains found = true := by
      rw [(kept.toSound.extend other).contains_eq, DependencyGraph.contains_iff]
      exact member
    rw [IndexedGraph.extend, contains_foldl_count, kept.contains_eq,
      DependencyGraph.contains_iff] at present
    rcases present with earlier | ⟨edge, belongs, rfl⟩
    · exact kept.ends found earlier
    · exact otherKept.ends edge.triple (List.mem_map_of_mem belongs)

theorem Kept.truncate (kept : graph.Kept) (mark : Nat) : (graph.truncate mark).Kept where
  toSound := kept.toSound.truncate mark
  ends := fun found member => by
    rw [plain_truncate] at member
    exact kept.ends found ((List.take_sublist ..).map Edge.triple |>.subset member)

/-- Nothing is written over below the mark. -/
structure Extends (mark : Nat) (moment graph : IndexedGraph) : Prop where
  kept : graph.Kept
  firstId : graph.firstId = moment.firstId
  below : moment.edges.take (mark - moment.firstId) <+: graph.edges

/-- The edges of a graph go on behind those that it has when others are taken over. -/
theorem Sound.plain_extend_eq (sound : graph.Sound) (otherSound : other.Sound) :
    (graph.extend other).1.plain =
      { graph.plain with
        edges :=
          graph.edges ++ DependencyGraph.numberFrom graph.nextId (graph.missing other) } := by
  rw [sound.plain_extend, DependencyGraph.extend,
    DependencyGraph.foldl_addEdge_eq otherSound.distinct]
  simp only [missing, sound.contains_eq]
  rfl

theorem Follows.extends {mark : Nat} {moment graph : IndexedGraph}
    (follows : Follows mark moment graph) (kept : moment.Kept) : Extends mark moment graph := by
  induction follows with
  | here => exact ⟨kept, rfl, List.take_prefix ..⟩
  | @add mark moment graph _ triple metadata producer consumer ih =>
    obtain ⟨here, first, below⟩ := ih kept
    have same : (graph.add triple metadata).1.plain = _ := congrArg Prod.fst (here.plain_add ..)
    have stays := (congrArg DependencyGraph.firstId same).trans (DependencyGraph.firstId_add ..)
    refine ⟨here.add producer consumer metadata, stays.trans first, below.trans ?_⟩
    rw [IndexedGraph.add]
    split
    · exact List.prefix_rfl
    · exact List.prefix_append ..
  | @extend mark start moment graph other _ _ ih otherIh =>
    obtain ⟨here, first, below⟩ := ih kept
    obtain ⟨there, -, -⟩ := otherIh (kept_startingAt start)
    have same := here.plain_extend_eq there.toSound
    refine ⟨here.extend there, (congrArg DependencyGraph.firstId same).trans first,
      below.trans ?_⟩
    rw [show (graph.extend other).1.edges = _ from congrArg DependencyGraph.edges same]
    exact List.prefix_append ..
  | @truncate mark moment graph _ lower high ih =>
    obtain ⟨here, first, below⟩ := ih kept
    have same := graph.plain_truncate lower
    refine ⟨here.truncate lower, (congrArg DependencyGraph.firstId same).trans first, ?_⟩
    rw [show (graph.truncate lower).edges = _ from congrArg DependencyGraph.edges same]
    refine List.prefix_take_iff.2 ⟨below, Nat.le_trans (List.length_take_le ..) ?_⟩
    change mark - moment.firstId ≤ lower - graph.firstId
    rw [first]
    exact Nat.sub_le_sub_right high _
  | reload _ counted read ih =>
    obtain ⟨here, first, below⟩ := ih kept
    rw [here.ofText_text counted] at read
    cases read
    exact ⟨here, first, below⟩

/-! ## What a graph says, and what calls do to it -/

/-- A graph whose identifiers start at a number, and everything that can be looked up in it. -/
structure Consistent (first : Nat) (graph : IndexedGraph) : Prop where
  firstId : graph.firstId = first
  numbered : ∀ position edge, graph.edges[position]? = some edge → edge.id.val = first + position
  distinct : (graph.edges.map Edge.triple).Nodup
  contains_iff : ∀ triple,
    graph.contains triple = true ↔ ∃ edge ∈ graph.edges, edge.triple = triple
  edgesTo : ∀ node, graph.edgesTo node = some (graph.edges.filter fun edge => edge.consumer = node)
  edgesFrom : ∀ node,
    graph.edgesFrom node = some (graph.edges.filter fun edge => edge.producer = node)
  edge?_iff : ∀ id edge, graph.edge? id = some edge ↔ edge ∈ graph.edges ∧ edge.id = id

/-- What calls do to a graph. -/
structure Obedient (graph : IndexedGraph) : Prop where
  add_present : ∀ triple metadata, graph.contains triple = true →
    graph.add triple metadata = (graph, false)
  add_absent : ∀ triple metadata, graph.contains triple = false →
    (graph.add triple metadata).2 = true ∧
      (graph.add triple metadata).1.edges = graph.edges ++
        [⟨⟨graph.nextId⟩, triple.producer, triple.consumer, triple.role, metadata⟩]
  /-- The new connections are taken over in order, with the next identifiers. -/
  extend : ∀ start other, Reached start other →
    (graph.extend other).1.edges =
        graph.edges ++ DependencyGraph.numberFrom graph.nextId (graph.missing other) ∧
      (graph.extend other).2 = (graph.missing other).length ∧
      (graph.extend other).1.extend other = ((graph.extend other).1, 0)
  extend_self : graph.extend graph = (graph, 0)
  truncate : ∀ mark,
    (graph.truncate mark).edges = graph.edges.filter fun edge => edge.id.val < mark
  reload : graph.nextId < identBound → ofText graph.text = .ok graph

/-- What a graph says is what the graph without indices says, and every call does to its edges
what it does to those of the graph without indices. -/
structure Agrees (graph : IndexedGraph) : Prop where
  contains : ∀ triple, graph.contains triple = graph.plain.contains triple
  edgesTo : ∀ node, graph.edgesTo node = some (graph.plain.edgesTo node)
  edgesFrom : ∀ node, graph.edgesFrom node = some (graph.plain.edgesFrom node)
  edge? : ∀ id, graph.edge? id = graph.plain.edge? id
  add : ∀ triple metadata,
    ((graph.add triple metadata).1.plain, (graph.add triple metadata).2) =
      graph.plain.add triple metadata
  extend : ∀ other : IndexedGraph, (graph.extend other).1.plain = graph.plain.extend other.plain
  truncate : ∀ mark, (graph.truncate mark).plain = graph.plain.truncate mark
  reload : graph.nextId < identBound → DependencyGraph.ofText graph.text = .ok graph.plain

theorem Kept.consistent (kept : graph.Kept) : Consistent graph.firstId graph where
  firstId := rfl
  numbered := fun _ _ found => kept.numbered.id_eq found
  distinct := kept.distinct
  contains_iff := fun triple => by
    rw [kept.contains_eq, DependencyGraph.contains_iff]
    exact List.mem_map
  edgesTo := inSlots_eq kept.incoming
  edgesFrom := inSlots_eq kept.outgoing
  edge?_iff := fun _ _ => kept.numbered.edge?_eq_some_iff

/-- Taking a graph over a second time adds nothing. -/
theorem extend_again (graph other : IndexedGraph) :
    (graph.extend other).1.extend other = ((graph.extend other).1, 0) :=
  foldl_count_of_contains fun edge member =>
    (contains_foldl_count other.edges (graph, 0) edge.triple).2 (.inr ⟨edge, member, rfl⟩)

theorem length_numberFrom (first : Nat) (edges : List Edge) :
    (DependencyGraph.numberFrom first edges).length = edges.length := by
  induction edges generalizing first with
  | nil => rfl
  | cons edge rest ih => exact congrArg (· + 1) (ih (first + 1))

theorem Kept.obedient (kept : graph.Kept) : Obedient graph where
  add_present := fun _ metadata present => add_of_contains present metadata
  add_absent := fun triple metadata absent => by
    have fresh : ¬graph.seen.contains triple = true := Bool.eq_false_iff.1 absent
    rw [IndexedGraph.add, if_neg fresh]
    exact ⟨rfl, rfl⟩
  extend := fun start other reached => by
    obtain ⟨there, -, -⟩ := reached.extends (kept_startingAt start)
    have edges : (graph.extend other).1.edges = _ :=
      congrArg DependencyGraph.edges (kept.plain_extend_eq there.toSound)
    refine ⟨edges, ?_, extend_again graph other⟩
    have grown : (graph.extend other).1.edges.length + 0 =
        graph.edges.length + (graph.extend other).2 :=
      length_foldl_count other.edges (graph, 0)
    rw [edges, List.length_append, length_numberFrom] at grown
    omega
  extend_self := foldl_count_of_contains fun edge member =>
    (kept.consistent.contains_iff edge.triple).2 ⟨edge, member, rfl⟩
  truncate := fun mark =>
    (congrArg DependencyGraph.edges (graph.plain_truncate mark)).trans kept.numbered.take_eq
  reload := kept.ofText_text

theorem Kept.agrees (kept : graph.Kept) : Agrees graph where
  contains := kept.contains_eq
  edgesTo := inSlots_eq kept.incoming
  edgesFrom := inSlots_eq kept.outgoing
  edge? := fun _ => rfl
  add := kept.plain_add
  extend := kept.plain_extend
  truncate := graph.plain_truncate
  reload := fun counted => DependencyGraph.ofText_write (kept.storable counted) kept.numbered
    kept.distinct Scanner.airy_compact

/-- Going back to a moment restores the graph of that moment. -/
theorem Follows.truncate_eq {moment later : IndexedGraph}
    (follows : Follows moment.nextId moment later) (kept : moment.Kept) :
    later.truncate moment.nextId = moment := by
  obtain ⟨laterKept, first, below⟩ := follows.extends kept
  have counted : moment.nextId - moment.firstId = moment.edges.length := Nat.add_sub_cancel_left ..
  rw [counted, List.take_length] at below
  refine (laterKept.toSound.truncate moment.nextId).eq kept.toSound ?_
  rw [plain_truncate, DependencyGraph.truncate]
  change DependencyGraph.mk (later.edges.take (moment.nextId - later.firstId)) later.firstId =
    ⟨moment.edges, moment.firstId⟩
  rw [first, counted, ← List.prefix_iff_eq_take.1 below]

/-- **The indices of a graph never go astray.** Whatever calls made a graph, its edges are
numbered in order, no connection is there twice, and every way to look edges up finds exactly the
edges that are there, in order. Adding a connection again changes nothing, taking over a graph
adds what is missing and nothing the second time, going back leaves the edges below the mark,
and the text of a graph is read as the graph. Calls that do not go back below the mark of a
moment are taken back by going back to that mark: the graph is what it was, indices included, so
that what was removed can be added again. -/
theorem reached_consistent {first : Nat} (reached : Reached first graph) :
    Consistent first graph ∧ Obedient graph ∧ Agrees graph ∧
      ∀ later, Follows graph.nextId graph later →
        later.truncate graph.nextId = graph ∧
          ∀ triple metadata, later.contains triple = true → graph.contains triple = false →
            ((later.truncate graph.nextId).add triple metadata).2 = true := by
  obtain ⟨kept, start, -⟩ := Follows.extends reached (kept_startingAt first)
  have starts : graph.firstId = first := start
  refine ⟨starts ▸ kept.consistent, kept.obedient, kept.agrees, fun later follows => ?_⟩
  have restored := follows.truncate_eq kept
  refine ⟨restored, fun triple metadata _ removed => ?_⟩
  rw [restored]
  exact (kept.obedient.add_absent triple metadata removed).1

/-! ### A mark that was passed on the way back -/

namespace Detour

def one : Triple := ⟨⟨1⟩, ⟨2⟩, .dataFlow⟩

def two : Triple := ⟨⟨3⟩, ⟨4⟩, .effect⟩

def three : Triple := ⟨⟨5⟩, ⟨6⟩, .dataFlow⟩

def begun : IndexedGraph := ((startingAt 0).add one .empty).1

def moment : IndexedGraph := (begun.add two .empty).1

/-- The graph after a call that went back below the mark of the moment, and another edge. -/
def later : IndexedGraph := ((moment.truncate 1).add three .empty).1

theorem begun_reached : Reached 0 begun := .add (.here 0 _) one .empty (by decide) (by decide)

theorem reached : Reached 0 moment := .add begun_reached two .empty (by decide) (by decide)

theorem follows : Follows 0 moment later :=
  .add (.truncate (.here 0 moment) 1 (by decide)) three .empty (by decide) (by decide)

theorem moment_consistent :
    Consistent 0 moment ∧ Obedient moment ∧ Agrees moment ∧
      ∀ later, Follows moment.nextId moment later →
        later.truncate moment.nextId = moment ∧
          ∀ triple metadata, later.contains triple = true → moment.contains triple = false →
            ((later.truncate moment.nextId).add triple metadata).2 = true :=
  reached_consistent reached

theorem plain_moment : moment.plain =
    ⟨[⟨⟨0⟩, ⟨1⟩, ⟨2⟩, .dataFlow, .empty⟩, ⟨⟨1⟩, ⟨3⟩, ⟨4⟩, .effect, .empty⟩], 0⟩ := by
  have start := sound_startingAt 0
  have first : begun.plain = _ := congrArg Prod.fst (start.plain_add one .empty)
  have second : moment.plain = _ :=
    congrArg Prod.fst ((start.add one .empty).plain_add two .empty)
  rw [second, show ((startingAt 0).add one .empty).1.plain = _ from first]
  rfl

theorem plain_later : later.plain =
    ⟨[⟨⟨0⟩, ⟨1⟩, ⟨2⟩, .dataFlow, .empty⟩, ⟨⟨1⟩, ⟨5⟩, ⟨6⟩, .dataFlow, .empty⟩], 0⟩ := by
  have sound : moment.Sound := ((sound_startingAt 0).add one .empty).add two .empty
  have last : later.plain = _ :=
    congrArg Prod.fst ((sound.truncate 1).plain_add three .empty)
  rw [last, plain_truncate, plain_moment]
  rfl

/-- Another edge may have taken the place of one that was there at the moment. -/
theorem not_restored :
    Reached 0 moment ∧ Follows 0 moment later ∧ moment.nextId = 2 ∧
      (later.truncate moment.nextId).plain.triples = [one, three] ∧
      moment.plain.triples = [one, two] ∧ later.truncate moment.nextId ≠ moment := by
  have mark : moment.nextId = 2 := congrArg DependencyGraph.nextId plain_moment
  have back : (later.truncate moment.nextId).plain.triples = [one, three] := by
    rw [mark, plain_truncate, plain_later]
    rfl
  have before : moment.plain.triples = [one, two] := by
    rw [plain_moment]
    rfl
  refine ⟨reached, follows, mark, back, before, fun same => ?_⟩
  rw [same, before] at back
  cases back

end Detour

end IndexedGraph

end FormFlow
