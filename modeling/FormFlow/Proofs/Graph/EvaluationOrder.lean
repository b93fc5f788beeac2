import FormFlow.Graph.Order
import Mathlib.Logic.Relation

/-!
# The order of evaluation

`evaluationOrder` answers exactly if no dependency leads back to where it started. Its
answer then lists the ends of the edges, each once and producers before their consumers;
otherwise the node that it names lies on a cycle (`evaluationOrder_sound`).

The first search keeps a stack with entries that may have become stale. A node that was
discovered and is not finished is *open*. What carries the proof is that an open node reaches
everything above its topmost entry, and that everything it still waits for lies there too
(`Search.Valid`). A finished node therefore has each successor finished before it, or reached
from that successor: the finished nodes are in postorder.

The second search fails as soon as it meets a node against an arc. By postorder the end of
that arc reaches its start.
-/

set_option autoImplicit false

namespace FormFlow

/-- One node feeds another in one of some graphs. -/
def Feeds (graphs : List DependencyGraph) (producer consumer : NodeId) : Prop :=
  ∃ graph ∈ graphs, ∃ edge ∈ graph.edges, edge.producer = producer ∧ edge.consumer = consumer

namespace DependencyView

open Relation (TransGen)

/-! ## The view of some graphs -/

/-- There is an arc from one node to another. -/
def Arrow (view : DependencyView) (producer consumer : NodeId) : Prop :=
  ∃ arc ∈ view.arcs, arc.producer = producer ∧ arc.consumer = consumer

/-- The ends of every arc are among the nodes, and no node is there twice. -/
structure Closed (view : DependencyView) : Prop where
  nodup : view.nodes.Nodup
  ends : ∀ {producer consumer}, view.Arrow producer consumer →
    producer ∈ view.nodes ∧ consumer ∈ view.nodes

theorem mem_successors {view : DependencyView} {producer consumer : NodeId} :
    consumer ∈ view.successors producer ↔ view.Arrow producer consumer := by
  simp [successors, Arrow, and_assoc]

theorem mem_predecessors {view : DependencyView} {producer consumer : NodeId} :
    producer ∈ view.predecessors consumer ↔ view.Arrow producer consumer := by
  simp only [predecessors, Arrow, List.mem_map, List.mem_filter, decide_eq_true_eq]
  exact ⟨fun ⟨arc, ⟨member, consumes⟩, produces⟩ => ⟨arc, member, produces, consumes⟩,
    fun ⟨arc, member, produces, consumes⟩ => ⟨arc, ⟨member, consumes⟩, produces⟩⟩

theorem mem_appendNew {nodes : List NodeId} {id other : NodeId} :
    other ∈ appendNew nodes id ↔ other ∈ nodes ∨ other = id := by
  simp only [appendNew]
  split
  · rename_i present
    exact ⟨.inl, fun h => h.elim (fun h => h) fun h => h ▸ present⟩
  · simp

theorem nodup_appendNew {nodes : List NodeId} (distinct : nodes.Nodup) (id : NodeId) :
    (appendNew nodes id).Nodup := by
  simp only [appendNew]
  split
  · exact distinct
  · rename_i absent
    rw [List.nodup_append]
    refine ⟨distinct, by simp, ?_⟩
    rintro first member second single rfl
    exact absent (List.mem_singleton.1 single ▸ member)

/-- Setting the role of an arc changes no pair but its own. -/
theorem exists_setArc {arc : Arc} {arcs : List Arc} {producer consumer : NodeId} :
    (∃ found ∈ setArc arc arcs, found.producer = producer ∧ found.consumer = consumer) ↔
      (arc.producer = producer ∧ arc.consumer = consumer) ∨
        ∃ found ∈ arcs, found.producer = producer ∧ found.consumer = consumer := by
  induction arcs with
  | nil => simp [setArc]
  | cons other rest ih =>
    simp only [setArc]
    split
    · rename_i same
      simp [same.1, same.2]
    · simp only [List.mem_cons, exists_eq_or_imp, ih]
      exact or_left_comm

theorem arrow_addEdge {view : DependencyView} {edge : Edge} {producer consumer : NodeId} :
    (view.addEdge edge).Arrow producer consumer ↔
      (edge.producer = producer ∧ edge.consumer = consumer) ∨ view.Arrow producer consumer :=
  exists_setArc

theorem mem_nodes_addEdge {view : DependencyView} {edge : Edge} {id : NodeId} :
    id ∈ (view.addEdge edge).nodes ↔
      id ∈ view.nodes ∨ id = edge.producer ∨ id = edge.consumer := by
  simp [addEdge, mem_appendNew, or_assoc]

theorem Closed.addEdge {view : DependencyView} (closed : view.Closed) (edge : Edge) :
    (view.addEdge edge).Closed where
  nodup := nodup_appendNew (nodup_appendNew closed.nodup _) _
  ends := by
    intro producer consumer arrow
    simp only [mem_nodes_addEdge]
    rcases arrow_addEdge.1 arrow with ⟨rfl, rfl⟩ | old
    · simp
    · exact ⟨.inl (closed.ends old).1, .inl (closed.ends old).2⟩

theorem foldl_addEdge {edges : List Edge} {view : DependencyView} (closed : view.Closed) :
    (edges.foldl addEdge view).Closed ∧
      (∀ producer consumer, (edges.foldl addEdge view).Arrow producer consumer ↔
        view.Arrow producer consumer ∨
          ∃ edge ∈ edges, edge.producer = producer ∧ edge.consumer = consumer) ∧
      ∀ id, id ∈ (edges.foldl addEdge view).nodes ↔
        id ∈ view.nodes ∨ ∃ edge ∈ edges, id = edge.producer ∨ id = edge.consumer := by
  induction edges generalizing view with
  | nil => simp [closed]
  | cons edge rest ih =>
    obtain ⟨restClosed, arrows, members⟩ := ih (closed.addEdge edge)
    refine ⟨restClosed, ?_, ?_⟩
    · intro producer consumer
      simp only [List.foldl_cons, arrows, arrow_addEdge, List.mem_cons, exists_eq_or_imp]
      rw [or_assoc, or_left_comm]
    · intro id
      simp only [List.foldl_cons, members, mem_nodes_addEdge, List.mem_cons, exists_eq_or_imp]
      rw [or_assoc]

theorem closed_empty : empty.Closed where
  nodup := List.nodup_nil
  ends := by simp [Arrow, empty]

theorem closed_ofGraphs (graphs : List DependencyGraph) : (ofGraphs graphs).Closed :=
  (foldl_addEdge closed_empty).1

/-- The arcs of a view are the pairs of producer and consumer of its graphs. -/
theorem arrow_ofGraphs {graphs : List DependencyGraph} {producer consumer : NodeId} :
    (ofGraphs graphs).Arrow producer consumer ↔ Feeds graphs producer consumer := by
  rw [ofGraphs, (foldl_addEdge closed_empty).2.1]
  simp only [Arrow, empty, Feeds, List.not_mem_nil, false_and, exists_false, false_or,
    List.mem_flatMap]
  exact ⟨fun ⟨edge, ⟨graph, known, member⟩, ends⟩ => ⟨graph, known, edge, member, ends⟩,
    fun ⟨graph, known, edge, member, ends⟩ => ⟨edge, ⟨graph, known, member⟩, ends⟩⟩

/-- The nodes of a view are the ends of the edges of its graphs. -/
theorem mem_nodes_ofGraphs {graphs : List DependencyGraph} {id : NodeId} :
    id ∈ (ofGraphs graphs).nodes ↔
      ∃ graph ∈ graphs, ∃ edge ∈ graph.edges, id = edge.producer ∨ id = edge.consumer := by
  rw [ofGraphs, (foldl_addEdge closed_empty).2.2]
  simp only [empty, List.not_mem_nil, false_or, List.mem_flatMap]
  exact ⟨fun ⟨edge, ⟨graph, known, member⟩, ends⟩ => ⟨graph, known, edge, member, ends⟩,
    fun ⟨graph, known, edge, member, ends⟩ => ⟨edge, ⟨graph, known, member⟩, ends⟩⟩

/-! ## The state of the first search -/

/-- A node that was discovered and is not finished. -/
def Search.Open (search : Search) (id : NodeId) : Prop :=
  id ∉ search.pending ∧ id ∉ search.finished

/-- What holds between two steps of the first search. An open node is looked at through its
topmost entry on the stack. -/
structure Search.Valid (view : DependencyView) (stack : List NodeId) (search : Search) :
    Prop where
  pending_nodup : search.pending.Nodup
  finished_nodup : search.finished.Nodup
  apart : ∀ id ∈ search.finished, id ∉ search.pending
  stacked : ∀ id ∈ stack, id ∈ view.nodes
  listed : ∀ id ∈ search.finished, id ∈ view.nodes
  open_stacked : ∀ id ∈ view.nodes, search.Open id → id ∈ stack
  loopless : ∀ id ∈ view.nodes, id ∉ search.pending → ¬ view.Arrow id id
  reaches : ∀ above id below, stack = above ++ id :: below → id ∉ above → search.Open id →
    ∀ other ∈ above, TransGen view.Arrow id other
  awaits : ∀ above id below, stack = above ++ id :: below → id ∉ above → search.Open id →
    ∀ next, view.Arrow id next → next ∈ search.pending → next ∈ above
  postorder : ∀ later id earlier, search.finished = later ++ id :: earlier →
    ∀ next, view.Arrow id next → next ∈ earlier ∨ TransGen view.Arrow next id

/-- The topmost entry of a node that is not among the new entries: it is the old top, or it
lies below it. -/
theorem split_below {fresh rest above below : List NodeId} {top id : NodeId}
    (split : fresh ++ top :: rest = above ++ id :: below) (notFresh : id ∉ fresh)
    (topmost : id ∉ above) :
    (id = top ∧ above = fresh) ∨
      ∃ between, above = fresh ++ top :: between ∧ rest = between ++ id :: below := by
  rcases List.append_eq_append_iff.1 split with ⟨between, rfl, tail⟩ | ⟨between, rfl, tail⟩
  · cases between with
    | nil =>
      simp only [List.nil_append, List.cons.injEq] at tail
      exact .inl ⟨tail.1.symm, by simp⟩
    | cons first between =>
      simp only [List.cons_append, List.cons.injEq] at tail
      exact .inr ⟨between, by rw [tail.1], tail.2⟩
  · cases between with
    | nil =>
      simp only [List.nil_append, List.cons.injEq] at tail
      exact .inl ⟨tail.1, by simp⟩
    | cons first between =>
      simp only [List.cons_append, List.cons.injEq] at tail
      exact absurd (by simp [tail.1]) notFresh

namespace Search.Valid

variable {view : DependencyView} {search : Search} {top : NodeId} {rest : List NodeId}

/-- Discovering the top of the stack puts what it leads to above it. -/
theorem discover (valid : Search.Valid view (top :: rest) search) (closed : view.Closed)
    (pending : top ∈ search.pending) (noLoop : ¬ view.Arrow top top) :
    Search.Valid view
      (((view.successors top).filter fun id => id ∈ search.pending.erase top).reverse ++
        top :: rest)
      { search with pending := search.pending.erase top } := by
  have mem_fresh : ∀ id, id ∈ ((view.successors top).filter fun id =>
      id ∈ search.pending.erase top).reverse ↔
        view.Arrow top id ∧ id ∈ search.pending.erase top := by
    simp [mem_successors]
  have erased : ∀ id, id ∈ search.pending.erase top ↔ id ≠ top ∧ id ∈ search.pending :=
    fun id => valid.pending_nodup.mem_erase_iff
  -- A node that is open now is the top, or was open before.
  have open_before : ∀ id, id ≠ top →
      Search.Open { search with pending := search.pending.erase top } id → search.Open id :=
    fun id other isOpen => ⟨fun member => isOpen.1 ((erased id).2 ⟨other, member⟩), isOpen.2⟩
  have not_fresh : ∀ id, Search.Open { search with pending := search.pending.erase top } id →
      id ∉ ((view.successors top).filter fun id => id ∈ search.pending.erase top).reverse :=
    fun id isOpen member => isOpen.1 ((mem_fresh id).1 member).2
  refine
    { pending_nodup := valid.pending_nodup.erase top
      finished_nodup := valid.finished_nodup
      apart := fun id member pending' => valid.apart id member ((erased id).1 pending').2
      stacked := ?_
      listed := valid.listed
      open_stacked := ?_
      loopless := ?_
      reaches := ?_
      awaits := ?_
      postorder := valid.postorder }
  · intro id member
    rcases List.mem_append.1 member with fresh | old
    · exact (closed.ends ((mem_fresh id).1 fresh).1).2
    · exact valid.stacked id old
  · intro id known isOpen
    by_cases same : id = top
    · simp [same]
    · exact List.mem_append_right _ (valid.open_stacked id known (open_before id same isOpen))
  · intro id known discovered
    by_cases same : id = top
    · exact same ▸ noLoop
    · exact valid.loopless id known fun member => discovered ((erased id).2 ⟨same, member⟩)
  · intro above id below split topmost isOpen other member
    rcases split_below split (not_fresh id isOpen) topmost with
      ⟨rfl, rfl⟩ | ⟨between, rfl, rfl⟩
    · exact .single ((mem_fresh other).1 member).1
    · have different : id ≠ top := by
        rintro rfl
        exact topmost (by simp)
      have below_top : id ∉ top :: between := fun here =>
        topmost (List.mem_append_right _ here)
      have old := valid.reaches (top :: between) id below rfl below_top
        (open_before id different isOpen)
      rcases List.mem_append.1 member with fresh | between'
      · exact (old top (by simp)).tail ((mem_fresh other).1 fresh).1
      · exact old other between'
  · intro above id below split topmost isOpen next arrow pending'
    rcases split_below split (not_fresh id isOpen) topmost with
      ⟨rfl, rfl⟩ | ⟨between, rfl, rfl⟩
    · exact (mem_fresh next).2 ⟨arrow, pending'⟩
    · have different : id ≠ top := by
        rintro rfl
        exact topmost (by simp)
      have below_top : id ∉ top :: between := fun here =>
        topmost (List.mem_append_right _ here)
      exact List.mem_append_right _ (valid.awaits (top :: between) id below rfl
        below_top (open_before id different isOpen) next arrow ((erased next).1 pending').2)

/-- An entry whose node is finished can be taken off the stack. -/
theorem drop (valid : Search.Valid view (top :: rest) search)
    (finished : top ∈ search.finished) : Search.Valid view rest search := by
  have different : ∀ id, search.Open id → id ≠ top := by
    rintro id isOpen rfl
    exact isOpen.2 finished
  refine { valid with
    stacked := fun id member => valid.stacked id (List.mem_cons_of_mem _ member)
    open_stacked := ?_
    reaches := ?_
    awaits := ?_ }
  · intro id known isOpen
    exact (List.mem_cons.1 (valid.open_stacked id known isOpen)).resolve_left
      (different id isOpen)
  · intro above id below split topmost isOpen other member
    exact valid.reaches (top :: above) id below (by simp [split])
      (by simp [topmost, different id isOpen]) isOpen other (List.mem_cons_of_mem _ member)
  · intro above id below split topmost isOpen next arrow pending
    have found := valid.awaits (top :: above) id below (by simp [split])
      (by simp [topmost, different id isOpen]) isOpen next arrow pending
    apply (List.mem_cons.1 found).resolve_left
    rintro rfl
    exact valid.apart next finished pending

/-- An open node on top of the stack waits for nothing, so that it can be finished. -/
theorem finish (valid : Search.Valid view (top :: rest) search) (closed : view.Closed)
    (discovered : top ∉ search.pending) (unfinished : top ∉ search.finished) :
    Search.Valid view rest { search with finished := top :: search.finished } := by
  have known := valid.stacked top (by simp)
  have open_before : ∀ id,
      Search.Open { search with finished := top :: search.finished } id →
        id ≠ top ∧ search.Open id :=
    fun id isOpen => ⟨fun same => isOpen.2 (by simp [same]),
      isOpen.1, fun member => isOpen.2 (List.mem_cons_of_mem _ member)⟩
  refine
    { pending_nodup := valid.pending_nodup
      finished_nodup := List.nodup_cons.2 ⟨unfinished, valid.finished_nodup⟩
      apart := ?_
      stacked := fun id member => valid.stacked id (List.mem_cons_of_mem _ member)
      listed := ?_
      open_stacked := ?_
      loopless := valid.loopless
      reaches := ?_
      awaits := ?_
      postorder := ?_ }
  · intro id member
    rcases List.mem_cons.1 member with rfl | old
    · exact discovered
    · exact valid.apart id old
  · intro id member
    rcases List.mem_cons.1 member with rfl | old
    · exact known
    · exact valid.listed id old
  · intro id known isOpen
    obtain ⟨different, wasOpen⟩ := open_before id isOpen
    exact (List.mem_cons.1 (valid.open_stacked id known wasOpen)).resolve_left different
  · intro above id below split topmost isOpen other member
    obtain ⟨different, wasOpen⟩ := open_before id isOpen
    exact valid.reaches (top :: above) id below (by simp [split])
      (by simp [topmost, different]) wasOpen other (List.mem_cons_of_mem _ member)
  · intro above id below split topmost isOpen next arrow pending
    obtain ⟨different, wasOpen⟩ := open_before id isOpen
    have found := valid.awaits (top :: above) id below (by simp [split])
      (by simp [topmost, different]) wasOpen next arrow pending
    apply (List.mem_cons.1 found).resolve_left
    rintro rfl
    exact discovered pending
  · intro later id earlier split next arrow
    cases later with
    | cons first later =>
      simp only [List.cons_append, List.cons.injEq] at split
      exact valid.postorder later id earlier split.2 next arrow
    | nil =>
      simp only [List.nil_append, List.cons.injEq] at split
      obtain ⟨rfl, rfl⟩ := split
      -- Every successor has been discovered; one that is open lies below and reaches the top.
      have seen : next ∉ search.pending := fun pending =>
        absurd (valid.awaits [] _ rest rfl (by simp) ⟨discovered, unfinished⟩ next arrow
          pending) (by simp)
      by_cases done : next ∈ search.finished
      · exact .inl done
      · have lies := valid.open_stacked next (closed.ends arrow).2 ⟨seen, done⟩
        rcases List.mem_cons.1 lies with rfl | lower
        · exact .inr (.single arrow)
        · by_cases same : next = top
          · subst same
            exact .inr (.single arrow)
          · obtain ⟨between, below, split, topmost⟩ := List.eq_append_cons_of_mem lower
            exact .inr (valid.reaches (top :: between) next below (by simp [split])
              (by simp [topmost, same]) ⟨seen, done⟩ top (by simp))

end Search.Valid

/-! ## The first search -/

/-- What a search for some nodes may end with: they and nothing else are no longer pending, or an
error names a node that feeds itself. -/
def Search.Ends (view : DependencyView) (search : Search) (ids : List NodeId) :
    Except StructureError Search → Prop
  | .ok next => Search.Valid view [] next ∧
      ∀ id ∈ next.pending, id ∈ search.pending ∧ id ∉ ids
  | .error error => ∃ id, error = .cycle id ∧ view.Arrow id id

/-- A search ends as its last part does. -/
theorem Search.Ends.of_last {view : DependencyView} {search middle : Search}
    {ids last : List NodeId} {result : Except StructureError Search}
    (ends : Search.Ends view middle last result)
    (kept : ∀ id ∈ middle.pending, id ∉ last → id ∈ search.pending ∧ id ∉ ids) :
    Search.Ends view search ids result := by
  cases result with
  | error error => exact ends
  | ok next =>
    obtain ⟨valid, remains⟩ := ends
    exact ⟨valid, fun id member => kept id (remains id member).1 (remains id member).2⟩

/-- A search clears its stack. -/
theorem explore_valid {view : DependencyView} (closed : view.Closed) (stack : List NodeId)
    (search : Search) (valid : Search.Valid view stack search) :
    Search.Ends view search stack (view.explore stack search) := by
  fun_induction view.explore stack search with
  | case1 search => exact ⟨valid, fun id member => ⟨member, by simp⟩⟩
  | case2 search top rest pending loop => exact ⟨top, rfl, mem_successors.1 loop⟩
  | case3 search top rest present noLoop pending fresh ih =>
    have next := ih (valid.discover closed present fun arrow => noLoop (mem_successors.2 arrow))
    refine next.of_last fun id still unstacked => ⟨List.mem_of_mem_erase still, ?_⟩
    exact fun old => unstacked (List.mem_append_right _ old)
  | case4 search top rest absent finished ih =>
    refine (ih (valid.drop finished)).of_last fun id still unstacked => ⟨still, ?_⟩
    rw [List.mem_cons]
    rintro (rfl | lower)
    · exact absent still
    · exact unstacked lower
  | case5 search top rest absent unfinished ih =>
    refine (ih (valid.finish closed absent unfinished)).of_last
      fun id still unstacked => ⟨still, ?_⟩
    rw [List.mem_cons]
    rintro (rfl | lower)
    · exact absent still
    · exact unstacked lower

/-- With an empty stack nothing is open, so that a pending node can be put on it. -/
theorem Search.Valid.begin {view : DependencyView} {search : Search} {id : NodeId}
    (valid : Search.Valid view [] search) (known : id ∈ view.nodes)
    (pending : id ∈ search.pending) : Search.Valid view [id] search := by
  have closed : ∀ other ∈ view.nodes, ¬ search.Open other :=
    fun other member isOpen => absurd (valid.open_stacked other member isOpen) (by simp)
  have only : ∀ above other below, [id] = above ++ other :: below → other = id := by
    intro above other below split
    have member : other ∈ [id] := split ▸ List.mem_append_right above (List.mem_cons_self ..)
    exact List.mem_singleton.1 member
  refine { valid with
    stacked := fun other member => List.mem_singleton.1 member ▸ known
    open_stacked := fun other member isOpen => absurd isOpen (closed other member)
    reaches := ?_
    awaits := ?_ }
  · intro above other below split _ isOpen
    exact absurd (only above other below split ▸ pending) isOpen.1
  · intro above other below split _ isOpen
    exact absurd (only above other below split ▸ pending) isOpen.1

theorem exploreAll_valid {view : DependencyView} (closed : view.Closed) (ids : List NodeId)
    (search : Search) (known : ∀ id ∈ ids, id ∈ view.nodes)
    (valid : Search.Valid view [] search) :
    Search.Ends view search ids (view.exploreAll ids search) := by
  induction ids generalizing search with
  | nil => exact ⟨valid, fun id member => ⟨member, by simp⟩⟩
  | cons id rest ih =>
    have restKnown : ∀ other ∈ rest, other ∈ view.nodes :=
      fun other member => known other (List.mem_cons_of_mem _ member)
    by_cases pending : id ∈ search.pending
    · have first := explore_valid closed [id] search (valid.begin (known id (by simp)) pending)
      simp only [exploreAll, pending, if_true]
      cases explored : view.explore [id] search with
      | error error =>
        rw [explored] at first
        exact first
      | ok middle =>
        rw [explored] at first
        obtain ⟨middleValid, remains⟩ := first
        apply (ih middle restKnown middleValid).of_last
        intro other still later
        obtain ⟨before, different⟩ := remains other still
        exact ⟨before, by simpa using ⟨by simpa using different, later⟩⟩
    · simp only [exploreAll, pending, if_false]
      refine (ih search restKnown valid).of_last fun other still later => ⟨still, ?_⟩
      rw [List.mem_cons]
      rintro (rfl | inside)
      · exact pending still
      · exact later inside

/-- Before the search every node is pending. -/
theorem Search.Valid.start {view : DependencyView} (closed : view.Closed) :
    Search.Valid view [] ⟨view.nodes, []⟩ where
  pending_nodup := closed.nodup
  finished_nodup := List.nodup_nil
  apart := by simp
  stacked := by simp
  listed := by simp
  open_stacked := fun id known isOpen => absurd known isOpen.1
  loopless := fun id known discovered => absurd known discovered
  reaches := by simp
  awaits := by simp
  postorder := by simp

/-! ## The second search -/

/-- Going back from a pending node stops at once, unless one of its producers is pending. -/
theorem retrace_single (view : DependencyView) {id : NodeId} {pending : List NodeId}
    (present : id ∈ pending) :
    match view.retrace [id] pending 0 with
    | .ok remaining => remaining = pending.erase id ∧
        ∀ producer, view.Arrow producer id → producer ∉ remaining
    | .error error => ∃ producer, error = .cycle producer ∧ view.Arrow producer id ∧
        producer ∈ pending.erase id := by
  rw [retrace]
  simp only [present, if_true, List.append_nil]
  cases split : ((view.predecessors id).filter fun other => other ∈ pending.erase id).reverse with
  | nil =>
    rw [retrace]
    refine ⟨rfl, fun producer arrow member => ?_⟩
    have found : producer ∈
        ((view.predecessors id).filter fun other => other ∈ pending.erase id).reverse := by
      simp [mem_predecessors, arrow, member]
    rw [split] at found
    exact absurd found (by simp)
  | cons producer others =>
    have found : producer ∈
        ((view.predecessors id).filter fun other => other ∈ pending.erase id).reverse := by
      rw [split]
      exact List.mem_cons_self ..
    simp only [List.mem_reverse, List.mem_filter, mem_predecessors, decide_eq_true_eq] at found
    rw [retrace]
    simp only [found.2, if_true, Nat.one_ne_zero, if_false]
    exact ⟨producer, rfl, found.1, found.2⟩

/-- The second search succeeds if no arc leads backwards, and otherwise names the producer of
one that does. -/
theorem retraceAll_spec (view : DependencyView) (order pending : List NodeId)
    (orderNodup : order.Nodup) (pendingNodup : pending.Nodup)
    (same : ∀ id, id ∈ pending ↔ id ∈ order) :
    match view.retraceAll order pending with
    | .ok () => ∀ earlier id later, order = earlier ++ id :: later →
        ∀ producer, view.Arrow producer id → producer ∉ later
    | .error error => ∃ earlier id later producer, order = earlier ++ id :: later ∧
        producer ∈ later ∧ view.Arrow producer id ∧ error = .cycle producer := by
  induction order generalizing pending with
  | nil => simp [retraceAll]
  | cons id rest ih =>
    have first := retrace_single view ((same id).2 (List.mem_cons_self ..))
    obtain ⟨absent, restNodup⟩ := List.nodup_cons.1 orderNodup
    have remains : ∀ other, other ∈ pending.erase id ↔ other ∈ rest := by
      intro other
      rw [pendingNodup.mem_erase_iff, same, List.mem_cons]
      constructor
      · rintro ⟨different, here | later⟩
        · exact absurd here different
        · exact later
      · intro later
        exact ⟨fun here => absent (here ▸ later), .inr later⟩
    simp only [retraceAll]
    revert first
    cases view.retrace [id] pending 0 with
    | error error =>
      rintro ⟨producer, rfl, arrow, member⟩
      exact ⟨[], id, rest, producer, rfl, (remains producer).1 member, arrow, rfl⟩
    | ok remaining =>
      rintro ⟨rfl, none_left⟩
      have next := ih (pending.erase id) restNodup (pendingNodup.erase id) remains
      simp only [bind, Except.bind]
      revert next
      cases view.retraceAll rest (pending.erase id) with
      | error error =>
        rintro ⟨earlier, other, later, producer, split, member, arrow, named⟩
        exact ⟨id :: earlier, other, later, producer, by simp [split], member, arrow, named⟩
      | ok done =>
        intro forward earlier other later split producer arrow
        cases earlier with
        | nil =>
          simp only [List.nil_append, List.cons.injEq] at split
          obtain ⟨rfl, rfl⟩ := split
          exact fun member => none_left producer arrow ((remains producer).2 member)
        | cons head earlier =>
          simp only [List.cons_append, List.cons.injEq] at split
          exact forward earlier other later split.2 producer arrow

/-! ## The order -/

/-- Producers stand before their consumers. -/
def Forward (order : List NodeId) (before : NodeId → NodeId → Prop) : Prop :=
  ∀ producer consumer, before producer consumer → order.idxOf producer < order.idxOf consumer

/-- What a list puts in a row forms no cycle. -/
theorem Forward.acyclic {order : List NodeId} {before : NodeId → NodeId → Prop}
    (forward : Forward order before) (id : NodeId) : ¬ TransGen before id id := by
  have rises : ∀ {first last}, TransGen before first last →
      order.idxOf first < order.idxOf last := by
    intro first last path
    induction path with
    | single step => exact forward _ _ step
    | tail _ step ih => exact Nat.lt_trans ih (forward _ _ step)
  exact fun cycle => Nat.lt_irrefl _ (rises cycle)

theorem order_spec {view : DependencyView} (closed : view.Closed) :
    match view.order with
    | .ok order => order.Nodup ∧ (∀ id, id ∈ order ↔ id ∈ view.nodes) ∧
        Forward order view.Arrow
    | .error error => ∃ id, error = .cycle id ∧ TransGen view.Arrow id id := by
  have first := exploreAll_valid closed view.nodes ⟨view.nodes, []⟩ (fun _ known => known)
    (Search.Valid.start closed)
  simp only [order]
  revert first
  cases view.exploreAll view.nodes ⟨view.nodes, []⟩ with
  | error error =>
    rintro ⟨id, rfl, loop⟩
    exact ⟨id, rfl, .single loop⟩
  | ok search =>
    rintro ⟨valid, remains⟩
    have discovered : ∀ id, id ∉ search.pending :=
      fun id member => (remains id member).2 (remains id member).1
    have members : ∀ id, id ∈ search.finished ↔ id ∈ view.nodes := by
      refine fun id => ⟨valid.listed id, fun known => Decidable.byContradiction ?_⟩
      intro unfinished
      exact absurd (valid.open_stacked id known ⟨discovered id, unfinished⟩) (by simp)
    have second := retraceAll_spec view search.finished view.nodes
      valid.finished_nodup closed.nodup fun id => (members id).symm
    simp only [bind, Except.bind]
    revert second
    cases view.retraceAll search.finished view.nodes with
    | error error =>
      rintro ⟨earlier, id, later, producer, split, member, arrow, rfl⟩
      -- The producer was finished first, so by postorder the consumer leads back to it.
      obtain ⟨between, rest, rfl⟩ := List.append_of_mem member
      refine ⟨producer, rfl, ?_⟩
      rcases valid.postorder (earlier ++ id :: between) producer rest (by simp [split]) id arrow
        with before | back
      · have distinct := valid.finished_nodup
        rw [split, List.nodup_append] at distinct
        have absent := (List.nodup_cons.1 distinct.2.1).1
        exact absurd (by simp [before]) absent
      · exact (TransGen.single arrow).trans back
    | ok done =>
      intro forward
      refine ⟨valid.finished_nodup, members, fun producer consumer arrow => ?_⟩
      obtain ⟨earlier, later, split, topmost⟩ :=
        List.eq_append_cons_of_mem ((members consumer).2 (closed.ends arrow).2)
      have listed := (members producer).2 (closed.ends arrow).1
      have notLater := forward earlier consumer later split producer arrow
      have different : producer ≠ consumer := by
        rintro rfl
        exact valid.loopless producer (closed.ends arrow).1 (discovered producer) arrow
      change search.finished.idxOf producer < search.finished.idxOf consumer
      rw [split] at listed ⊢
      have before : producer ∈ earlier := by
        rcases List.mem_append.1 listed with before | rest
        · exact before
        · exact absurd ((List.mem_cons.1 rest).resolve_left different) notLater
      rw [List.idxOf_append, if_pos before, List.idxOf_append, if_neg topmost]
      exact Nat.lt_of_lt_of_le (List.idxOf_lt_length_of_mem before) (Nat.le_add_left ..)

end DependencyView

open DependencyView in
/-- **The order of evaluation.** It exists exactly if no chain of dependencies returns to
where it started. It then lists the ends of all edges, each once and nothing else, producers
before their consumers. Otherwise the error names a node on a cycle. -/
theorem evaluationOrder_sound (graphs : List DependencyGraph) :
    ((∃ order, evaluationOrder graphs = .ok order) ↔
      ∀ id, ¬ Relation.TransGen (Feeds graphs) id id) ∧
    (∀ order, evaluationOrder graphs = .ok order →
      order.Nodup ∧
      (∀ id, id ∈ order ↔
        ∃ graph ∈ graphs, ∃ edge ∈ graph.edges, id = edge.producer ∨ id = edge.consumer) ∧
      ∀ producer consumer, Feeds graphs producer consumer →
        order.idxOf producer < order.idxOf consumer) ∧
    ∀ error, evaluationOrder graphs = .error error →
      ∃ id, error = .cycle id ∧ Relation.TransGen (Feeds graphs) id id := by
  have arrows : (ofGraphs graphs).Arrow = Feeds graphs := by
    funext producer consumer
    exact propext arrow_ofGraphs
  have spec := order_spec (closed_ofGraphs graphs)
  rw [arrows] at spec
  simp only [mem_nodes_ofGraphs] at spec
  simp only [evaluationOrder]
  revert spec
  cases (ofGraphs graphs).order with
  | error error =>
    rintro ⟨id, rfl, cycle⟩
    refine ⟨⟨by simp, fun acyclic => absurd cycle (acyclic id)⟩, by simp, ?_⟩
    rintro error ⟨⟩
    exact ⟨id, rfl, cycle⟩
  | ok order =>
    rintro ⟨distinct, members, forward⟩
    refine ⟨⟨fun _ => Forward.acyclic forward, fun _ => ⟨order, rfl⟩⟩, ?_, by simp⟩
    rintro found ⟨⟩
    exact ⟨distinct, members, forward⟩

end FormFlow
