import FormFlow.Proofs.Request.Provision
import FormFlow.Proofs.Request.Reachable

/-!
# What an iteration connects

The edges of the form and those of a request are read as one graph (`RequestScope.joined`). An
iteration gives edges to its own nodes only (`RequestScope.Instance.mem_batch`), so every node
that was there keeps the edges that it has.

A reference is connected once (`RequestScope.Connected`): when it is made, and to the pseudo-node
that it then reads. A call keeps the references that are there connected
(`RequestScope.Connected.materialize`) and connects the new ones
(`RequestScope.Settled.connects`).
-/

set_option autoImplicit false

namespace FormFlow

open NodeSource

namespace RequestScope

namespace Instance

variable {wired : WiredForm} {overlay after : Overlay} {template : Template} {scheme : Renaming}
  {index : Nat} {complete : NodeStore} {state : Synthesis.State Layered}
  (made : Instance wired overlay after template scheme index complete state)
  (coherent : wired.form.nodes.Coherent) (anchored : wired.form.nodes.Anchored overlay.nodes)
include made coherent anchored

/-- The graph afterwards has what the new nodes ask for. -/
theorem metadata?_after (triple : Triple) : after.graph.metadata? triple =
    (overlay.graph.metadata? triple).or (Pass.batchOffer? (layersOver wired after) wired.scopes
      wired.config (batchOf template scheme index overlay.nodes ++ state.created) triple) := by
  rw [made.graph, made.layers_eq coherent anchored]
  exact (Pass.wireNodes_spec made.reports).2 triple

omit coherent anchored in
theorem nodup_after (distinct : overlay.graph.triples.Nodup) : after.graph.triples.Nodup := by
  rw [made.graph]
  exact Pass.nodup_triples_wireNodes distinct

/-- The identifiers of what is wired are new. -/
theorem mem_batch {id : NodeId}
    (member : id ∈ batchOf template scheme index overlay.nodes ++ state.created) :
    overlay.nodes.nextId ≤ id.val ∧ id.val < after.nodes.nextId := by
  obtain ⟨new, added⟩ := made.exists_added
  have below := (made.anchored_after coherent anchored).coherent.below
  rw [made.store, added.nodes] at below
  change ∀ node ∈ complete.nodes ++ new, node.id.val < _ at below
  rw [made.nodes, ← made.store] at below
  rw [added.created] at member
  rcases List.mem_append.1 member with copied | created
  · obtain ⟨node, known, rfl⟩ := List.mem_map.1 copied
    refine ⟨?_, below node (List.mem_append_left _ (List.mem_append_right _ known))⟩
    rcases List.mem_cons.1 known with rfl | copy
    · exact Nat.le_refl _
    · exact Nat.le_of_lt (copies_high copy)
  · obtain ⟨node, known, rfl⟩ := List.mem_map.1 created
    refine ⟨?_, below node (List.mem_append_right _ known)⟩
    exact Nat.le_trans made.grows.nextId_le (added.each node known).2.2

end Instance

/-- A call leaves a request as it is, or it makes an iteration. -/
theorem instance_cases {request : RequestScope} (coherent : request.wired.form.nodes.Coherent)
    (anchored : request.wired.form.nodes.Anchored request.overlay.nodes) (collection : NodeId)
    (index : Nat) :
    (request.materialize collection index).1 = request ∨
      ∃ after template scheme complete state record,
        Instance request.wired request.overlay after template scheme index complete state ∧
        request.materialize collection index = ({ request with
          overlay := after, iterations := request.iterations ++ [record] }, .ok record) := by
  rcases RequestScope.materialize_cases coherent anchored collection index with
    same | ⟨made, succeeded, _, done⟩
  · exact .inl same
  · obtain ⟨template, scheme, complete, state, finished⟩ :=
      build_spec coherent anchored succeeded
    exact .inr ⟨_, template, scheme, complete, state, made, finished, done⟩

/-! ## The graph of a request -/

/-- The edges of the form, and behind them those of the request. -/
def joined (request : RequestScope) : DependencyGraph where
  edges := request.wired.graph.edges ++ request.overlay.graph.edges
  firstId := request.wired.graph.firstId

theorem edgesTo_joined (request : RequestScope) (id : NodeId) :
    request.joined.edgesTo id = request.edgesTo id :=
  List.filter_append ..

theorem metadata?_joined (request : RequestScope) (triple : Triple) :
    request.joined.metadata? triple = (request.wired.graph.metadata? triple).or
      (request.overlay.graph.metadata? triple) := by
  simp only [DependencyGraph.metadata?, joined]
  rw [List.find?_append, Option.map_or]

/-- A form that was wired in good order: its nodes have parents up to the top, and its edges go
into its nodes. -/
structure Grounded (wired : WiredForm) : Prop where
  coherent : wired.form.nodes.Coherent
  upright : Upright wired.form.nodes
  distinct : wired.graph.triples.Nodup
  consumers : ∀ triple metadata, wired.graph.metadata? triple = some metadata →
    triple.consumer.val < wired.form.nodes.nextId

/-- A request in good order: every node is well placed and has what it reads, no connection is
repeated, and the edges of the request go into its own nodes. -/
structure Settled (request : RequestScope) : Prop where
  anchored : request.wired.form.nodes.Anchored request.overlay.nodes
  placed : WellPlaced request.layers
  furnished : Furnished request.layers
  distinct : request.overlay.graph.triples.Nodup
  consumers : ∀ triple metadata, request.overlay.graph.metadata? triple = some metadata →
    request.wired.form.nodes.nextId ≤ triple.consumer.val ∧
      triple.consumer.val < request.overlay.nodes.nextId

/-- The connections into a reference: from the pseudo-node that it reads, which is there. Which
answers are local was seen in `made`. -/
structure Connected (request : RequestScope) (made : Layered) (step id : NodeId) (node : Node)
    (expression : Reference) : Prop where
  present : ∀ identity, Pass.readOf? made request.layers step node expression = some identity →
    HasPseudo request.layers identity
  connections : ∀ triple metadata, triple.consumer = id →
    (request.joined.metadata? triple = some metadata ↔
      Pass.Binds request.layers id expression
        (Pass.readOf? made request.layers step node expression) triple metadata)

variable {request : RequestScope} (grounded : Grounded request.wired)
include grounded

theorem Settled.nodup_joined (settled : Settled request) : request.joined.triples.Nodup := by
  have same : request.joined.triples =
      request.wired.graph.triples ++ request.overlay.graph.triples := List.map_append
  rw [same]
  refine List.nodup_append.2 ⟨grounded.distinct, settled.distinct, ?_⟩
  rintro one lower other upper rfl
  obtain ⟨_, known⟩ := DependencyGraph.mem_triples_iff.1 lower
  obtain ⟨_, made⟩ := DependencyGraph.mem_triples_iff.1 upper
  have low := grounded.consumers _ _ known
  have high := (settled.consumers _ _ made).1
  omega

/-- A call leaves a request as it is, or it makes an iteration. -/
theorem Settled.materialize_cases (settled : Settled request) (collection : NodeId) (index : Nat) :
    (request.materialize collection index).1 = request ∨
      ∃ after template scheme complete state iterations,
        Instance request.wired request.overlay after template scheme index complete state ∧
        (request.materialize collection index).1 =
          { request with overlay := after, iterations } := by
  rcases instance_cases grounded.coherent settled.anchored collection index with
    same | ⟨after, template, scheme, complete, state, record, made, done⟩
  · exact .inl same
  · exact .inr ⟨after, template, scheme, complete, state, _, made, by rw [done]⟩

/-- A call keeps a request in good order, and what it shows stays. -/
theorem Settled.materialize (settled : Settled request) (collection : NodeId) (index : Nat) :
    Settled (request.materialize collection index).1 ∧
      Shows request.layers (request.materialize collection index).1.layers := by
  rcases settled.materialize_cases grounded collection index with
    same | ⟨after, template, scheme, complete, state, iterations, made, done⟩
  · rw [same]
    exact ⟨settled, .refl _⟩
  · rw [done]
    refine ⟨?_, made.shows_after grounded.coherent settled.anchored⟩
    refine
      { anchored := made.anchored_after grounded.coherent settled.anchored
        placed := made.wellPlaced_after grounded.coherent settled.anchored settled.placed
          grounded.upright
        furnished := made.furnished grounded.coherent settled.anchored settled.placed
          grounded.upright settled.furnished
        distinct := made.nodup_after settled.distinct
        consumers := ?_ }
    intro triple metadata found
    change after.graph.metadata? triple = some metadata at found
    change request.wired.form.nodes.nextId ≤ _ ∧ _ < after.nodes.nextId
    rw [made.metadata?_after grounded.coherent settled.anchored, Option.or_eq_some_iff] at found
    have higher : request.overlay.nodes.nextId ≤ after.nodes.nextId := by
      have inside : (⟨request.overlay.nodes.nextId⟩ : NodeId) ∈
          batchOf template scheme index request.overlay.nodes ++ state.created :=
        List.mem_append_left _ (List.mem_map_of_mem (List.mem_cons_self ..))
      exact Nat.le_of_lt (made.mem_batch grounded.coherent settled.anchored inside).2
    have above := settled.anchored.above
    rcases found with old | ⟨_, offered⟩
    · have known := settled.consumers triple metadata old
      omega
    · simp only [Pass.batchOffer?] at offered
      split at offered
      · rename_i within
        have known := made.mem_batch grounded.coherent settled.anchored within.1
        omega
      · cases offered

/-- A call keeps a reference connected that is there. -/
theorem Connected.materialize {made : Layered} {step id : NodeId} {node : Node}
    {expression : Reference} (connected : Connected request made step id node expression)
    (settled : Settled request) (found : node? request.layers id = some node)
    (collection : NodeId) (index : Nat) :
    Connected (request.materialize collection index).1 made step id node expression := by
  have shown := (settled.materialize grounded collection index).2
  have reads : Pass.readOf? made _ step node expression = _ :=
    Pass.readOf?_of_shows shown settled.placed.upright found step expression
  refine ⟨?_, ?_⟩
  · intro identity known
    rw [reads] at known
    exact shown.hasPseudo (connected.present identity known)
  · intro triple metadata into
    rw [reads, Pass.binds_of_shows shown connected.present,
      ← connected.connections triple metadata into]
    -- The node is old, so nothing that is wired now goes into it.
    rcases settled.materialize_cases grounded collection index with
      same | ⟨after, template, scheme, complete, state, iterations, finished, done⟩
    · rw [same]
    · have outside : triple.consumer ∉
          batchOf template scheme index request.overlay.nodes ++ state.created := by
        intro member
        have high := (finished.mem_batch grounded.coherent settled.anchored member).1
        have low := settled.anchored.lt_nextId grounded.coherent ⟨node, found⟩
        rw [into] at high
        omega
      have same : after.graph.metadata? triple = request.overlay.graph.metadata? triple := by
        rw [finished.metadata?_after grounded.coherent settled.anchored, Pass.batchOffer?,
          if_neg fun both => outside both.1, Option.or_none]
      rw [done, metadata?_joined, metadata?_joined]
      change (_ = some metadata) ↔ _
      dsimp only
      rw [same]

/-- A call connects the references that it makes. -/
theorem Settled.connects (settled : Settled request) (collection : NodeId) (index : Nat)
    {step id : NodeId} {node : Node} {expression : Reference}
    (found : node? (request.materialize collection index).1.layers id = some node)
    (isReference : node.kind = .reference expression)
    (owned : owningStep? (request.materialize collection index).1.layers id = some step) :
    node? request.layers id = some node ∨
      Connected (request.materialize collection index).1
        (request.materialize collection index).1.layers step id node expression := by
  obtain ⟨later, _⟩ := settled.materialize grounded collection index
  have plain : node.kind.pseudo? = none := by rw [isReference]; rfl
  rcases settled.materialize_cases grounded collection index with
    same | ⟨after, template, scheme, complete, state, iterations, made, done⟩
  · rw [same] at found
    exact .inl found
  · rw [done] at found owned later ⊢
    refine (made.old_or_copy grounded.coherent settled.anchored settled.placed grounded.upright
      found plain).imp_right ?_
    rintro ⟨new, rfl, _⟩
    have inside : node.id ∈ batchOf template scheme index request.overlay.nodes ++ state.created :=
      List.mem_append_left _ (List.mem_map_of_mem new)
    have high := (made.mem_batch grounded.coherent settled.anchored inside).1
    have above := settled.anchored.above
    have fresh : ∀ triple, triple.consumer = node.id →
        (joined { request with overlay := after, iterations }).metadata? triple =
          if Pass.isReady (layersOver request.wired after) node.id = true then
            (Pass.solo (layersOver request.wired after) request.wired.scopes request.wired.config
              node.id).offer? triple
          else none := by
      intro triple into
      have lower : request.wired.graph.metadata? triple = none := by
        apply Option.eq_none_iff_forall_ne_some.2
        intro metadata known
        have low := grounded.consumers triple metadata known
        rw [into] at low
        omega
      have upper : request.overlay.graph.metadata? triple = none := by
        apply Option.eq_none_iff_forall_ne_some.2
        intro metadata known
        have low := (settled.consumers triple metadata known).2
        rw [into] at low
        omega
      rw [metadata?_joined]
      change (request.wired.graph.metadata? triple).or (after.graph.metadata? triple) = _
      rw [lower, made.metadata?_after grounded.coherent settled.anchored, upper, Pass.batchOffer?,
        into]
      simp only [Option.none_or, inside, true_and]
    refine ⟨fun identity known => ?_, fun triple metadata into => ?_⟩
    · exact Pass.hasPseudo_of_readOf? later.placed later.furnished found isReference owned known
    · rw [fresh triple into, Option.ite_none_right_eq_some]
      exact Pass.ready_offer?_reference later.furnished found isReference owned triple metadata

end RequestScope

end FormFlow
