import FormFlow.Proofs.Request.Isolation
import FormFlow.Proofs.Request.Shadowing
import FormFlow.Proofs.Request.Vetting
import FormFlow.Proofs.Wiring.Wants

/-!
# The calls that made the iterations

Every iteration of a request was made by one of the calls (`RequestScope.Turn`). If all calls
succeed and no call is repeated, the iterations are those that were asked for, in this order
(`RequestScope.Succeeds.asked`), and no two of them share a node (`RequestScope.run_batches`).
-/

set_option autoImplicit false

namespace FormFlow

open NodeSource

/-! ## Copies that wait for an iteration -/

/-- A copy is deferred if what is copied is. -/
theorem NodeSource.isDeferred_copy (kind : NodeKind) (scheme : Renaming) (direct : Bool)
    (map : NodeId → NodeId) :
    isDeferred (scheme.apply direct (kind.remapIds map)) = isDeferred kind := by
  cases kind with
  | field definition => cases direct <;> rfl
  | collection definition => cases direct <;> rfl
  | reference expression =>
    obtain ⟨other, same, selected, _⟩ := scheme.exists_apply_reference direct expression
    rw [NodeKind.remapIds, same, isDeferred, isDeferred, Bool.eq_iff_iff]
    simp only [Bool.not_eq_true', ← Bool.not_eq_true, Reference.isIn_iff, selected]
  | _ => rfl

namespace RequestScope

variable {wired : WiredForm} {overlay : Overlay}

/-- The nodes of a template stand in its collection. -/
theorem Iterable.inside {template : Template}
    (iterable : Iterable (layersOver wired overlay) template)
    (coherent : wired.form.nodes.Coherent) (anchored : wired.form.nodes.Anchored overlay.nodes) :
    ∀ entry ∈ template.nodes,
      Relation.TransGen (Inside (layersOver wired overlay)) entry.node.id template.collection := by
  refine iterable.induction ?_
  intro entry member parent contained place
  have step : Inside (layersOver wired overlay) entry.node.id parent :=
    ⟨entry.node, iterable.found coherent anchored member, contained⟩
  rcases place with rfl | ⟨outer, _, rfl, inside⟩
  · exact .single step
  · exact .head step inside

/-- **The copies that wait for an iteration are those of the fields, collections and references of
nested templates**, references to the item apart. -/
theorem Assembled.awaitsIteration_copy {after : Overlay} {template : Template} {scheme : Renaming}
    {index : Nat} {complete : NodeStore} {state : Synthesis.State Layered}
    (made : Assembled wired overlay after template scheme index complete state)
    (coherent : wired.form.nodes.Coherent) (anchored : wired.form.nodes.Anchored overlay.nodes)
    (placed : WellPlaced (layersOver wired overlay)) (lower : Upright wired.form.nodes) :
    ∀ entry ∈ template.nodes, awaitsIteration (⟨wired.form.nodes, complete⟩ : Layered)
      (copyFor template scheme index overlay.nodes entry) =
        (isDeferred entry.node.kind && !entry.direct) := by
  intro entry member
  obtain ⟨top, definition, present, isCollection, _⟩ := made.iterable.collection
  have repeated : top.kind.isRepeated = true := by rw [isCollection]; rfl
  have kind : (copyFor template scheme index overlay.nodes entry).kind =
      scheme.apply entry.direct (entry.node.kind.remapIds (copyOf _)) := rfl
  rw [awaitsIteration, kind, isDeferred_copy, inOpenTemplate, repeatedAbove?,
    made.iterable.listed.direct entry member, repeatedAbove?]
  congr 1
  rcases made.copy_encloses coherent anchored placed lower
    (fun kind direct map => kind.isRepeated_copy scheme direct map) entry member with
    ⟨outer, inside, above, around⟩ | ⟨above, around⟩
  · -- Around the node is a nested collection, and around the copy the copy of that.
    have other : outer.node.id ≠ template.collection := by
      intro same
      have cycle := made.iterable.inside coherent anchored outer inside
      rw [same] at cycle
      exact placed.upright.acyclic _ cycle
    have nested := (node?_of_enclosingAbove? around).2
    have single := (made.isContent coherent anchored placed
      (List.mem_map_of_mem inside)).iteration
    rw [NodeKind.isRepeated, Bool.or_eq_true] at nested
    rw [above, around]
    simpa [other] using nested.resolve_right (by simp [copyFor, single])
  · have whole := (made.wellPlaced coherent anchored placed lower).upright
    rw [whole.enclosing?_self (made.node?_of_new (List.mem_cons_self ..)) rfl] at around
    rw [above, placed.upright.enclosing?_self present repeated, around]
    simp [LawfulSource.id_of_node? _ _ _ present, iterationNode, NodeKind.isCollection]

/-! ## Turns -/

/-- A call that made an iteration: the template that it read, the nodes and pseudo-nodes that it
made, and what it recorded. -/
structure Turn (request : RequestScope) (after : Overlay) (template : Template)
    (complete : NodeStore) (state : Synthesis.State Layered) (record : Iteration) : Prop where
  read : Template.read request.layers request.wired.scopes template.collection = .ok template
  free : collision? request.layers template.step (.ofTemplate template record.index) = none
  made : Instance request.wired request.overlay after template (.ofTemplate template record.index)
    record.index complete state
  recorded : Recorded record template (.ofTemplate template record.index) record.index
    request.overlay.nodes

/-- A call leaves a request as it is, or it takes a turn. -/
theorem turn_cases {request : RequestScope} (coherent : request.wired.form.nodes.Coherent)
    (anchored : request.wired.form.nodes.Anchored request.overlay.nodes) (collection : NodeId)
    (index : Nat) :
    (request.materialize collection index).1 = request ∨
      ∃ after template complete state record, Turn request after template complete state record ∧
        record.collection = collection ∧ record.index = index ∧
        request.materialize collection index = ({ request with
          overlay := after, iterations := request.iterations ++ [record] }, .ok record) := by
  rcases RequestScope.materialize_cases coherent anchored collection index with
    same | ⟨record, succeeded, _, done⟩
  · exact .inl same
  right
  cases read : Template.read (layersOver request.wired request.overlay) request.wired.scopes
    collection with
  | error error =>
    unfold build at succeeded
    dsimp only at succeeded
    rw [read] at succeeded
    cases succeeded
  | ok template =>
    obtain ⟨⟨complete, state, finished, _⟩, recorded, free⟩ :=
      build_made coherent anchored read succeeded
    obtain ⟨_, _, _, _, _, _, _, rfl, _⟩ :=
      Template.read_spec coherent anchored.coherent read
    obtain rfl := recorded.index
    exact ⟨_, template, complete, state, record, ⟨read, free, finished, recorded⟩,
      recorded.collection, rfl, done⟩

/-- The iteration and its copies. -/
def batch (record : Iteration) : List NodeId := record.node :: record.nodes

theorem Turn.batch_eq {request : RequestScope} {after : Overlay} {template : Template}
    {complete : NodeStore} {state : Synthesis.State Layered} {record : Iteration}
    (turn : Turn request after template complete state record) : batch record =
      batchOf template (.ofTemplate template record.index) record.index request.overlay.nodes := by
  rw [batch, turn.recorded.node, turn.recorded.nodes]
  rfl

/-! ## The turns of a run -/

/-- One of the calls after which a request is as it is made an iteration of it. -/
structure TurnOf (wired : WiredForm) (calls before : List (NodeId × Nat)) (after : Overlay)
    (template : Template) (complete : NodeStore) (state : Synthesis.State Layered)
    (record : Iteration) : Prop where
  call : ∃ rest, calls = before ++ (record.collection, record.index) :: rest
  turn : Turn (run wired before) after template complete state record
  reached : run wired (before ++ [(record.collection, record.index)]) = { run wired before with
    overlay := after, iterations := (run wired before).iterations ++ [record] }

theorem TurnOf.append {wired : WiredForm} {calls before : List (NodeId × Nat)} {after : Overlay}
    {template : Template} {complete : NodeStore} {state : Synthesis.State Layered}
    {record : Iteration} (turn : TurnOf wired calls before after template complete state record)
    (more : List (NodeId × Nat)) :
    TurnOf wired (calls ++ more) before after template complete state record := by
  obtain ⟨rest, rfl⟩ := turn.call
  exact ⟨⟨rest ++ more, by simp⟩, turn.turn, turn.reached⟩

section

variable (grounded : Grounded wired) (started : Settled (start wired))
include grounded started

/-- A further call leaves a request as it is, or it takes a turn. -/
theorem run_cases (calls : List (NodeId × Nat)) (call : NodeId × Nat) :
    run wired (calls ++ [call]) = run wired calls ∨
      ∃ after template complete state record,
        TurnOf wired (calls ++ [call]) calls after template complete state record ∧
        (record.collection, record.index) = call ∧
        ((run wired calls).materialize call.1 call.2).2 = .ok record := by
  have settled := settled_run grounded started calls
  have ground : Grounded (run wired calls).wired := (wired_run wired calls).symm ▸ grounded
  have next := run_concat wired calls call
  rcases turn_cases ground.coherent settled.anchored call.1 call.2 with
    same | ⟨after, template, complete, state, record, turn, collection, index, done⟩
  · exact .inl (next.trans same)
  · have named : (record.collection, record.index) = call := by rw [collection, index]
    refine .inr ⟨after, template, complete, state, record, ⟨⟨[], ?_⟩, turn, ?_⟩, named, ?_⟩
    · rw [named]
    · rw [named, next, done]
    · rw [done]

/-- Every iteration was made in a turn. -/
theorem exists_turn {calls : List (NodeId × Nat)} {record : Iteration}
    (member : record ∈ (run wired calls).iterations) :
    ∃ before after template complete state,
      TurnOf wired calls before after template complete state record := by
  induction calls using List.reverseRecOn with
  | nil => cases member
  | append_singleton calls call ih =>
    have earlier : record ∈ (run wired calls).iterations → ∃ before after template complete state,
        TurnOf wired (calls ++ [call]) before after template complete state record := by
      intro known
      obtain ⟨before, after, template, complete, state, turn⟩ := ih known
      exact ⟨before, after, template, complete, state, turn.append [call]⟩
    rcases run_cases grounded started calls call with
      same | ⟨after, template, complete, state, other, turn, rfl, _⟩
    · rw [same] at member
      exact earlier member
    · rw [turn.reached] at member
      rcases List.mem_append.1 member with old | new
      · exact earlier old
      · cases List.mem_singleton.1 new
        exact ⟨calls, after, template, complete, state, turn⟩

/-- Every node of a request was made in the turn of one of the iterations. -/
theorem exists_turn_of_node {calls : List (NodeId × Nat)} {id : NodeId}
    (member : id ∈ (run wired calls).overlay.nodes.nodes.map Node.id) :
    ∃ before after template complete state, ∃ record ∈ (run wired calls).iterations,
      TurnOf wired calls before after template complete state record ∧
        id ∈ batch record ++ state.created := by
  induction calls using List.reverseRecOn with
  | nil => cases member
  | append_singleton calls call ih =>
    rcases run_cases grounded started calls call with
      same | ⟨after, template, complete, state, record, turn, rfl, _⟩
    · rw [same] at member ⊢
      obtain ⟨before, after, template, complete, state, record, known, turn, inside⟩ := ih member
      exact ⟨before, after, template, complete, state, record, known, turn.append [call], inside⟩
    · obtain ⟨new, appended, ids⟩ := turn.turn.made.nodes_after
      rw [turn.reached] at member ⊢
      change id ∈ after.nodes.nodes.map Node.id at member
      change ∃ before after template complete state,
        ∃ other ∈ (run wired calls).iterations ++ [record], _
      rw [appended, List.map_append, ids, List.mem_append] at member
      rcases member with old | fresh
      · obtain ⟨before, first, template, complete, state, other, known, earlier, inside⟩ := ih old
        exact ⟨before, first, template, complete, state, other, List.mem_append_left _ known,
          earlier.append _, inside⟩
      · exact ⟨calls, after, template, complete, state, record,
          List.mem_append_right _ (List.mem_singleton_self _), turn,
          turn.turn.batch_eq ▸ fresh⟩

/-- The iterations and their copies are nodes of the request, and no two of them are one. -/
theorem run_batches (calls : List (NodeId × Nat)) :
    ((run wired calls).iterations.flatMap batch).Sublist
      ((run wired calls).overlay.nodes.nodes.map Node.id) := by
  induction calls using List.reverseRecOn with
  | nil => exact List.Sublist.slnil
  | append_singleton calls call ih =>
    rcases run_cases grounded started calls call with
      same | ⟨after, template, complete, state, record, turn, rfl, _⟩
    · rw [same]
      exact ih
    · obtain ⟨new, appended, ids⟩ := turn.turn.made.nodes_after
      rw [turn.reached]
      change (((run wired calls).iterations ++ [record]).flatMap batch).Sublist
        (after.nodes.nodes.map Node.id)
      rw [appended, List.map_append, ids, List.flatMap_append, List.flatMap_singleton,
        ← turn.turn.batch_eq]
      exact ih.append (List.sublist_append_left ..)

end

theorem reachable_run (wired : WiredForm) (calls : List (NodeId × Nat)) :
    Reachable wired (run wired calls) := by
  induction calls using List.reverseRecOn with
  | nil => exact .start
  | append_singleton calls call ih =>
    rw [run_concat]
    exact .materialize _ _ ih

/-! ## Runs in which every call succeeds -/

/-- Every one of the calls succeeds. -/
def Succeeds (wired : WiredForm) (calls : List (NodeId × Nat)) : Prop :=
  ∀ before call after, calls = before ++ call :: after →
    ∃ record, ((run wired before).materialize call.1 call.2).2 = .ok record

theorem Succeeds.earlier {calls more : List (NodeId × Nat)}
    (succeeds : Succeeds wired (calls ++ more)) : Succeeds wired calls := by
  rintro before call after rfl
  exact succeeds before call (after ++ more) (by simp)

theorem succeeds_nil : Succeeds wired [] := by
  rintro before call after none
  cases before <;> cases none

theorem Succeeds.concat {calls : List (NodeId × Nat)} (succeeds : Succeeds wired calls)
    (call : NodeId × Nat) {record : Iteration}
    (made : ((run wired calls).materialize call.1 call.2).2 = .ok record) :
    Succeeds wired (calls ++ [call]) := by
  rintro before one after split
  rcases List.eq_nil_or_concat after with rfl | ⟨more, last, rfl⟩
  · obtain ⟨rfl, same⟩ := List.append_inj' split rfl
    cases same
    exact ⟨record, made⟩
  · rw [List.concat_eq_append, ← List.cons_append, ← List.append_assoc] at split
    exact succeeds before one more (List.append_inj' split rfl).1

/-- A call that succeeds finds an iteration or makes one. -/
theorem iterations_of_ok {request : RequestScope} {collection : NodeId} {index : Nat}
    {record : Iteration} (succeeded : (request.materialize collection index).2 = .ok record) :
    request.iteration? collection index = some record ∨
      (request.materialize collection index).1.iterations = request.iterations ++ [record] := by
  unfold materialize at succeeded ⊢
  split at succeeded
  · rename_i found known
    cases succeeded
    exact .inl known
  · right
    dsimp only at succeeded ⊢
    split at succeeded
    · cases succeeded
      rfl
    · cases succeeded

/-- The iterations are those that were asked for, in this order. -/
theorem Succeeds.asked (grounded : Grounded wired) (started : Settled (start wired))
    {calls : List (NodeId × Nat)} (succeeds : Succeeds wired calls) (distinct : calls.Nodup) :
    (run wired calls).iterations.map (fun record => (record.collection, record.index)) =
      calls := by
  induction calls using List.reverseRecOn with
  | nil => rfl
  | append_singleton calls call ih =>
    have before := ih succeeds.earlier (List.nodup_append.1 distinct).1
    obtain ⟨record, succeeded⟩ := succeeds calls call [] rfl
    rcases run_cases grounded started calls call with
      same | ⟨after, template, complete, state, made, turn, rfl, _⟩
    · -- The call would have to find the iteration of an earlier one.
      exfalso
      rw [run_concat] at same
      rcases iterations_of_ok succeeded with found | grown
      · have key := List.find?_some found
        simp only [Bool.and_eq_true, decide_eq_true_eq] at key
        have old : call ∈ calls := by
          rw [← before]
          exact List.mem_map.2 ⟨record, List.mem_of_find?_eq_some found, Prod.ext key.1 key.2⟩
        exact (List.nodup_append.1 distinct).2.2 call old call (List.mem_singleton_self _) rfl
      · rw [same] at grown
        simp at grown
    · rw [turn.reached, List.map_append, before]
      rfl

end RequestScope

end FormFlow
