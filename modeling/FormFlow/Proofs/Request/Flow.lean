import FormFlow.Proofs.Request.Precedence

/-!
# The flow of values

Values come to their readers in stages (`NodeKind.stage`). They start at nodes that nothing feeds,
such as literals, functions and load-transitions. From there they come to pseudo-nodes, a submitted
value before the local answer that takes it up, and from pseudo-nodes to the references that read
them.

A field or a collection takes values from its formatters, its default value or its source, and these
may be of any stage. If they are there, every edge of a request leads from one of its nodes to a
later stage, unless it comes from a reference from which a field or a collection takes a value
(`RequestScope.run_rises`).

Copying keeps the stage of a node and copies what it takes values from, so what the form takes
values from tells what all its iterations take values from (`RequestScope.run_takesFrom`).
-/

set_option autoImplicit false

namespace FormFlow

open NodeSource

/-! ## Stages -/

/-- How far a value has come at a node of a kind: it starts there, is in a pseudo-node, in a local
answer, or with its reader. -/
def NodeKind.stage : NodeKind → Nat
  | .pseudo definition => if definition.kind = .answerLocal then 2 else 1
  | .reference _ => 3
  | _ => 0

theorem NodeKind.stage_bounds {kind : NodeKind} {definition : Pseudo}
    (isPseudo : kind.pseudo? = some definition) : 0 < kind.stage ∧ kind.stage < 3 := by
  rw [NodeKind.pseudo?_eq_some_iff.1 isPseudo, stage]
  split <;> decide

theorem NodeKind.stage_eq_three_iff {kind : NodeKind} :
    kind.stage = 3 ↔ ∃ expression, kind = .reference expression := by
  cases kind with
  | pseudo definition =>
    rw [stage]
    split <;> simp
  | _ => simp [stage]

/-- Outside pseudo-nodes a value starts or is with its reader. -/
theorem NodeKind.stage_cases {kind : NodeKind} (other : kind.pseudo? = none) :
    kind.stage = 0 ∨ kind.stage = 3 := by
  cases kind with
  | pseudo definition => cases other
  | reference expression => exact .inr rfl
  | _ => exact .inl rfl

namespace Renaming

variable (scheme : Renaming) (direct : Bool) (kind : NodeKind) (place : NodeId → NodeId)

/-- Copying keeps the stage. -/
theorem stage_apply : (scheme.apply direct (kind.remapIds place)).stage = kind.stage := by
  cases kind with
  | field | collection => cases direct <;> rfl
  | reference expression =>
    rw [NodeKind.remapIds, apply]
    split <;> rfl
  | _ => rfl

/-- A copy takes values from the copies of what the other node takes values from. -/
theorem valueIds_apply :
    (scheme.apply direct (kind.remapIds place)).valueIds = kind.valueIds.map place := by
  cases kind with
  | field definition =>
    cases direct <;> cases given : definition.defaultValue <;>
      simp [NodeKind.remapIds, apply, NodeKind.valueIds, given]
  | collection definition =>
    cases direct <;> cases given : definition.source <;>
      simp [NodeKind.remapIds, apply, NodeKind.valueIds, given]
  | reference expression =>
    rw [NodeKind.remapIds, apply]
    split <;> rfl
  | _ => rfl

end Renaming

/-- Whatever a field or a collection takes values from is there, at a stage that is allowed. -/
def NodeSource.TakesFrom {σ : Type} [NodeSource σ] (nodes : σ) (allowed : Nat → Prop) : Prop :=
  ∀ owner holder, node? nodes owner = some holder → ∀ id ∈ holder.kind.valueIds,
    ∃ node, node? nodes id = some node ∧ allowed node.kind.stage

/-- A plain form whose links are there takes values from where they start, and from references. -/
theorem Form.Plain.takesFrom {form : Form} (plain : form.Plain)
    (linked : ∀ node ∈ form.nodes.nodes, ∀ id ∈ node.kind.valueIds, form.nodes.contains id = true) :
    TakesFrom form.nodes fun stage => stage = 0 ∨ stage = 3 := by
  intro owner holder found id member
  obtain ⟨node, there⟩ :=
    Option.isSome_iff_exists.1 (linked holder (List.mem_of_find?_eq_some found) id member)
  exact ⟨node, there, NodeKind.stage_cases (plain.pseudos node (List.mem_of_find?_eq_some there))⟩

namespace RequestScope

/-- What a call takes over from the template of a collection takes its values from the same stages
as the template. -/
theorem Assembled.takesFrom {wired : WiredForm} {overlay after : Overlay} {template : Template}
    {scheme : Renaming} {index : Nat} {complete : NodeStore} {state : Synthesis.State Layered}
    (made : Assembled wired overlay after template scheme index complete state)
    (coherent : wired.form.nodes.Coherent) (anchored : wired.form.nodes.Anchored overlay.nodes)
    (placed : WellPlaced (layersOver wired overlay)) (lower : Upright wired.form.nodes)
    {allowed : Nat → Prop} (before : TakesFrom (layersOver wired overlay) allowed) :
    TakesFrom (layersOver wired after) allowed := by
  intro owner holder found id member
  have shown := made.shows_after coherent anchored
  have plain : holder.kind.pseudo? = none := by
    cases isPseudo : holder.kind.pseudo? with
    | none => rfl
    | some definition =>
      rw [NodeKind.pseudo?_eq_some_iff.1 isPseudo] at member
      cases member
  rcases made.old_or_copy coherent anchored placed lower found plain with old | ⟨new, _⟩
  · obtain ⟨node, there, stage⟩ := before owner holder old id member
    exact ⟨node, shown.node _ _ there, stage⟩
  rcases eq_or_copyFor new with rfl | ⟨entry, known, rfl⟩
  · cases member
  rw [copyFor, copyNode, Renaming.valueIds_apply] at member
  obtain ⟨link, linked, rfl⟩ := List.mem_map.1 member
  obtain ⟨node, there, stage⟩ :=
    before _ _ (made.iterable.found coherent anchored known) link linked
  by_cases inside : link ∈ Template.ids template.nodes
  · -- The value stands in the template, so the copy takes it from the copy.
    obtain ⟨other, listed, rfl⟩ := List.mem_map.1 inside
    cases there.symm.trans (made.iterable.found coherent anchored listed)
    refine ⟨copyFor template scheme index overlay.nodes other, ?_, ?_⟩
    · exact (made.supplied coherent anchored).1.node _ _
        (made.node?_of_new (copyFor_mem listed scheme index overlay.nodes))
    · rw [copyFor, copyNode, Renaming.stage_apply]
      exact stage
  · rw [copyOf_of_not_mem (by rwa [map_fst_copyIds])]
    exact ⟨node, shown.node _ _ there, stage⟩

/-- A call keeps the stages that values are taken from. -/
theorem Settled.takesFrom {request : RequestScope} (grounded : Grounded request.wired)
    (settled : Settled request) {allowed : Nat → Prop} (before : TakesFrom request.layers allowed)
    (collection : NodeId) (index : Nat) :
    TakesFrom (request.materialize collection index).1.layers allowed := by
  rcases settled.materialize_cases grounded collection index with
    same | ⟨after, template, scheme, complete, state, iterations, made, done⟩
  · rwa [same]
  · rw [done]
    exact made.takesFrom grounded.coherent settled.anchored settled.placed grounded.upright before

/-! ## The edges of a request -/

section

variable {form : Form} {config : WiringConfig} {wired : WiredForm}
  (registered : WiredForm.Registered form config wired) (coherent : form.nodes.Coherent)
  (plain : form.Plain)
include registered coherent plain

/-- **A request takes values from the stages that its form takes them from.** -/
theorem run_takesFrom {allowed : Nat → Prop} (links : TakesFrom form.nodes allowed)
    (calls : List (NodeId × Nat)) : TakesFrom (run wired calls).layers allowed := by
  have grounded := grounded_of_registered registered coherent plain
  have started := settled_start registered coherent plain
  induction calls using List.reverseRecOn with
  | nil =>
    intro owner holder found id member
    rw [show (run wired []).layers = (start wired).layers from rfl, node?_start] at found
    rcases registered.form_or_pseudo coherent found with known | ⟨definition, isPseudo, _⟩
    · obtain ⟨node, there, stage⟩ := links owner holder known id member
      exact ⟨node, (node?_start id).trans ((registered.grows coherent).node?_of_found there), stage⟩
    · rw [isPseudo] at member
      cases member
  | append_singleton calls call ih =>
    rw [run_concat]
    exact (settled_run grounded started calls).takesFrom (grounded_run grounded calls) ih _ _

/-- An edge into a reference comes from the pseudo-node that it reads, and says so. -/
theorem run_reading (calls : List (NodeId × Nat)) {edge : Edge}
    (member : edge ∈ (run wired calls).joined.edges) {node : Node} {expression : Reference}
    {step : NodeId} (found : (run wired calls).layers.node? edge.consumer = some node)
    (isReference : node.kind = .reference expression)
    (owned : owningStep? (run wired calls).layers edge.consumer = some step) :
    edge.metadata.reference ≠ none ∧ ∃ source definition,
      (run wired calls).layers.node? edge.producer = some source ∧
        source.kind = .pseudo definition := by
  obtain ⟨made, _, bound⟩ := run_bound registered coherent plain calls found isReference owned
  have into : edge ∈ (run wired calls).edgesTo edge.consumer := by
    rw [← edgesTo_joined]
    exact List.mem_filter.2 ⟨member, decide_eq_true rfl⟩
  cases reads : Pass.readOf? (run wired (calls.take made)).layers (run wired calls).layers step node
      expression with
  | none =>
    rw [reads, Bound] at bound
    rw [bound] at into
    cases into
  | some identity =>
    rw [reads] at bound
    obtain ⟨only, source, edges, _, present, identified, _, metadata⟩ := bound
    rw [edges] at into
    cases List.mem_singleton.1 into
    obtain ⟨definition, isPseudo, _⟩ := Option.map_eq_some_iff.1 identified
    refine ⟨fun silent => ?_, source, definition, present,
      NodeKind.pseudo?_eq_some_iff.1 isPseudo⟩
    rw [metadata] at silent
    rw [Pass.readOf?, show expression.selected? = none from silent] at reads
    cases reads

/-- What may fill a pseudo-node is there, and it is a value that starts there, the submitted value
of a local answer, or something that a field or a collection takes a value from. -/
theorem run_filled {allowed : Nat → Prop} (links : TakesFrom form.nodes allowed)
    (calls : List (NodeId × Nat)) {definition : Pseudo} {producer : NodeId}
    (filled : (run wired calls).Fills definition producer) :
    ∃ source, (run wired calls).layers.node? producer = some source ∧
      (source.kind.stage = 0 ∨
        (definition.kind = .answerLocal ∧
          ∃ submitted, source.kind = .pseudo submitted ∧ submitted.kind = .post) ∨
        (run wired calls).IsValue producer ∧ allowed source.kind.stage) := by
  have grounded := grounded_of_registered registered coherent plain
  have started := settled_start registered coherent plain
  rcases filled with ⟨isLocal, submitted⟩ | transition | value
  · obtain ⟨source, present, identified⟩ := Layered.node?_of_pseudo?
      (grounded_run grounded calls).coherent (settled_run grounded started calls).anchored submitted
    obtain ⟨other, isPseudo, same⟩ := Option.map_eq_some_iff.1 identified
    exact ⟨source, present, .inr (.inl ⟨isLocal, other, NodeKind.pseudo?_eq_some_iff.1 isPseudo,
      congrArg PseudoKey.kind same⟩)⟩
  · rw [wired_run] at transition
    obtain ⟨load, member, rfl, isLoad⟩ :=
      ScopeTree.exists_of_lastLoadFrom? registered.scopes transition
    have lower :=
      (registered.grows coherent).node?_of_found (NodeStore.node?_of_mem coherent member)
    refine ⟨load, (shows_form grounded started calls).node _ _ lower, .inl ?_⟩
    cases kind : load.kind with
    | transition definition => rfl
    | _ =>
      rw [kind] at isLoad
      cases isLoad
  · obtain ⟨owner, holder, present, linked⟩ := value
    obtain ⟨source, there, stage⟩ :=
      run_takesFrom registered coherent plain links calls owner holder present producer linked
    exact ⟨source, there, .inr (.inr ⟨⟨owner, holder, present, linked⟩, stage⟩)⟩

/-- **Every edge leads from a node to a later stage**, unless it comes from something that a field
or a collection takes a value from. -/
theorem run_rises {allowed : Nat → Prop} (links : TakesFrom form.nodes allowed)
    (calls : List (NodeId × Nat)) {edge : Edge} (member : edge ∈ (run wired calls).joined.edges) :
    ∃ source target, (run wired calls).layers.node? edge.producer = some source ∧
      (run wired calls).layers.node? edge.consumer = some target ∧
      (source.kind.stage < target.kind.stage ∨ ((run wired calls).IsValue edge.producer ∧
        source.kind.stage ≠ 0 ∧ allowed source.kind.stage)) := by
  cases run_enters registered coherent plain calls member with
  | fills target definition found isPseudo _ filled _ =>
    obtain ⟨source, present, way⟩ := run_filled registered coherent plain links calls filled
    refine ⟨source, target, present, found, ?_⟩
    have positive : 0 < target.kind.stage :=
      (NodeKind.stage_bounds (NodeKind.pseudo?_eq_some_iff.2 isPseudo)).1
    rcases way with starts | ⟨isLocal, submitted, same, isPost⟩ | ⟨value, stage⟩
    · exact .inl (starts ▸ positive)
    · left
      rw [same, isPseudo, NodeKind.stage, NodeKind.stage, if_neg (by simp [isPost]), if_pos isLocal]
      decide
    · by_cases starts : source.kind.stage = 0
      · exact .inl (starts ▸ positive)
      · exact .inr ⟨value, starts, stage⟩
  | reads target expression step found isReference owned =>
    obtain ⟨_, source, definition, present, isPseudo⟩ :=
      run_reading registered coherent plain calls member found isReference owned
    refine ⟨source, target, present, found, .inl ?_⟩
    rw [isReference]
    exact (NodeKind.stage_bounds (NodeKind.pseudo?_eq_some_iff.2 isPseudo)).2

end

end RequestScope

end FormFlow
