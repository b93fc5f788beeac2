import FormFlow.Proofs.Request.Instance

/-!
# Where copies stand

In a template there are no journeys, no steps and no pseudo-nodes
(`Template.Listed.isContent`), so the copies stand well under any node
(`RequestScope.Assembled.wellPlaced`). The iteration and the copies belong to the step of the
collection (`RequestScope.Assembled.owned`).
-/

set_option autoImplicit false

namespace FormFlow

open NodeSource

/-- A node that may stand anywhere: no scope, no pseudo-node and no iteration. -/
structure NodeKind.IsContent (kind : NodeKind) : Prop where
  scope : kind.isScope = false
  pseudo : kind.pseudo? = none
  iteration : kind.isIteration = false

theorem NodeSource.Stands.ofContent {σ : Type} [NodeSource σ] (nodes : σ) {node : Node}
    (content : node.kind.IsContent) : Stands nodes node := by
  refine ⟨?_, ?_, ?_⟩
  · intro isScope
    rw [content.scope] at isScope
    cases isScope
  · intro definition isPseudo
    have other := content.pseudo
    rw [isPseudo] at other
    cases other
  · intro collection index isIteration
    have other := content.iteration
    rw [isIteration] at other
    cases other

/-- A copy is of the same sort as what is copied. -/
theorem NodeKind.IsContent.copy {kind : NodeKind} (content : kind.IsContent) (scheme : Renaming)
    (direct : Bool) (map : NodeId → NodeId) :
    (scheme.apply direct (kind.remapIds map)).IsContent := by
  obtain ⟨scope, pseudo, iteration⟩ := content
  cases kind with
  | journey code => cases scope
  | step path => cases scope
  | pseudo definition => cases pseudo
  | iteration collection index => cases iteration
  | collection definition => cases direct <;> exact ⟨rfl, rfl, rfl⟩
  | field definition => cases direct <;> exact ⟨rfl, rfl, rfl⟩
  | reference expression =>
    unfold remapIds Renaming.apply
    dsimp only
    split <;> exact ⟨rfl, rfl, rfl⟩
  | block variant => exact ⟨rfl, rfl, rfl⟩
  | function name arguments => exact ⟨rfl, rfl, rfl⟩
  | literal value => exact ⟨rfl, rfl, rfl⟩
  | transition definition => exact ⟨rfl, rfl, rfl⟩

/-- A node belongs to the step of its parent, unless it is a step itself. -/
theorem NodeSource.Upright.owningStep?_up {σ : Type} [NodeSource σ] [LawfulSource σ] {nodes : σ}
    (upright : Upright nodes) {id parent : NodeId} {node outer : Node}
    (found : node? nodes id = some node) (contained : node.parent = some parent)
    (present : node? nodes parent = some outer) (plain : node.kind.pseudo? = none)
    (outerPlain : outer.kind.pseudo? = none) (noStep : node.kind.isStep = false) :
    owningStep? nodes id = owningStep? nodes parent := by
  simp only [owningStep?]
  rw [found, present, Option.bind_some, Option.bind_some, plain, outerPlain,
    upright.enclosing?_above found noStep, enclosingAbove?_of_parent nodes contained]

/-- The store that holds a node is seen in the layers. -/
theorem Layered.node?_of_holder {base overlay : NodeStore} (coherent : base.Coherent)
    (anchored : base.Anchored overlay) {id other : NodeId} {node : Node}
    (found : (holder ⟨base, overlay⟩ id).node? other = some node) :
    Layered.node? ⟨base, overlay⟩ other = some node := by
  simp only [holder] at found
  split at found
  · exact node?_eq_some_iff.2 (.inl found)
  · exact anchored.node?_base coherent found

/-- Nothing in a template is a scope or a pseudo-node: these do not stand in what is repeated. -/
theorem Template.Listed.isContent {layers : Layered} {holder : NodeStore} {collection : NodeId}
    {entries : List TemplateNode} (listed : Listed layers holder collection entries)
    (placed : WellPlaced layers)
    (held : ∀ id node, holder.node? id = some node → layers.node? id = some node) {top : Node}
    (present : layers.node? collection = some top) (isCollection : top.kind.isCollection = true) :
    ∀ entry ∈ entries, entry.node.kind.IsContent := by
  have found : ∀ node ∈ entries.map TemplateNode.node, layers.node? node.id = some node := by
    intro node member
    obtain ⟨entry, known, rfl⟩ := List.mem_map.1 member
    exact held _ _ (listed.present entry known)
  have plain : ∀ node ∈ entries.map TemplateNode.node,
      node.kind.isScope = false ∧ node.kind.pseudo? = none := by
    refine listed.hangs.induction ?_
    intro node member parent contained place
    have stands := placed.stands _ _ (found node member)
    obtain ⟨outer, there, noScope⟩ : ∃ outer, node? layers parent = some outer ∧
        outer.kind.isScope = false := by
      rcases place with rfl | ⟨outer, known, rfl, ih⟩
      · have repeated : top.kind.isRepeated = true := by simp [NodeKind.isRepeated, isCollection]
        exact ⟨top, present, (NodeKind.of_isRepeated repeated).1⟩
      · exact ⟨outer, found outer known, ih.1⟩
    obtain ⟨noJourney, noStep⟩ := Bool.or_eq_false_iff.1 noScope
    refine ⟨?_, ?_⟩
    · cases isScope : node.kind.isScope with
      | false => rfl
      | true =>
        have isJourney := stands.scope isScope parent outer contained there
        cases noJourney.symm.trans isJourney
    · cases isPseudo : node.kind.pseudo? with
      | none => rfl
      | some definition =>
        obtain ⟨step, inner, within, known, isStep⟩ :=
          stands.pseudo definition (NodeKind.pseudo?_eq_some_iff.1 isPseudo)
        cases contained.symm.trans within
        cases there.symm.trans known
        cases noStep.symm.trans isStep
  intro entry member
  obtain ⟨scope, pseudo⟩ := plain entry.node (List.mem_map_of_mem member)
  exact ⟨scope, pseudo, listed.copied entry member⟩

namespace RequestScope

namespace Assembled

variable {wired : WiredForm} {overlay after : Overlay} {template : Template} {scheme : Renaming}
  {index : Nat} {complete : NodeStore} {state : Synthesis.State Layered}
  (made : Assembled wired overlay after template scheme index complete state)
  (coherent : wired.form.nodes.Coherent) (anchored : wired.form.nodes.Anchored overlay.nodes)

include made in
theorem node?_of_new {node : Node} (member : node ∈ newNodes template scheme index overlay.nodes) :
    node? (⟨wired.form.nodes, complete⟩ : Layered) node.id = some node := by
  refine Layered.node?_eq_some_iff.2 (.inl (NodeStore.node?_of_mem made.anchored.coherent ?_))
  rw [made.nodes]
  exact List.mem_append_right _ member

include made coherent anchored

theorem shows_complete :
    Shows (layersOver wired overlay) (⟨wired.form.nodes, complete⟩ : Layered) :=
  Layered.shows_of_grows coherent anchored made.grows

/-- A node that is seen now was seen before, or it is the iteration or a copy. -/
theorem old_or_new {id : NodeId} {node : Node}
    (found : node? (⟨wired.form.nodes, complete⟩ : Layered) id = some node) :
    node? (layersOver wired overlay) id = some node ∨
      node ∈ newNodes template scheme index overlay.nodes := by
  rcases Layered.node?_eq_some_iff.1 found with own | ⟨_, lower⟩
  · obtain ⟨member, rfl⟩ := (NodeStore.node?_eq_some_iff made.anchored.coherent).1 own
    change node ∈ complete.nodes at member
    rw [made.nodes] at member
    apply (List.mem_append.1 member).imp_left
    intro old
    exact Layered.node?_eq_some_iff.2 (.inl (NodeStore.node?_of_mem anchored.coherent old))
  · exact .inl (anchored.node?_base coherent lower)

variable (placed : WellPlaced (layersOver wired overlay))
include placed

theorem isContent {node : Node} (member : node ∈ copiesOf template scheme index overlay.nodes) :
    node.kind.IsContent := by
  obtain ⟨entry, known, rfl⟩ := List.mem_map.1 member
  obtain ⟨top, definition, present, isCollection, _⟩ := made.iterable.collection
  refine NodeKind.IsContent.copy ?_ scheme _ _
  exact made.iterable.listed.isContent placed
    (fun _ _ found => Layered.node?_of_holder coherent anchored found) present
    (by rw [isCollection]; rfl) entry known

theorem pseudo?_of_new {node : Node}
    (member : node ∈ newNodes template scheme index overlay.nodes) : node.kind.pseudo? = none := by
  rcases List.mem_cons.1 member with rfl | copy
  · rfl
  · exact (made.isContent coherent anchored placed copy).pseudo

variable (lower : Upright wired.form.nodes)
include lower

theorem wellPlaced : WellPlaced (⟨wired.form.nodes, complete⟩ : Layered) := by
  have shown := made.shows_complete coherent anchored
  apply placed.extend shown (Layered.upright coherent made.anchored lower)
  intro id node found
  apply (made.old_or_new coherent anchored found).imp_right
  intro new
  rcases List.mem_cons.1 new with rfl | copy
  · obtain ⟨top, definition, present, isCollection, closed⟩ := made.iterable.collection
    refine ⟨nofun, nofun, ?_⟩
    rintro _ _ ⟨⟩
    refine ⟨rfl, top, shown.node _ _ present, by rw [isCollection]; rfl, ?_⟩
    rw [shown.inOpenTemplate_eq placed.upright present, closed]
  · exact .ofContent _ (made.isContent coherent anchored placed copy)

/-- The iteration and the copies belong to the step of the collection. -/
theorem owned {node : Node} (member : node ∈ newNodes template scheme index overlay.nodes) :
    owningStep? (⟨wired.form.nodes, complete⟩ : Layered) node.id = some template.step := by
  have shown := made.shows_complete coherent anchored
  have upright := (made.wellPlaced coherent anchored placed lower).upright
  obtain ⟨top, definition, present, isCollection, _⟩ := made.iterable.collection
  have there := shown.node _ _ present
  have iteration : owningStep? (⟨wired.form.nodes, complete⟩ : Layered)
      (iterationNode template index overlay.nodes).id = some template.step := by
    rw [upright.owningStep?_up (made.node?_of_new (List.mem_cons_self ..)) rfl there rfl
      (by rw [isCollection]; rfl) rfl, shown.owningStep?_eq placed.upright present]
    exact made.iterable.step
  have hangs : Hangs (· = ⟨overlay.nodes.nextId⟩) (copiesOf template scheme index overlay.nodes) :=
    copyNode_hangs made.iterable.listed _ _ _
  have copies : ∀ node ∈ copiesOf template scheme index overlay.nodes,
      owningStep? (⟨wired.form.nodes, complete⟩ : Layered) node.id = some template.step := by
    refine hangs.induction ?_
    intro node known parent contained place
    have content := made.isContent coherent anchored placed known
    have found := made.node?_of_new (List.mem_cons_of_mem _ known)
    have up : ∀ outer ∈ newNodes template scheme index overlay.nodes, outer.id = parent →
        owningStep? (⟨wired.form.nodes, complete⟩ : Layered) node.id =
          owningStep? (⟨wired.form.nodes, complete⟩ : Layered) parent := by
      rintro outer inside rfl
      exact upright.owningStep?_up found contained (made.node?_of_new inside) content.pseudo
        (made.pseudo?_of_new coherent anchored placed inside)
        (Bool.or_eq_false_iff.1 content.scope).2
    rcases place with rfl | ⟨outer, inside, same, ih⟩
    · rw [up (iterationNode template index overlay.nodes) (List.mem_cons_self ..) rfl]
      exact iteration
    · rw [up outer (List.mem_cons_of_mem _ inside) same, ← same, ih]
  rcases List.mem_cons.1 member with rfl | copy
  · exact iteration
  · exact copies node copy

end Assembled

end RequestScope

end FormFlow
