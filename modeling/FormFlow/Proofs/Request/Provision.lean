import FormFlow.Proofs.Request.Copies

/-!
# What an iteration reads is made

After the copies the pseudo-nodes are made that these read. The layers are then well placed
again (`RequestScope.Assembled.wellPlaced_after`), and every node of them has what it reads if
this was so before (`RequestScope.Assembled.furnished`).
-/

set_option autoImplicit false

namespace FormFlow

open NodeSource

namespace Synthesis

/-- A node is in the layers, unless it is a pseudo-node. -/
def Shown (layers : Layered) (id : NodeId) (node : Node) : Prop :=
  node.kind.pseudo? = none → layers.node? id = some node

/-- How far pseudo-nodes of a step were made over a form, behind the nodes of the upper store. -/
structure Added (layers : Layered) (step : NodeId) (state : State Layered) (new : List Node) :
    Prop where
  base : state.nodes.base = layers.base
  high : layers.overlay.nextId ≤ state.nodes.overlay.nextId
  nodes : state.nodes.overlay.nodes = layers.overlay.nodes ++ new
  created : state.created = new.map Node.id
  each : ∀ node ∈ new, (∃ definition, node.kind = .pseudo definition) ∧ node.parent = some step ∧
    layers.overlay.nextId ≤ node.id.val
  sourced : ∀ node ∈ new, ∀ definition, node.kind = .pseudo definition →
    definition.scope = step ∧ Sourced (Shown layers) definition.toPseudoKey definition.origin

theorem Added.shown {layers : Layered} {step : NodeId} {state : State Layered} {new : List Node}
    (added : Added layers step state new) {id : NodeId} {node : Node}
    (found : state.nodes.node? id = some node) : Shown layers id node := by
  intro plain
  have split : state.nodes.overlay.node? id =
      (layers.overlay.node? id).or (new.find? fun other => other.id = id) := by
    rw [NodeStore.node?, added.nodes, List.find?_append]
    rfl
  rcases Layered.node?_eq_some_iff.1 found with own | ⟨absent, lower⟩
  · rw [split, Option.or_eq_some_iff] at own
    rcases own with old | ⟨_, made⟩
    · exact Layered.node?_eq_some_iff.2 (.inl old)
    · obtain ⟨⟨definition, isPseudo⟩, _⟩ := added.each node (List.mem_of_find?_eq_some made)
      rw [isPseudo] at plain
      cases plain
  · rw [split, Option.or_eq_none_iff] at absent
    exact Layered.node?_eq_some_iff.2 (.inr ⟨absent.1, added.base ▸ lower⟩)

theorem Added.want {layers : Layered} {state : State Layered} {new : List Node}
    {identity : PseudoKey} (added : Added layers identity.scope state new)
    {origin : Option NodeId} (sourced : Sourced (Shown layers) identity origin) :
    ∃ more, Added layers identity.scope (want state identity origin) more := by
  unfold Synthesis.want
  dsimp only
  rcases Layered.locate_cases state.nodes identity origin with ⟨_, _, same⟩ | ⟨_, _, same⟩
  · have located : PseudoSink.locate state.nodes identity origin = _ := same
    rw [located]
    exact ⟨new, added.base, added.high, added.nodes, added.created, added.each, added.sourced⟩
  · have located : PseudoSink.locate state.nodes identity origin = _ := same
    rw [located]
    refine ⟨new ++ [⟨⟨state.nodes.overlay.nextId⟩, some identity.scope,
      .pseudo ⟨identity, origin⟩⟩], added.base,
      Nat.le_trans added.high (Nat.le_max_left ..), ?_, ?_, ?_, ?_⟩
    · dsimp only [NodeStore.push]
      rw [added.nodes, List.append_assoc]
    · rw [if_pos rfl, added.created, List.map_append]
      rfl
    · intro node member
      rcases List.mem_append.1 member with old | made
      · exact added.each node old
      · cases List.mem_singleton.1 made
        exact ⟨⟨_, rfl⟩, rfl, added.high⟩
    · intro node member definition isPseudo
      rcases List.mem_append.1 member with old | made
      · exact added.sourced node old definition isPseudo
      · cases List.mem_singleton.1 made
        cases isPseudo
        exact ⟨rfl, sourced⟩

theorem run_added (layers : Layered) (step : NodeId) (fields references repeated : List NodeId) :
    ∃ new, Added layers step (run layers step fields references repeated) new := by
  refine run_sourced (Shown layers) (P := fun state => ∃ new, Added layers step state new) ?_ ?_
    ⟨[], rfl, Nat.le_refl _, by simp, rfl, nofun, nofun⟩ fields references repeated
  · rintro state id node ⟨new, added⟩ found
    exact added.shown found
  · rintro state identity origin rfl sourced ⟨new, added⟩
    exact added.want sourced

/-- Nodes that are there are found under their identifiers. -/
theorem mapM_get {σ : Type} [NodeSource σ] {nodes : σ} {batch : List Node}
    (found : ∀ node ∈ batch, node? nodes node.id = some node) :
    (batch.map Node.id).mapM (NodeSource.get nodes) = .ok batch := by
  refine Except.mapM_eq_ok_iff.2 (List.forall₂_map_left_iff.2 (List.forall₂_same.2 ?_))
  intro node member
  exact NodeSource.get_eq_ok (found node member)

/-- Where nodes are in good order, nothing stands against making what a batch of them needs. -/
theorem exists_makeBatch {σ : Type} [PseudoSink σ] [LawfulSink σ] {Good : σ → Prop}
    {step : NodeId} {nodes : σ} (locates : Locates Good step) (good : Good nodes)
    {batch : List Node} (found : ∀ node ∈ batch, node? nodes node.id = some node) :
    ∃ state, makeBatch .endless nodes step (batch.map Node.id) = .ok state := by
  have picked : ∀ test, ∀ id ∈ pick nodes batch test, ∃ node, node? nodes id = some node := by
    intro test id member
    obtain ⟨node, chosen, rfl⟩ := List.mem_map.1 member
    exact ⟨node, found node (List.mem_of_mem_filter chosen)⟩
  rw [makeBatch, mapM_get found]
  refine ⟨_, make_eq_run locates good _ _ _ ?_⟩
  rintro id (member | member | member) <;> exact picked _ id member

end Synthesis

namespace RequestScope

namespace Assembled

variable {wired : WiredForm} {overlay after : Overlay} {template : Template} {scheme : Renaming}
  {index : Nat} {complete : NodeStore} {state : Synthesis.State Layered}
  (made : Assembled wired overlay after template scheme index complete state)

/-- The iteration or copies of a kind that do not wait for an iteration. -/
def picked (wired : WiredForm) (overlay : Overlay) (template : Template) (scheme : Renaming)
    (index : Nat) (complete : NodeStore) (test : NodeKind → Bool) : List NodeId :=
  Synthesis.pick (⟨wired.form.nodes, complete⟩ : Layered)
    (newNodes template scheme index overlay.nodes) test

section

include made

theorem run_eq : Synthesis.run (⟨wired.form.nodes, complete⟩ : Layered) template.step
    (picked wired overlay template scheme index complete NodeKind.isField)
    (picked wired overlay template scheme index complete NodeKind.isReference)
    (picked wired overlay template scheme index complete NodeKind.isRepeated) = state := by
  obtain ⟨found, mapped, same⟩ := Except.bind_eq_ok_iff.1 made.ran
  rw [batchOf, Synthesis.mapM_get fun node member => made.node?_of_new member] at mapped
  cases mapped
  exact Except.ok.inj same

theorem exists_added : ∃ new,
    Synthesis.Added (⟨wired.form.nodes, complete⟩ : Layered) template.step state new := by
  rw [← made.run_eq]
  exact Synthesis.run_added ..

theorem node?_of_picked {test : NodeKind → Bool} {id : NodeId}
    (member : id ∈ picked wired overlay template scheme index complete test) :
    ∃ node, node? (⟨wired.form.nodes, complete⟩ : Layered) id = some node ∧
      awaitsIteration (⟨wired.form.nodes, complete⟩ : Layered) node = false := by
  obtain ⟨node, chosen, rfl⟩ := List.mem_map.1 member
  obtain ⟨new, passes⟩ := List.mem_filter.1 chosen
  refine ⟨node, made.node?_of_new new, ?_⟩
  simpa using (Bool.and_eq_true_iff.1 passes).2

end

variable (coherent : wired.form.nodes.Coherent) (anchored : wired.form.nodes.Anchored overlay.nodes)
include made coherent anchored

/-- The step of the collection is there all the time. -/
theorem exists_step : ∃ outer,
    node? (⟨wired.form.nodes, complete⟩ : Layered) template.step = some outer ∧
      outer.kind.isStep = true := by
  obtain ⟨top, definition, present, isCollection, _⟩ := made.iterable.collection
  obtain ⟨outer, found, isStep⟩ := node?_of_owningStep? present
    (by rw [isCollection]; rfl) made.iterable.step
  exact ⟨outer, (made.shows_complete coherent anchored).node _ _ found, isStep⟩

/-- The layers before pseudo-nodes are made, with the step that they are made for. -/
theorem has_step : (⟨wired.form.nodes, complete⟩ : Layered).base = wired.form.nodes ∧
    wired.form.nodes.Anchored complete ∧
    (⟨wired.form.nodes, complete⟩ : Layered).Has template.step := by
  obtain ⟨outer, present, _⟩ := made.exists_step coherent anchored
  exact ⟨rfl, made.anchored, outer, present⟩

/-- The layers afterwards. -/
theorem layers_eq : layersOver wired after = state.nodes := by
  obtain ⟨outer, found, _⟩ := made.exists_step coherent anchored
  obtain ⟨base, _⟩ := Synthesis.run_outgrows coherent made.anchored ⟨outer, found⟩ _ _ _ made.run_eq
  change state.nodes.base = wired.form.nodes at base
  rw [layersOver, made.store, ← base]

theorem anchored_after : wired.form.nodes.Anchored after.nodes := by
  obtain ⟨outer, found, _⟩ := made.exists_step coherent anchored
  obtain ⟨_, inner, _⟩ :=
    Synthesis.run_outgrows coherent made.anchored ⟨outer, found⟩ _ _ _ made.run_eq
  rw [made.store]
  exact inner

/-- What is made and shown once pseudo-nodes are made. -/
theorem supplied :
    Shows (⟨wired.form.nodes, complete⟩ : Layered) (layersOver wired after) ∧
      Synthesis.Furnishes (⟨wired.form.nodes, complete⟩ : Layered) template.step
        (picked wired overlay template scheme index complete NodeKind.isField)
        (picked wired overlay template scheme index complete NodeKind.isReference)
        (picked wired overlay template scheme index complete NodeKind.isRepeated)
        (layersOver wired after) ∧
      ∀ scope key, HasPseudo (layersOver wired after) ⟨.item, scope, key⟩ →
        HasPseudo (⟨wired.form.nodes, complete⟩ : Layered) ⟨.item, scope, key⟩ ∨
          ∃ id node, node? (⟨wired.form.nodes, complete⟩ : Layered) id = some node ∧
            awaitsIteration (⟨wired.form.nodes, complete⟩ : Layered) node = false ∧
            Item.keyOfKind? id node.kind = some key := by
  obtain ⟨outer, found, _⟩ := made.exists_step coherent anchored
  rw [made.layers_eq coherent anchored]
  obtain ⟨_, shown, furnishes, items⟩ := Synthesis.run_furnishes
    (Layered.locates coherent template.step) ⟨rfl, made.anchored, outer, found⟩ _ _ _
    (fun id member => (made.node?_of_picked member).imp fun _ known => known.1) made.run_eq
  refine ⟨shown, furnishes, fun scope key has => (items scope key has).imp_right ?_⟩
  rintro ⟨id, member, node, present, keyed⟩
  obtain ⟨other, again, ready⟩ := made.node?_of_picked member
  cases present.symm.trans again
  exact ⟨id, node, present, ready, keyed⟩

theorem shows_after : Shows (layersOver wired overlay) (layersOver wired after) :=
  (made.shows_complete coherent anchored).trans (made.supplied coherent anchored).1

/-- Of the nodes afterwards only the pseudo-nodes that were made were not there before. -/
theorem old_or_made {id : NodeId} {node : Node}
    (found : node? (layersOver wired after) id = some node) :
    node? (⟨wired.form.nodes, complete⟩ : Layered) id = some node ∨
      (∃ definition, node.kind = .pseudo definition) ∧ node.parent = some template.step := by
  obtain ⟨new, added⟩ := made.exists_added
  have nodes := added.nodes
  rw [← made.store] at nodes
  have inner := made.anchored_after coherent anchored
  rcases Layered.node?_eq_some_iff.1 found with own | ⟨_, lower⟩
  · obtain ⟨member, rfl⟩ := (NodeStore.node?_eq_some_iff inner.coherent).1 own
    change node ∈ after.nodes.nodes at member
    rw [nodes] at member
    rcases List.mem_append.1 member with old | fresh
    · exact .inl (Layered.node?_eq_some_iff.2 (.inl
        (NodeStore.node?_of_mem made.anchored.coherent old)))
    · exact .inr ⟨(added.each node fresh).1, (added.each node fresh).2.1⟩
  · exact .inl (made.anchored.node?_base coherent lower)

variable (placed : WellPlaced (layersOver wired overlay)) (lower : Upright wired.form.nodes)
include placed lower

theorem wellPlaced_after : WellPlaced (layersOver wired after) := by
  obtain ⟨shown, _⟩ := made.supplied coherent anchored
  refine (made.wellPlaced coherent anchored placed lower).extend shown
    (Layered.upright coherent (made.anchored_after coherent anchored) lower) ?_
  intro id node found
  apply (made.old_or_made coherent anchored found).imp_right
  rintro ⟨⟨definition, isPseudo⟩, contained⟩
  obtain ⟨outer, present, isStep⟩ := made.exists_step coherent anchored
  exact .ofPseudo isPseudo contained (shown.node _ _ present) isStep

/-- A node that is no pseudo-node was there before, or it is the iteration or a copy. -/
theorem old_or_copy {id : NodeId} {node : Node}
    (found : node? (layersOver wired after) id = some node) (plain : node.kind.pseudo? = none) :
    node? (layersOver wired overlay) id = some node ∨
      node ∈ newNodes template scheme index overlay.nodes ∧ node.id = id ∧
        node? (⟨wired.form.nodes, complete⟩ : Layered) id = some node ∧
        owningStep? (layersOver wired after) id = some template.step := by
  rcases made.old_or_made coherent anchored found with known | ⟨⟨definition, isPseudo⟩, _⟩
  · apply (made.old_or_new coherent anchored known).imp_right
    intro new
    have named := LawfulSource.id_of_node? _ _ _ known
    refine ⟨new, named, known, ?_⟩
    rw [(made.supplied coherent anchored).1.owningStep?_eq
      (made.wellPlaced coherent anchored placed lower).upright known, ← named]
    exact made.owned coherent anchored placed lower new
  · rw [isPseudo] at plain
    cases plain

/-- Every node has what it reads, if this was so before. -/
theorem furnished (before : Furnished (layersOver wired overlay)) :
    Furnished (layersOver wired after) := by
  obtain ⟨shown, furnishes, items⟩ := made.supplied coherent anchored
  have upright := (made.wellPlaced coherent anchored placed lower).upright
  refine before.extend (made.shows_after coherent anchored) placed.upright ?_ ?_
  · intro id node step found ready owned
    cases plain : node.kind.pseudo? with
    | some definition =>
      have isPseudo := NodeKind.pseudo?_eq_some_iff.1 plain
      right
      refine ⟨?_, ?_, ?_⟩
      · intro other field again isField
        cases found.symm.trans again
        cases isPseudo.symm.trans isField
      · intro other expression space key again isReference _
        cases found.symm.trans again
        cases isPseudo.symm.trans isReference
      · intro other key again keyed
        cases found.symm.trans again
        rw [isPseudo] at keyed
        cases keyed
    | none =>
      apply (made.old_or_copy coherent anchored placed lower found plain).imp_right
      rintro ⟨new, named, known, within⟩
      cases owned.symm.trans within
      rw [shown.awaitsIteration_eq upright known] at ready
      have pick : ∀ {test : NodeKind → Bool}, test node.kind = true →
          id ∈ picked wired overlay template scheme index complete test := by
        intro test passes
        rw [← named]
        exact List.mem_map_of_mem (List.mem_filter.2 ⟨new, by simp [passes, ready]⟩)
      refine ⟨?_, ?_, ?_⟩
      · intro other field again isField
        cases found.symm.trans again
        exact furnishes.fields id (pick (by rw [isField]; rfl)) node field known isField
      · intro other expression space key again isReference target
        cases found.symm.trans again
        exact furnishes.references id (pick (by rw [isReference]; rfl)) node expression space key
          known isReference target
      · intro other key again keyed
        cases found.symm.trans again
        exact furnishes.repeated id (pick (Item.isRepeated_of_keyOfKind? keyed)) node key known
          keyed
  · intro scope key has
    rcases items scope key has with old | ⟨id, node, found, ready, keyed⟩
    · refine .inl (Layered.hasPseudo_iff.2 ?_)
      apply (Layered.hasPseudo_iff.1 old).imp_right
      intro upper
      obtain ⟨node, member, identity⟩ :=
        (NodeStore.hasPseudo_iff made.anchored.coherent).1 upper
      rw [made.nodes] at member
      rcases List.mem_append.1 member with old | new
      · exact (NodeStore.hasPseudo_iff anchored.coherent).2 ⟨node, old, identity⟩
      · rw [Node.identity?, made.pseudo?_of_new coherent anchored placed new] at identity
        cases identity
    · refine .inr ⟨id, node, shown.node _ _ found, keyed, ?_⟩
      rw [shown.awaitsIteration_eq upright found, ready]

end Assembled

end RequestScope

end FormFlow
