import FormFlow.Proofs.Form.Scopes
import FormFlow.Proofs.Serial.Outline
import FormFlow.Wiring.Membership

/-!
# Stores with the same nodes in another order

Twins are stores that hold the same nodes, inserted in whatever order, where the values of
literals do not count (`NodeStore.Twins`). A walk up meets the same nodes in both
(`Twins.above`), so every node belongs to the same step, stands in the same template and has
the same role (`Twins.members`).

What differs is what goes by the order: which field of a step comes first and which
load-transition of a scope comes last. Where the latter agree, the same load-transition serves
each step (`Twins.loadAbove?`).
-/

set_option autoImplicit false

namespace FormFlow

open NodeSource

namespace NodeStore

variable {store other : NodeStore}

/-- Coherent stores that hold the same nodes up to literal values. -/
structure Twins (store other : NodeStore) : Prop where
  coherent : store.Coherent
  otherCoherent : other.Coherent
  perm : (store.nodes.map Node.outline).Perm (other.nodes.map Node.outline)

namespace Twins

theorem symm (twins : Twins store other) : Twins other store :=
  ⟨twins.otherCoherent, twins.coherent, twins.perm.symm⟩

/-- A node of one store has its like in the other. -/
theorem exists_like (twins : Twins store other) {node : Node} (member : node ∈ store.nodes) :
    ∃ like ∈ other.nodes, node.outline = like.outline := by
  obtain ⟨like, there, same⟩ :=
    List.mem_map.1 (twins.perm.mem_iff.1 (List.mem_map_of_mem member))
  exact ⟨like, there, same.symm⟩

theorem exists_of_node? (twins : Twins store other) {id : NodeId} {node : Node}
    (found : store.node? id = some node) :
    ∃ like, other.node? id = some like ∧ node.outline = like.outline := by
  obtain ⟨member, rfl⟩ := (node?_eq_some_iff twins.coherent).1 found
  obtain ⟨like, there, same⟩ := twins.exists_like member
  have ids : node.id = like.id := Node.id_of_outline same
  exact ⟨like, (node?_eq_some_iff twins.otherCoherent).2 ⟨there, ids.symm⟩, same⟩

theorem node? (twins : Twins store other) (id : NodeId) :
    (store.node? id).map Node.outline = (other.node? id).map Node.outline := by
  cases found : store.node? id with
  | some node =>
    obtain ⟨like, there, same⟩ := twins.exists_of_node? found
    rw [there, Option.map_some, Option.map_some, same]
  | none =>
    cases there : other.node? id with
    | none => rfl
    | some node =>
      obtain ⟨like, here, -⟩ := twins.symm.exists_of_node? there
      cases found.symm.trans here

theorem size (twins : Twins store other) : NodeSource.size store = NodeSource.size other := by
  have lengths := twins.perm.length_eq
  rw [List.length_map, List.length_map] at lengths
  exact lengths

/-- A list that is read off node by node. -/
theorem perm_filterMap (twins : Twins store other) {α : Type} {view here : Node → Option α}
    (same : ∀ node like : Node, node.outline = like.outline → view node = here like) :
    (store.nodes.filterMap view).Perm (other.nodes.filterMap here) := by
  have outlined : ∀ node : Node, view node = here node.outline :=
    fun node => same node node.outline node.outline_outline.symm
  have blind : ∀ node : Node, here node = here node.outline :=
    fun node => (same node node rfl).symm.trans (outlined node)
  have mapped := twins.perm.filterMap here
  rw [List.filterMap_map, List.filterMap_map] at mapped
  rwa [List.filterMap_congr fun node _ => outlined node,
    List.filterMap_congr fun node (_ : node ∈ other.nodes) => blind node]

/-- Pseudo-nodes with the same identity have the same identifier. -/
theorem pseudo? (twins : Twins store other) (identity : PseudoKey) :
    store.pseudo? identity = other.pseudo? identity := by
  refine Option.ext fun id => ?_
  rw [pseudo?_eq_some_iff twins.coherent, pseudo?_eq_some_iff twins.otherCoherent]
  have blind : NodeKind.Blind NodeKind.pseudo? := fun _ _ => rfl
  have one : ∀ {store other : NodeStore}, Twins store other →
      (∃ node, store.node? id = some node ∧ node.identity? = some identity) →
      ∃ node, other.node? id = some node ∧ node.identity? = some identity := by
    rintro store other twins ⟨node, found, own⟩
    obtain ⟨like, there, same⟩ := twins.exists_of_node? found
    refine ⟨like, there, ?_⟩
    rwa [Node.identity?, ← blind.eq same]
  exact ⟨one twins, one twins.symm⟩

/-! ## Ways up -/

theorem climb (twins : Twins store other) (fuel : Nat) (start : Option NodeId) :
    (NodeSource.climb store fuel start).map Node.outline =
      (NodeSource.climb other fuel start).map Node.outline := by
  induction fuel generalizing start with
  | zero => cases start <;> rfl
  | succ fuel ih =>
    cases start with
    | none => rfl
    | some id =>
      have same : (NodeSource.node? store id).map Node.outline =
          (NodeSource.node? other id).map Node.outline := twins.node? id
      rw [NodeSource.climb, NodeSource.climb]
      cases found : NodeSource.node? store id with
      | none =>
        rw [found] at same
        rw [Option.map_eq_none_iff.1 same.symm]
      | some node =>
        rw [found] at same
        obtain ⟨like, there, outlines⟩ := Option.map_eq_some_iff.1 same.symm
        have parents : node.parent = like.parent := Node.parent_of_outline outlines.symm
        rw [there]
        dsimp only
        rw [List.map_cons, List.map_cons, outlines, parents, ih]

theorem lineage (twins : Twins store other) (id : NodeId) :
    (NodeSource.lineage store id).map Node.outline =
      (NodeSource.lineage other id).map Node.outline := by
  rw [NodeSource.lineage, NodeSource.lineage, twins.size, twins.climb]

theorem above (twins : Twins store other) {node like : Node} (same : node.outline = like.outline) :
    (NodeSource.above store node).map Node.outline =
      (NodeSource.above other like).map Node.outline := by
  have parents : node.parent = like.parent := Node.parent_of_outline same
  rw [NodeSource.above, NodeSource.above, twins.size, parents, twins.climb]

end Twins

/-- The first node that passes a test, on ways with the same nodes. -/
theorem find?_outline {test : NodeKind → Bool} (blind : NodeKind.Blind test) {path way : List Node}
    (same : path.map Node.outline = way.map Node.outline) :
    (path.find? fun node => test node.kind).map Node.outline =
      (way.find? fun node => test node.kind).map Node.outline := by
  have passed : ∀ path : List Node, (path.find? fun node => test node.kind).map Node.outline =
      (path.map Node.outline).find? fun node => test node.kind := by
    intro path
    rw [List.find?_map, blind.comp_outline]
  rw [passed, passed, same]

/-- The nodes that pass a test, on ways with the same nodes. -/
theorem filter_outline {test : NodeKind → Bool} (blind : NodeKind.Blind test)
    {path way : List Node} (same : path.map Node.outline = way.map Node.outline) :
    (path.filter fun node => test node.kind).map Node.outline =
      (way.filter fun node => test node.kind).map Node.outline := by
  have passed : ∀ path : List Node, (path.filter fun node => test node.kind).map Node.outline =
      (path.map Node.outline).filter fun node => test node.kind := by
    intro path
    rw [List.filter_map, blind.comp_outline]
  rw [passed, passed, same]

namespace Twins

variable {node like : Node}

theorem enclosingAbove? (twins : Twins store other) {test : NodeKind → Bool}
    (blind : NodeKind.Blind test) (same : node.outline = like.outline) :
    (NodeSource.enclosingAbove? store node test).map Node.outline =
      (NodeSource.enclosingAbove? other like test).map Node.outline :=
  find?_outline blind (twins.above same)

theorem inTemplate (twins : Twins store other) (same : node.outline = like.outline) :
    NodeSource.inTemplate store node = NodeSource.inTemplate other like := by
  have above := congrArg Option.isSome
    (twins.enclosingAbove? (fun _ _ => rfl : NodeKind.Blind NodeKind.isRepeated) same)
  rwa [Option.isSome_map, Option.isSome_map] at above

theorem owningStep? (twins : Twins store other) (id : NodeId) :
    NodeSource.owningStep? store id = NodeSource.owningStep? other id := by
  have blind : NodeKind.Blind NodeKind.pseudo? := fun _ _ => rfl
  have definition : ((NodeSource.node? store id).bind fun node => node.kind.pseudo?) =
      (NodeSource.node? other id).bind fun node => node.kind.pseudo? :=
    blind.bind_eq (twins.node? id)
  have step : (NodeSource.enclosing? store id NodeKind.isStep).map Node.id =
      (NodeSource.enclosing? other id NodeKind.isStep).map Node.id := by
    have ids := congrArg (Option.map Node.id)
      (find?_outline (fun _ _ => rfl : NodeKind.Blind NodeKind.isStep) (twins.lineage id))
    rwa [Option.map_map, Option.map_map] at ids
  rw [NodeSource.owningStep?, NodeSource.owningStep?, definition, step]

/-! ## Scopes and load-transitions -/

theorem scopeAbove? (twins : Twins store other) (same : node.outline = like.outline) :
    ScopeTree.scopeAbove? store node = ScopeTree.scopeAbove? other like := by
  have ids := congrArg (Option.map Node.id)
    (twins.enclosingAbove? (fun _ _ => rfl : NodeKind.Blind NodeKind.isScope) same)
  rwa [Option.map_map, Option.map_map] at ids

/-- Every load-transition stands in a scope in both stores, or not in either. -/
theorem build_succeeds (twins : Twins store other) {tree : ScopeTree}
    (built : ScopeTree.build store = .ok tree) : ∃ same, ScopeTree.build other = .ok same := by
  rw [ScopeTree.build] at built ⊢
  split at built
  · cases built
  · rename_i placed
    have nothing : (ScopeTree.loadTransitions other).find? (fun load =>
        (ScopeTree.scopeAbove? other load).isNone) = none := by
      rw [List.find?_eq_none] at placed ⊢
      intro load listed
      obtain ⟨member, isLoad⟩ := List.mem_filter.1 listed
      obtain ⟨like, there, same⟩ := twins.symm.exists_like member
      have blind : NodeKind.Blind NodeKind.isLoadTransition := fun _ _ => rfl
      rw [twins.symm.scopeAbove? same]
      exact placed like (List.mem_filter.2 ⟨there, (blind.eq same).symm.trans isLoad⟩)
    rw [nothing]
    exact ⟨_, rfl⟩

/-- The tree has the same steps. -/
theorem mem_steps (twins : Twins store other) {tree same : ScopeTree}
    (built : ScopeTree.build store = .ok tree) (alsoBuilt : ScopeTree.build other = .ok same)
    {step : NodeId} (listed : step ∈ tree.steps) : step ∈ same.steps := by
  obtain ⟨node, member, isStep, rfl⟩ := (ScopeTree.mem_steps_build built).1 listed
  obtain ⟨like, there, alike⟩ := twins.exists_like member
  have ids : node.id = like.id := Node.id_of_outline alike
  have blind : NodeKind.Blind NodeKind.isStep := fun _ _ => rfl
  exact (ScopeTree.mem_steps_build alsoBuilt).2
    ⟨like, there, (blind.eq alike).symm.trans isStep, ids.symm⟩

/-- If every scope declares the same load-transition last, the same one serves a step. -/
theorem loadAbove? (twins : Twins store other)
    (last : ∀ scope, (ScopeTree.declaredLoads store scope).getLast? =
      (ScopeTree.declaredLoads other scope).getLast?) (step : NodeId) :
    ScopeTree.loadAbove? store step = ScopeTree.loadAbove? other step := by
  have scopes : ((NodeSource.lineage store step).filter fun node => node.kind.isScope).map Node.id =
      ((NodeSource.lineage other step).filter fun node => node.kind.isScope).map Node.id := by
    have ids := congrArg (List.map Node.id)
      (filter_outline (fun _ _ => rfl : NodeKind.Blind NodeKind.isScope) (twins.lineage step))
    rwa [List.map_map, List.map_map] at ids
  have read : ∀ (store : NodeStore) (path : List Node),
      path.findSome? (fun scope => (ScopeTree.declaredLoads store scope.id).getLast?) =
        (path.map Node.id).findSome? fun scope =>
          (ScopeTree.declaredLoads store scope).getLast? := fun store path => by
    rw [List.findSome?_map]
    rfl
  rw [ScopeTree.loadAbove?, ScopeTree.loadAbove?, read, read, scopes, funext last]

/-! ## The members of a step -/

theorem place? (twins : Twins store other) (same : node.outline = like.outline) :
    StepMembership.place? store node = StepMembership.place? other like := by
  have ids : node.id = like.id := Node.id_of_outline same
  have roles : ∀ templated, StepMembership.roleOf? node.kind templated =
      StepMembership.roleOf? like.kind templated := by
    intro templated
    have blind : NodeKind.Blind fun kind => StepMembership.roleOf? kind templated :=
      fun _ _ => rfl
    exact blind.eq same
  rw [StepMembership.place?, StepMembership.place?, roles, ids, twins.inTemplate same,
    twins.owningStep? like.id]

/-- Steps have the same members. -/
theorem within (twins : Twins store other) (step : NodeId) (role : MemberRole) :
    ((StepMembership.build store).within step role).Perm
      ((StepMembership.build other).within step role) :=
  ((twins.perm_filterMap fun _ _ => twins.place?).filter _).map _

end Twins

end NodeStore

end FormFlow
