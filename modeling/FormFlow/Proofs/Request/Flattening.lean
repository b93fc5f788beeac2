import FormFlow.Proofs.Request.Overlay

/-!
# Two stores as one

Two stores that lie one over the other can be put into one, the nodes of the upper store behind
those of the lower one (`Layered.flatten`). Pseudo-nodes are looked up and made there as in the
two (`Layered.locate_flatten`).

If the identifiers of the upper store lie above those of the lower one (`Layered.Apart`), then
all that can be read is the same (`Layered.Apart.agrees`). That the upper store is looked at
first for a node, and the lower one first for an identity, makes no difference then. If besides
no identity is in both, the nodes of the upper store can be inserted into the lower one, one by
one (`RequestScope.insertAll_eq_flatten`).
-/

set_option autoImplicit false

namespace FormFlow

open NodeSource

/-! ## Sources that show the same nodes -/

namespace NodeSource

variable {σ τ : Type} [NodeSource σ] [NodeSource τ] {one : σ} {other : τ}
  (nodes : ∀ id, node? one id = node? other id)
include nodes

theorem climb_congr (fuel : Nat) (start : Option NodeId) :
    climb one fuel start = climb other fuel start := by
  induction fuel generalizing start with
  | zero => rfl
  | succ fuel ih =>
    cases start with
    | none => rfl
    | some id =>
      rw [climb, climb, nodes]
      cases node? other id with
      | none => rfl
      | some node => exact congrArg (node :: ·) (ih node.parent)

theorem enclosing?_congr (sizes : size one = size other) (id : NodeId) (test : NodeKind → Bool) :
    enclosing? one id test = enclosing? other id test := by
  rw [enclosing?, enclosing?, lineage, lineage, sizes, climb_congr nodes]

theorem owningStep?_congr (sizes : size one = size other) (id : NodeId) :
    owningStep? one id = owningStep? other id := by
  rw [owningStep?, owningStep?, nodes, enclosing?_congr nodes sizes]

end NodeSource

/-- The pseudo-nodes of a store in a scope can be told where its nodes are shown. -/
theorem NodeStore.Coherent.filter_isPseudoOf {store later : NodeStore} (coherent : store.Coherent)
    (shown : ∀ id node, store.node? id = some node → later.node? id = some node)
    (kind : PseudoKind) (scope : NodeId) :
    store.pseudoNodes.filter (later.isPseudoOf kind scope) =
      store.pseudoIds kind scope := by
  apply List.filter_congr
  intro id member
  obtain ⟨entry, known, rfl⟩ := List.mem_map.1 member
  rw [coherent.identities] at known
  obtain ⟨node, there, part⟩ := List.mem_filterMap.1 known
  obtain ⟨_, _, rfl⟩ := Option.map_eq_some_iff.1 part
  have found := NodeStore.node?_of_mem coherent there
  rw [NodeStore.isPseudoOf, NodeStore.isPseudoOf, found, shown _ _ found]

/-- Looks pseudo-nodes up one after the other, and makes those that are not there. Tells of each
its identifier and whether it was made. -/
def PseudoSink.locateAll {σ : Type} [PseudoSink σ] (nodes : σ) :
    List (PseudoKey × Option NodeId) → σ × List (NodeId × Bool)
  | [] => (nodes, [])
  | (identity, origin) :: rest =>
    let located := PseudoSink.locate nodes identity origin
    let (last, answers) := locateAll located.nodes rest
    (last, (located.id, located.created) :: answers)

namespace Layered

/-- Two stores as one: the nodes of the upper store behind those of the lower one. -/
def flatten (layers : Layered) : NodeStore where
  nodes := layers.base.nodes ++ layers.overlay.nodes
  containment := layers.base.containment ++ layers.overlay.containment
  references := layers.base.references ++ layers.overlay.references
  identities := layers.base.identities ++ layers.overlay.identities
  nextId := layers.overlay.nextId

theorem flatten_push (layers : Layered) (node : Node) :
    ({ layers with overlay := layers.overlay.push node } : Layered).flatten =
      layers.flatten.push node := by
  simp only [flatten, NodeStore.push, List.append_assoc]

/-! ## Pseudo-nodes -/

theorem pseudo?_flatten (layers : Layered) (identity : PseudoKey) :
    layers.flatten.pseudo? identity = layers.pseudo? identity := by
  rw [pseudo?, Option.orElse_eq_or]
  exact List.lookup_append

/-- Pseudo-nodes are looked up and made in one store as in the two. -/
theorem locate_flatten (layers : Layered) (identity : PseudoKey) (origin : Option NodeId) :
    layers.flatten.locate identity origin =
      ⟨(layers.locate identity origin).nodes.flatten, (layers.locate identity origin).id,
        (layers.locate identity origin).created⟩ := by
  have same := layers.pseudo?_flatten identity
  rw [pseudo?] at same
  rw [locate]
  cases lower : layers.base.pseudo? identity with
  | some existing =>
    rw [lower] at same
    exact NodeStore.locate_of_present same origin
  | none =>
    rw [lower] at same
    cases upper : layers.overlay.pseudo? identity with
    | some existing =>
      rw [upper] at same
      rw [NodeStore.locate_of_present upper, NodeStore.locate_of_present same]
    | none =>
      rw [upper] at same
      rw [NodeStore.locate_of_absent upper, NodeStore.locate_of_absent same]
      dsimp only
      rw [flatten_push]
      rfl

theorem locateAll_flatten (wanted : List (PseudoKey × Option NodeId)) (layers : Layered) :
    PseudoSink.locateAll layers.flatten wanted =
      ((PseudoSink.locateAll layers wanted).1.flatten, (PseudoSink.locateAll layers wanted).2) := by
  induction wanted generalizing layers with
  | nil => rfl
  | cons entry rest ih =>
    obtain ⟨identity, origin⟩ := entry
    have first : PseudoSink.locate layers.flatten identity origin = _ :=
      layers.locate_flatten identity origin
    simp only [PseudoSink.locateAll, first, ih]
    rfl

/-! ## What is read -/

/-- All that can be read in two stores is read in one. -/
structure Agrees (layers : Layered) (flat : NodeStore) : Prop where
  nextId : flat.nextId = layers.overlay.nextId
  node : ∀ id, NodeSource.node? layers id = NodeSource.node? flat id
  pseudo : ∀ identity, NodeSource.pseudo? layers identity = NodeSource.pseudo? flat identity
  pseudoIds : ∀ kind scope,
    NodeSource.pseudoIds layers kind scope = NodeSource.pseudoIds flat kind scope
  parent : ∀ id, parent? layers id = parent? flat id
  enclosing : ∀ id test, enclosing? layers id test = enclosing? flat id test
  owningStep : ∀ id, owningStep? layers id = owningStep? flat id

/-- The identifiers of the upper store lie above those of the lower one. -/
structure Apart (layers : Layered) : Prop where
  base : layers.base.Coherent
  overlay : layers.overlay.Coherent
  above : layers.base.nextId ≤ layers.overlay.nextId
  high : ∀ node ∈ layers.overlay.nodes, layers.base.nextId ≤ node.id.val

theorem Apart.ofAnchored {base overlay : NodeStore} (coherent : base.Coherent)
    (anchored : base.Anchored overlay) : Apart ⟨base, overlay⟩ :=
  ⟨coherent, anchored.coherent, anchored.above, anchored.high⟩

namespace Apart

variable {layers : Layered} (apart : Apart layers)
include apart

theorem node?_eq_none {id : NodeId} (low : id.val < layers.base.nextId) :
    layers.overlay.node? id = none := by
  apply Option.eq_none_iff_forall_ne_some.2
  intro node found
  obtain ⟨member, rfl⟩ := (NodeStore.node?_eq_some_iff apart.overlay).1 found
  have high := apart.high node member
  omega

theorem node?_flatten (id : NodeId) : layers.node? id = layers.flatten.node? id := by
  change (layers.overlay.node? id).orElse (fun _ => layers.base.node? id) =
    (layers.base.nodes ++ layers.overlay.nodes).find? _
  rw [List.find?_append, Option.orElse_eq_or]
  change _ = (layers.base.node? id).or (layers.overlay.node? id)
  cases lower : layers.base.node? id with
  | none => simp
  | some node =>
    rw [apart.node?_eq_none (NodeStore.id_lt_nextId apart.base lower)]
    rfl

/-- What is read of stores apart from each other is read in one. -/
theorem agrees : Agrees layers layers.flatten := by
  have nodes : ∀ id, NodeSource.node? layers id = NodeSource.node? layers.flatten id :=
    apart.node?_flatten
  have sizes : NodeSource.size layers = NodeSource.size layers.flatten :=
    List.length_append.symm
  refine
    { nextId := rfl
      node := nodes
      pseudo := fun identity => (layers.pseudo?_flatten identity).symm
      pseudoIds := ?_
      parent := ?_
      enclosing := enclosing?_congr nodes sizes
      owningStep := owningStep?_congr nodes sizes }
  · intro kind scope
    change _ = (List.map Prod.snd (layers.base.identities ++ layers.overlay.identities)).filter
      (layers.flatten.isPseudoOf kind scope)
    rw [List.map_append, List.filter_append]
    refine congrArg₂ _ (apart.base.filter_isPseudoOf ?_ kind scope).symm
      (apart.overlay.filter_isPseudoOf ?_ kind scope).symm
    · intro id node found
      rw [← apart.node?_flatten]
      exact node?_eq_some_iff.2 (.inr
        ⟨apart.node?_eq_none (NodeStore.id_lt_nextId apart.base found), found⟩)
    · intro id node found
      rw [← apart.node?_flatten]
      exact node?_eq_some_iff.2 (.inl found)
  · intro id
    rw [parent?, parent?, nodes]

theorem locate (identity : PseudoKey) (origin : Option NodeId) :
    Apart (layers.locate identity origin).nodes := by
  rcases layers.locate_cases identity origin with ⟨_, _, same⟩ | ⟨_, absent, same⟩
  · rw [same]
    exact apart
  · rw [same]
    refine ⟨apart.base, apart.overlay.push (apart.overlay.conflict?_fresh absent origin),
      Nat.le_trans apart.above (Nat.le_max_left ..), ?_⟩
    intro node member
    rcases List.mem_append.1 member with old | new
    · exact apart.high node old
    · rw [List.mem_singleton.1 new]
      exact apart.above

theorem locateAll (wanted : List (PseudoKey × Option NodeId)) :
    Apart (PseudoSink.locateAll layers wanted).1 := by
  induction wanted generalizing layers with
  | nil => exact apart
  | cons entry rest ih => exact ih (apart.locate entry.1 entry.2)

end Apart

end Layered

/-! ## One node after the other -/

namespace RequestScope

theorem insertAll_append {first second : List Node} {store middle : NodeStore}
    (inserted : insertAll first store = (middle, none)) :
    insertAll (first ++ second) store = insertAll second middle := by
  induction first generalizing store with
  | nil =>
    cases inserted
    rfl
  | cons node rest ih =>
    rw [insertAll] at inserted
    rw [List.cons_append, insertAll]
    cases one : store.addNode node .endless with
    | error error =>
      rw [one] at inserted
      cases inserted
    | ok extended =>
      rw [one] at inserted
      exact ih inserted

/-- The nodes of a store that grew over another one can be inserted into that one, if it has none
of their identities. -/
theorem insertAll_eq_flatten {base overlay : NodeStore} (coherent : base.Coherent)
    (grows : NodeStore.Grows base.nextId (.startingAt base.nextId) overlay)
    (unused : ∀ node ∈ overlay.nodes, ∀ identity, node.identity? = some identity →
      base.pseudo? identity = none) :
    insertAll overlay.nodes base = (Layered.flatten ⟨base, overlay⟩, none) := by
  induction grows with
  | refl => simp [insertAll, NodeStore.startingAt, Layered.flatten]
  | @push later node grown free high ih =>
    have before := ih fun other member => unused other (List.mem_append_left _ member)
    obtain ⟨fresh, apart⟩ := NodeStore.conflict?_eq_none_iff.1 free
    have lower : base.node? node.id = none := NodeStore.node?_eq_none_of_le coherent high
    have absent : (Layered.flatten ⟨base, later⟩).contains node.id = false := by
      have upper : later.node? node.id = none := by simpa [NodeStore.contains] using fresh
      simp only [NodeStore.contains, NodeStore.node?, Layered.flatten, List.find?_append] at *
      rw [lower, upper]
      rfl
    have unclaimed : ∀ identity, node.identity? = some identity →
        (Layered.flatten ⟨base, later⟩).pseudo? identity = none := by
      intro identity own
      have none := unused node (List.mem_append_right _ (List.mem_singleton_self _)) identity own
      rw [Layered.pseudo?_flatten, Layered.pseudo?]
      dsimp only
      rw [none]
      exact apart identity own
    have inserted : (Layered.flatten ⟨base, later⟩).addNode node .endless =
        .ok ((Layered.flatten ⟨base, later⟩).push node) :=
      NodeStore.insertNode_eq_ok_iff.2
        ⟨NodeStore.conflict?_eq_none_iff.2 ⟨absent, unclaimed⟩, rfl⟩
    change insertAll (later.nodes ++ [node]) base = _
    rw [insertAll_append before, insertAll, inserted, ← Layered.flatten_push]
    rfl

end RequestScope

end FormFlow
