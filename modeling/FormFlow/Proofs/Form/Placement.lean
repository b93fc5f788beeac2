import FormFlow.Form.Basic
import FormFlow.Proofs.Form.Rooted

/-!
# Where nodes may stand

Nodes are well placed (`NodeSource.WellPlaced`) if journeys and steps stand in journeys only,
pseudo-nodes in steps, and every iteration in a collection that is in no open template. Then what
is around a node can be told from the node.

- A field around a node that is in no open template is in no open template either
  (`WellPlaced.inOpenTemplate_field`), although iterations may stand in between.
- A node belongs to the step of the field around it, and to that of the collection or iteration
  around it (`WellPlaced.owningStep?_of_encloses`).
-/

set_option autoImplicit false

namespace FormFlow

open NodeSource

/-- A field repeats nothing, and it is neither a scope nor a pseudo-node. -/
theorem NodeKind.of_isField {kind : NodeKind} (isField : kind.isField = true) :
    kind.isRepeated = false ∧ kind.isScope = false ∧ kind.pseudo? = none := by
  cases kind <;> first | exact ⟨rfl, rfl, rfl⟩ | cases isField

theorem NodeKind.of_isRepeated {kind : NodeKind} (isRepeated : kind.isRepeated = true) :
    kind.isScope = false ∧ kind.pseudo? = none := by
  cases kind <;> first | exact ⟨rfl, rfl⟩ | cases isRepeated

theorem NodeKind.isRepeated_of_isCollection {kind : NodeKind}
    (isCollection : kind.isCollection = true) : kind.isRepeated = true := by
  rw [isRepeated, isCollection, Bool.true_or]

namespace NodeSource

variable {σ : Type} [NodeSource σ]

/-- A node stands where its kind may stand: a scope in a journey or at the top, a pseudo-node in a
step, and an iteration in a collection that is in no open template. -/
structure Stands (nodes : σ) (node : Node) : Prop where
  scope : node.kind.isScope = true → ∀ parent outer, node.parent = some parent →
    node? nodes parent = some outer → outer.kind.isJourney = true
  pseudo : ∀ definition, node.kind = .pseudo definition → ∃ parent outer,
    node.parent = some parent ∧ node? nodes parent = some outer ∧ outer.kind.isStep = true
  iteration : ∀ collection index, node.kind = .iteration collection index →
    node.parent = some collection ∧ ∃ outer, node? nodes collection = some outer ∧
      outer.kind.isCollection = true ∧ inOpenTemplate nodes outer = false

/-- A pseudo-node stands well in a step. -/
theorem Stands.ofPseudo {nodes : σ} {node outer : Node} {definition : Pseudo} {step : NodeId}
    (isPseudo : node.kind = .pseudo definition) (contained : node.parent = some step)
    (found : node? nodes step = some outer) (isStep : outer.kind.isStep = true) :
    Stands nodes node := by
  refine ⟨?_, fun _ _ => ⟨step, outer, contained, found, isStep⟩, ?_⟩
  · intro isScope
    rw [isPseudo] at isScope
    cases isScope
  · intro collection index isIteration
    rw [isPseudo] at isIteration
    cases isIteration

/-- Every node stands where its kind may stand, under nodes that are there. -/
structure WellPlaced (nodes : σ) : Prop where
  upright : Upright nodes
  stands : ∀ id node, node? nodes id = some node → Stands nodes node

variable [LawfulSource σ] {nodes : σ}

/-! ## One node up -/

section

variable (upright : Upright nodes) {node outer : Node} {parent : NodeId}
  (contained : node.parent = some parent) (found : node? nodes parent = some outer)
include upright contained found

theorem Upright.enclosingAbove?_parent {test : NodeKind → Bool} (passes : test outer.kind = true) :
    enclosingAbove? nodes node test = some outer := by
  rw [enclosingAbove?_of_parent nodes contained]
  exact upright.enclosing?_self found passes

theorem Upright.enclosingAbove?_up {test : NodeKind → Bool} (fails : test outer.kind = false) :
    enclosingAbove? nodes node test = enclosingAbove? nodes outer test := by
  rw [enclosingAbove?_of_parent nodes contained]
  exact upright.enclosing?_above found fails

theorem Upright.inOpenTemplate_parent (repeated : outer.kind.isRepeated = true) :
    inOpenTemplate nodes node = outer.kind.isCollection := by
  rw [inOpenTemplate, repeatedAbove?, upright.enclosingAbove?_parent contained found repeated]

theorem Upright.inOpenTemplate_up (single : outer.kind.isRepeated = false) :
    inOpenTemplate nodes node = inOpenTemplate nodes outer := by
  simp only [inOpenTemplate, repeatedAbove?]
  rw [upright.enclosingAbove?_up contained found single]

end

namespace WellPlaced

variable (placed : WellPlaced nodes)
include placed

/-- The parent of a node that encloses it or does not. -/
theorem exists_parent_of_encloses {id : NodeId} {node outer : Node} {test : NodeKind → Bool}
    (found : node? nodes id = some node)
    (encloses : enclosingAbove? nodes node test = some outer) :
    ∃ parent inner, node.parent = some parent ∧ node? nodes parent = some inner ∧
      (test inner.kind = true ∧ inner = outer ∨
        test inner.kind = false ∧ enclosingAbove? nodes inner test = some outer) := by
  cases contained : node.parent with
  | none =>
    rw [enclosingAbove?_top contained] at encloses
    cases encloses
  | some parent =>
    obtain ⟨inner, present⟩ := placed.upright.exists_parent found contained
    refine ⟨parent, inner, rfl, present, ?_⟩
    cases passes : test inner.kind with
    | true =>
      rw [placed.upright.enclosingAbove?_parent contained present passes] at encloses
      exact .inl ⟨rfl, Option.some.inj encloses⟩
    | false =>
      rw [placed.upright.enclosingAbove?_up contained present passes] at encloses
      exact .inr ⟨rfl, encloses⟩

/-- The field around a node in no open template is in no open template. -/
theorem inOpenTemplate_field {id : NodeId} {node field : Node}
    (found : node? nodes id = some node) (closed : inOpenTemplate nodes node = false)
    (encloses : enclosingAbove? nodes node NodeKind.isField = some field) :
    inOpenTemplate nodes field = false := by
  -- An iteration is below its collection, so it stands in a template that is open; what is
  -- known of it is that the collection does not.
  have upward : (inOpenTemplate nodes node = false ∨ node.kind.isIteration = true) →
      ∀ field, enclosingAbove? nodes node NodeKind.isField = some field →
        inOpenTemplate nodes field = false := by
    refine placed.upright.induction (P := fun _ node =>
      (inOpenTemplate nodes node = false ∨ node.kind.isIteration = true) →
        ∀ field, enclosingAbove? nodes node NodeKind.isField = some field →
          inOpenTemplate nodes field = false) ?_ found
    intro id node found ih shut field encloses
    obtain ⟨parent, inner, contained, present, place⟩ :=
      placed.exists_parent_of_encloses found encloses
    rcases shut with closed | isIteration
    · cases repeated : inner.kind.isRepeated with
      | true =>
        rw [placed.upright.inOpenTemplate_parent contained present repeated] at closed
        have inside : inner.kind.isIteration = true := by
          simp only [NodeKind.isRepeated] at repeated
          simpa [closed] using repeated
        rcases place with ⟨isField, _⟩ | ⟨_, around⟩
        · rw [(NodeKind.of_isField isField).1] at repeated
          cases repeated
        · exact ih parent inner contained present (.inr inside) field around
      | false =>
        rw [placed.upright.inOpenTemplate_up contained present repeated] at closed
        rcases place with ⟨_, rfl⟩ | ⟨_, around⟩
        · exact closed
        · exact ih parent inner contained present (.inl closed) field around
    · obtain ⟨collection, index, kind⟩ : ∃ collection index,
          node.kind = .iteration collection index := by
        cases kind : node.kind <;> rw [kind] at isIteration <;> cases isIteration
        exact ⟨_, _, rfl⟩
      obtain ⟨within, outer, present', isCollection, closed⟩ :=
        (placed.stands id node found).iteration collection index kind
      rw [contained] at within
      cases within
      cases present.symm.trans present'
      rcases place with ⟨isField, _⟩ | ⟨_, around⟩
      · have single := (NodeKind.of_isField isField).1
        rw [NodeKind.isRepeated, isCollection] at single
        cases single
      · exact ih _ inner contained present (.inl closed) field around
  exact upward (.inl closed) field encloses

section

variable {test : NodeKind → Bool}
  (apart : ∀ kind, test kind = true → kind.isScope = false ∧ kind.pseudo? = none)
include apart

/-- No scope stands in something that is no scope. -/
theorem isScope_of_encloses {id : NodeId} {node outer : Node} (found : node? nodes id = some node)
    (encloses : enclosingAbove? nodes node test = some outer) : node.kind.isScope = false := by
  revert encloses
  refine placed.upright.induction (P := fun _ node =>
    enclosingAbove? nodes node test = some outer → node.kind.isScope = false) ?_ found
  intro id node found ih encloses
  obtain ⟨parent, inner, contained, present, place⟩ :=
    placed.exists_parent_of_encloses found encloses
  cases isScope : node.kind.isScope with
  | false => rfl
  | true =>
    have isJourney := (placed.stands id node found).scope isScope parent inner contained present
    have plain : inner.kind.isScope = false := by
      rcases place with ⟨passes, _⟩ | ⟨_, around⟩
      · exact (apart _ passes).1
      · exact ih parent inner contained present around
    rw [NodeKind.isScope, isJourney] at plain
    cases plain

/-- A node belongs to the step of what is around it. -/
theorem enclosing?_of_encloses {id : NodeId} {node outer : Node}
    (found : node? nodes id = some node) (encloses : enclosingAbove? nodes node test = some outer) :
    enclosing? nodes id NodeKind.isStep = enclosing? nodes outer.id NodeKind.isStep := by
  revert encloses
  refine placed.upright.induction (P := fun id node =>
    enclosingAbove? nodes node test = some outer →
      enclosing? nodes id NodeKind.isStep = enclosing? nodes outer.id NodeKind.isStep) ?_ found
  intro id node found ih encloses
  have plain := placed.isScope_of_encloses apart found encloses
  obtain ⟨parent, inner, contained, present, place⟩ :=
    placed.exists_parent_of_encloses found encloses
  have noStep : node.kind.isStep = false := (Bool.or_eq_false_iff.1 plain).2
  rw [placed.upright.enclosing?_above found noStep, enclosingAbove?_of_parent nodes contained]
  rcases place with ⟨_, rfl⟩ | ⟨_, around⟩
  · rw [LawfulSource.id_of_node? _ _ _ present]
  · exact ih parent inner contained present around

theorem owningStep?_of_encloses {id : NodeId} {node outer : Node}
    (found : node? nodes id = some node) (plain : node.kind.pseudo? = none)
    (encloses : enclosingAbove? nodes node test = some outer) :
    owningStep? nodes outer.id = owningStep? nodes id := by
  obtain ⟨present, passes⟩ := node?_of_enclosingAbove? encloses
  simp only [owningStep?]
  rw [found, present, Option.bind_some, Option.bind_some, plain, (apart _ passes).2,
    placed.enclosing?_of_encloses apart found encloses]

end

end WellPlaced

/-! ## More nodes -/

section

variable {τ : Type} [NodeSource τ] [LawfulSource τ] {earlier : σ} {later : τ}
  (shown : Shows earlier later)
include shown

theorem Stands.transfer {id : NodeId} {node : Node} (stands : Stands earlier node)
    (upright : Upright earlier) (found : node? earlier id = some node) : Stands later node := by
  refine ⟨?_, ?_, ?_⟩
  · intro isScope parent outer contained present
    obtain ⟨known, there⟩ := upright.exists_parent found contained
    cases (shown.node parent known there).symm.trans present
    exact stands.scope isScope parent outer contained there
  · intro definition isPseudo
    obtain ⟨parent, outer, contained, present, isStep⟩ := stands.pseudo definition isPseudo
    exact ⟨parent, outer, contained, shown.node parent outer present, isStep⟩
  · intro collection index isIteration
    obtain ⟨contained, outer, present, isCollection, closed⟩ :=
      stands.iteration collection index isIteration
    refine ⟨contained, outer, shown.node collection outer present, isCollection, ?_⟩
    rw [shown.inOpenTemplate_eq upright present, closed]

/-- It is enough to look at the new nodes. -/
theorem WellPlaced.extend (placed : WellPlaced earlier) (upright : Upright later)
    (new : ∀ id node, node? later id = some node →
      node? earlier id = some node ∨ Stands later node) : WellPlaced later := by
  refine ⟨upright, fun id node found => ?_⟩
  rcases new id node found with old | stands
  · exact (placed.stands id node old).transfer shown placed.upright old
  · exact stands

end

end NodeSource

/-! ## Plain forms -/

/-- A form without iterations and pseudo-nodes of its own, in which no parent is missing, no node
contains itself, and journeys and steps stand at the top or in a journey. -/
structure Form.Plain (form : Form) : Prop where
  acyclic : Acyclic form.nodes
  contained : ∀ node ∈ form.nodes.nodes, ∀ parent, node.parent = some parent →
    form.nodes.contains parent = true
  pseudos : ∀ node ∈ form.nodes.nodes, node.kind.pseudo? = none
  iterations : ∀ node ∈ form.nodes.nodes, node.kind.isIteration = false
  scopes : ∀ node ∈ form.nodes.nodes, node.kind.isScope = true → ∀ parent outer,
    node.parent = some parent → form.nodes.node? parent = some outer →
      outer.kind.isJourney = true

/-- Whether a form is plain can be told from its list of nodes. -/
theorem Form.Plain.ofNodes {form : Form} (rank : NodeId → Nat)
    (descends : ∀ node ∈ form.nodes.nodes, ∀ parent, node.parent = some parent →
      rank parent < rank node.id)
    (contained : ∀ node ∈ form.nodes.nodes, ∀ parent, node.parent = some parent →
      form.nodes.contains parent = true)
    (pseudos : ∀ node ∈ form.nodes.nodes, node.kind.pseudo? = none)
    (iterations : ∀ node ∈ form.nodes.nodes, node.kind.isIteration = false)
    (scopes : ∀ node ∈ form.nodes.nodes, node.kind.isScope = true →
      ∀ outer ∈ form.nodes.nodes, node.parent = some outer.id → outer.kind.isJourney = true) :
    form.Plain where
  acyclic := NodeStore.acyclic_of_descends rank descends
  contained := contained
  pseudos := pseudos
  iterations := iterations
  scopes := by
    intro node member isScope parent outer hangs found
    obtain rfl := NodeStore.id_eq_of_node? found
    exact scopes node member isScope outer (List.mem_of_find?_eq_some found) hangs

/-- If no node contains itself and all parents are there, every walk goes to the top. -/
theorem NodeStore.upright_of_contained {store : NodeStore} (acyclic : Acyclic store)
    (contained : ∀ node ∈ store.nodes, ∀ parent, node.parent = some parent →
      store.contains parent = true) : Upright store := by
  intro id node found
  obtain ⟨path, ascends⟩ := acyclic.ascends (some id)
  refine ⟨path, ascends.rooted ?_ ?_⟩
  · intro inner other parent present above
    have member := List.mem_of_find?_eq_some (present : store.node? inner = some other)
    exact Option.isSome_iff_exists.1 (contained other member parent above)
  · rintro _ ⟨⟩
    exact ⟨node, found⟩

theorem Form.Plain.wellPlaced {form : Form} (plain : form.Plain) : WellPlaced form.nodes := by
  refine ⟨NodeStore.upright_of_contained plain.acyclic plain.contained, ?_⟩
  intro id node found
  have member := List.mem_of_find?_eq_some (found : form.nodes.node? id = some node)
  refine ⟨plain.scopes node member, ?_, ?_⟩
  · intro definition isPseudo
    have other := plain.pseudos node member
    rw [isPseudo] at other
    cases other
  · intro collection index isIteration
    have other := plain.iterations node member
    rw [isIteration] at other
    cases other

end FormFlow
