import FormFlow.Form.Basic
import FormFlow.Proofs.Except
import Mathlib.Data.List.Basic

/-!
# Stores whose indices agree with their nodes

Everything that a store keeps besides its nodes can be read off them: which node contains
which, the references, and the identities of the pseudo-nodes. A store is coherent if that
is so, if no identifier and no identity is taken twice, and if every identifier lies below
the next one (`NodeStore.Coherent`). Lookups in a coherent store are questions about its
nodes (`node?_eq_some_iff`, `pseudo?_eq_some_iff`, `mem_children_iff`).

Every insertion keeps a store coherent, and so does every call that builds a form. A form
that was read from stored nodes or built by calls therefore has a coherent store
(`Form.Built.coherent`).
-/

set_option autoImplicit false

namespace FormFlow

/-- Among pairs with distinct first components, the one that is looked up is the one that is
there. -/
theorem lookup_eq_some_iff_mem {α β : Type} [BEq α] [LawfulBEq α] {pairs : List (α × β)}
    (distinct : (pairs.map Prod.fst).Nodup) {key : α} {value : β} :
    pairs.lookup key = some value ↔ (key, value) ∈ pairs := by
  induction pairs with
  | nil => simp
  | cons pair rest ih =>
    obtain ⟨first, second⟩ := pair
    simp only [List.map_cons, List.nodup_cons] at distinct
    rw [List.lookup_cons]
    by_cases same : key = first
    · subst same
      simp only [beq_self_eq_true, Option.some.injEq, List.mem_cons, Prod.mk.injEq, true_and]
      refine ⟨fun found => .inl found.symm, ?_⟩
      rintro (found | later)
      · exact found.symm
      · exact absurd (List.mem_map.2 ⟨_, later, rfl⟩) distinct.1
    · simp only [beq_eq_false_iff_ne.2 same, List.mem_cons, Prod.mk.injEq, same, false_and,
        false_or]
      exact ih distinct.2

namespace Node

/-- The pair of a node and the node that contains it. -/
def link? (node : Node) : Option (NodeId × NodeId) :=
  node.parent.map fun parent => (parent, node.id)

/-- The identity of a pseudo-node. -/
def identity? (node : Node) : Option PseudoKey := node.kind.pseudo?.map Pseudo.toPseudoKey

/-- The identity of a pseudo-node, with its identifier. -/
def part? (node : Node) : Option (PseudoKey × NodeId) :=
  node.identity?.map fun identity => (identity, node.id)

end Node

namespace NodeKind

theorem collection?_eq_some_iff {kind : NodeKind} {definition : Collection} :
    kind.collection? = some definition ↔ kind = .collection definition := by
  cases kind <;> simp [collection?]

theorem field?_eq_some_iff {kind : NodeKind} {definition : Field} :
    kind.field? = some definition ↔ kind = .field definition := by
  cases kind <;> simp [field?]

theorem reference?_eq_some_iff {kind : NodeKind} {expression : Reference} :
    kind.reference? = some expression ↔ kind = .reference expression := by
  cases kind <;> simp [reference?]

theorem pseudo?_eq_some_iff {kind : NodeKind} {definition : Pseudo} :
    kind.pseudo? = some definition ↔ kind = .pseudo definition := by
  cases kind <;> simp [pseudo?]

end NodeKind

/-- A node that is there is found. -/
theorem NodeSource.get_eq_ok {σ : Type} [NodeSource σ] {nodes : σ} {id : NodeId} {node : Node}
    (found : NodeSource.node? nodes id = some node) : NodeSource.get nodes id = .ok node := by
  rw [NodeSource.get, found]

/-- The error of a node that is not there names it. -/
theorem NodeSource.get_eq_error {σ : Type} [NodeSource σ] {nodes : σ} {id : NodeId}
    (absent : NodeSource.node? nodes id = none) :
    NodeSource.get nodes id = .error (.nodeNotFound id) := by
  rw [NodeSource.get, absent]

/-- A node that has to be there is there. -/
theorem NodeSource.node?_of_get {σ : Type} [NodeSource σ] {nodes : σ} {id : NodeId} {node : Node}
    (found : NodeSource.get nodes id = .ok node) : NodeSource.node? nodes id = some node := by
  simp only [NodeSource.get] at found
  split at found
  · rename_i other present
    cases found
    exact present
  · cases found

namespace NodeStore

/-- A store whose indices are those of its nodes. -/
structure Coherent (store : NodeStore) : Prop where
  below : ∀ node ∈ store.nodes, node.id.val < store.nextId
  nodup : (store.nodes.map Node.id).Nodup
  containment : store.containment = store.nodes.filterMap Node.link?
  references : store.references =
    (store.nodes.filter fun node => node.kind.isReference).map Node.id
  identities : store.identities = store.nodes.filterMap Node.part?
  distinct : (store.nodes.filterMap Node.identity?).Nodup

/-- The identities of a coherent store are in the order of its pseudo-nodes. -/
theorem map_part? (nodes : List Node) :
    (nodes.filterMap Node.part?).map Prod.fst = nodes.filterMap Node.identity? := by
  induction nodes with
  | nil => rfl
  | cons node rest ih =>
    cases identity : node.identity? <;> simp [Node.part?, identity, ← ih]

theorem coherent_startingAt (first : Nat) : (startingAt first).Coherent where
  below := by simp [startingAt]
  nodup := by simp [startingAt]
  containment := rfl
  references := rfl
  identities := rfl
  distinct := by simp [startingAt]

/-! ## Lookups -/

/-- A node is found if no identifier stands twice. -/
theorem node?_of_mem_of_nodup {store : NodeStore} (distinct : (store.nodes.map Node.id).Nodup)
    {node : Node} (member : node ∈ store.nodes) : store.node? node.id = some node := by
  simp only [node?]
  generalize store.nodes = nodes at member distinct ⊢
  induction nodes with
  | nil => cases member
  | cons first rest ih =>
    rw [List.map_cons, List.nodup_cons] at distinct
    rcases List.mem_cons.1 member with rfl | later
    · simp
    · have different : first.id ≠ node.id := fun same =>
        distinct.1 (same ▸ List.mem_map_of_mem later)
      rw [List.find?_cons_of_neg (by simpa using different)]
      exact ih later distinct.2

section Lookups

variable {store : NodeStore} (coherent : store.Coherent)
include coherent

theorem node?_of_mem {node : Node} (member : node ∈ store.nodes) :
    store.node? node.id = some node :=
  node?_of_mem_of_nodup coherent.nodup member

theorem node?_eq_some_iff {id : NodeId} {node : Node} :
    store.node? id = some node ↔ node ∈ store.nodes ∧ node.id = id := by
  constructor
  · intro found
    exact ⟨List.mem_of_find?_eq_some found, by simpa using List.find?_some found⟩
  · rintro ⟨member, rfl⟩
    exact node?_of_mem coherent member

theorem id_of_node? {id : NodeId} {node : Node} (found : store.node? id = some node) :
    node.id = id :=
  ((node?_eq_some_iff coherent).1 found).2

theorem id_lt_nextId {id : NodeId} {node : Node} (found : store.node? id = some node) :
    id.val < store.nextId := by
  obtain ⟨member, rfl⟩ := (node?_eq_some_iff coherent).1 found
  exact coherent.below node member

theorem node?_eq_none_of_le {id : NodeId} (high : store.nextId ≤ id.val) :
    store.node? id = none := by
  cases found : store.node? id with
  | none => rfl
  | some node =>
    have low := id_lt_nextId coherent found
    omega

theorem contains_nextId : store.contains ⟨store.nextId⟩ = false := by
  rw [contains, node?_eq_none_of_le coherent (Nat.le_refl _)]
  rfl

theorem pseudo?_eq_some_iff {identity : PseudoKey} {id : NodeId} :
    store.pseudo? identity = some id ↔
      ∃ node, store.node? id = some node ∧ node.identity? = some identity := by
  have keys : (store.identities.map Prod.fst).Nodup := by
    rw [coherent.identities, map_part?]
    exact coherent.distinct
  rw [pseudo?, lookup_eq_some_iff_mem keys, coherent.identities, List.mem_filterMap]
  constructor
  · rintro ⟨node, member, entry⟩
    rw [Node.part?, Option.map_eq_some_iff] at entry
    obtain ⟨found, isIdentity, same⟩ := entry
    cases same
    exact ⟨node, node?_of_mem coherent member, isIdentity⟩
  · rintro ⟨node, found, isIdentity⟩
    obtain ⟨member, rfl⟩ := (node?_eq_some_iff coherent).1 found
    exact ⟨node, member, by simp [Node.part?, isIdentity]⟩

theorem mem_pseudoIds_iff {kind : PseudoKind} {scope id : NodeId} :
    id ∈ store.pseudoIds kind scope ↔
      ∃ key node, store.node? id = some node ∧ node.identity? = some ⟨kind, scope, key⟩ := by
  rw [pseudoIds, List.mem_filter]
  constructor
  · rintro ⟨_, isOne⟩
    simp only [isPseudoOf] at isOne
    cases found : store.node? id with
    | none => simp [found] at isOne
    | some node =>
      cases definition : node.kind.pseudo? with
      | none => simp [found, definition] at isOne
      | some pseudo =>
        obtain ⟨⟨kind', scope', key⟩, origin⟩ := pseudo
        simp only [found, definition, Option.bind_some, Bool.and_eq_true,
          decide_eq_true_eq] at isOne
        obtain ⟨rfl, rfl⟩ := isOne
        exact ⟨key, node, rfl, by simp [Node.identity?, definition]⟩
  · rintro ⟨key, node, found, identity⟩
    refine ⟨?_, ?_⟩
    · rw [pseudoNodes, coherent.identities, List.mem_map]
      obtain ⟨member, rfl⟩ := (node?_eq_some_iff coherent).1 found
      exact ⟨(⟨kind, scope, key⟩, node.id), List.mem_filterMap.2 ⟨node, member, by
        simp [Node.part?, identity]⟩, rfl⟩
    · rw [Node.identity?, Option.map_eq_some_iff] at identity
      obtain ⟨pseudo, definition, same⟩ := identity
      cases pseudo
      cases same
      simp [isPseudoOf, found, definition]

theorem mem_children_iff {parent id : NodeId} :
    id ∈ store.children parent ↔
      ∃ node, store.node? id = some node ∧ node.parent = some parent := by
  simp only [children, coherent.containment, List.mem_map, List.mem_filter, List.mem_filterMap,
    Node.link?, Option.map_eq_some_iff, decide_eq_true_eq]
  constructor
  · rintro ⟨link, ⟨⟨node, member, outer, contained, rfl⟩, rfl⟩, rfl⟩
    exact ⟨node, node?_of_mem coherent member, contained⟩
  · rintro ⟨node, found, contained⟩
    obtain ⟨member, rfl⟩ := (node?_eq_some_iff coherent).1 found
    exact ⟨_, ⟨⟨node, member, parent, contained, rfl⟩, rfl⟩, rfl⟩

end Lookups

/-! ## Insertions -/

theorem conflict?_eq_none_iff {store : NodeStore} {node : Node} :
    store.conflict? node = none ↔
      store.contains node.id = false ∧
        ∀ identity, node.identity? = some identity → store.pseudo? identity = none := by
  simp only [conflict?, Node.identity?]
  cases taken : store.contains node.id with
  | true => simp
  | false =>
    cases definition : node.kind.pseudo? with
    | none => simp
    | some pseudo => cases found : store.pseudo? pseudo.toPseudoKey <;> simp [found]

theorem Coherent.push {store : NodeStore} (coherent : store.Coherent) {node : Node}
    (free : store.conflict? node = none) : (store.push node).Coherent := by
  obtain ⟨fresh, unused⟩ := conflict?_eq_none_iff.1 free
  have absent : store.node? node.id = none := by simpa [contains] using fresh
  refine
    { below := ?_
      nodup := ?_
      containment := ?_
      references := ?_
      identities := ?_
      distinct := ?_ }
  · intro other member
    rcases List.mem_append.1 member with old | new
    · exact Nat.lt_of_lt_of_le (coherent.below other old) (Nat.le_max_left ..)
    · rw [List.mem_singleton.1 new]
      exact Nat.lt_of_lt_of_le (Nat.lt_succ_self _) (Nat.le_max_right ..)
  · simp only [NodeStore.push, List.map_append, List.map_cons, List.map_nil]
    rw [List.nodup_append]
    refine ⟨coherent.nodup, by simp, ?_⟩
    rintro id old other new rfl
    obtain ⟨found, member, same⟩ := List.mem_map.1 old
    have present := node?_of_mem coherent member
    rw [same, List.mem_singleton.1 new, absent] at present
    cases present
  · cases contained : node.parent <;>
      simp [NodeStore.push, coherent.containment, Node.link?, contained]
  · cases reference : node.kind.isReference <;>
      simp [NodeStore.push, coherent.references, reference]
  · cases definition : node.kind.pseudo? <;>
      simp [NodeStore.push, coherent.identities, Node.part?, Node.identity?, definition]
  · simp only [NodeStore.push, List.filterMap_append]
    rw [List.nodup_append]
    refine ⟨coherent.distinct, ?_, ?_⟩
    · cases identity : node.identity? <;> simp [identity]
    · rintro identity old other new rfl
      obtain ⟨found, member, known⟩ := List.mem_filterMap.1 old
      have taken := (pseudo?_eq_some_iff coherent).2 ⟨found, node?_of_mem coherent member, known⟩
      have own : node.identity? = some identity := by
        obtain ⟨only, single, own⟩ := List.mem_filterMap.1 new
        rw [← List.mem_singleton.1 single]
        exact own
      rw [unused identity own] at taken
      cases taken

theorem Coherent.insertNode {store extended : NodeStore} (coherent : store.Coherent) {node : Node}
    (inserted : store.insertNode node = .ok extended) : extended.Coherent := by
  obtain ⟨free, rfl⟩ := insertNode_eq_ok_iff.1 inserted
  exact coherent.push free

/-- Adding with the next identifier appends a node against which nothing stands. -/
theorem add_eq_ok_iff {store extended : NodeStore} {parent : Option NodeId} {kind : NodeKind}
    {counting : Counting} {id : NodeId} : store.add parent kind counting = .ok (extended, id) ↔
      store.conflict? ⟨⟨store.nextId⟩, parent, kind⟩ = none ∧ id = ⟨store.nextId⟩ ∧
        extended = store.take ⟨⟨store.nextId⟩, parent, kind⟩ counting := by
  rw [add, Except.bind_eq_ok_iff]
  constructor
  · rintro ⟨found, inserted, same⟩
    cases same
    obtain ⟨free, rfl⟩ := addNode_eq_ok_iff.1 inserted
    exact ⟨free, rfl, rfl⟩
  · rintro ⟨free, rfl, rfl⟩
    exact ⟨_, addNode_eq_ok_iff.2 ⟨free, rfl⟩, rfl⟩

theorem insert_eq_ok_iff {store extended : NodeStore} {parent : Option NodeId} {kind : NodeKind}
    {id : NodeId} : store.insert parent kind = .ok (extended, id) ↔
      store.conflict? ⟨⟨store.nextId⟩, parent, kind⟩ = none ∧ id = ⟨store.nextId⟩ ∧
        extended = store.push ⟨⟨store.nextId⟩, parent, kind⟩ :=
  add_eq_ok_iff

theorem locate_of_absent {store : NodeStore} {identity : PseudoKey}
    (absent : store.pseudo? identity = none) (origin : Option NodeId) :
    store.locate identity origin =
      ⟨store.push ⟨⟨store.nextId⟩, some identity.scope, .pseudo ⟨identity, origin⟩⟩,
        ⟨store.nextId⟩, true⟩ := by
  simp [locate, absent]

/-- Nothing stands against the pseudo-node of an identity that has none. -/
theorem Coherent.conflict?_fresh {store : NodeStore} (coherent : store.Coherent)
    {identity : PseudoKey} (absent : store.pseudo? identity = none) (origin : Option NodeId) :
    store.conflict? ⟨⟨store.nextId⟩, some identity.scope, .pseudo ⟨identity, origin⟩⟩ = none := by
  refine conflict?_eq_none_iff.2 ⟨contains_nextId coherent, ?_⟩
  rintro other own
  cases own
  exact absent

theorem Coherent.locate {store : NodeStore} (coherent : store.Coherent) (identity : PseudoKey)
    (origin : Option NodeId) : (store.locate identity origin).nodes.Coherent := by
  cases present : store.pseudo? identity with
  | some id =>
    rw [locate_of_present present]
    exact coherent
  | none =>
    rw [locate_of_absent present]
    exact coherent.push (coherent.conflict?_fresh present origin)

theorem Coherent.raise {store : NodeStore} (coherent : store.Coherent) {nextId : Nat}
    (higher : store.nextId ≤ nextId) : ({ store with nextId } : NodeStore).Coherent :=
  { coherent with below := fun node member =>
      Nat.lt_of_lt_of_le (coherent.below node member) higher }

theorem Coherent.ofFoldlM {nodes : List Node} {start last : NodeStore} (coherent : start.Coherent)
    (run : nodes.foldlM NodeStore.insertNode start = .ok last) : last.Coherent := by
  induction nodes generalizing start with
  | nil =>
    cases run
    exact coherent
  | cons node rest ih =>
    rw [List.foldlM_cons] at run
    cases inserted : start.insertNode node with
    | error error => rw [inserted] at run; cases run
    | ok next =>
      rw [inserted] at run
      exact ih (coherent.insertNode inserted) run

theorem Coherent.ofNodes {nodes : List Node} {nextId : Nat} {store : NodeStore}
    (read : NodeStore.ofNodes nodes nextId = .ok store) : store.Coherent := by
  simp only [NodeStore.ofNodes] at read
  cases run : nodes.foldlM NodeStore.insertNode empty with
  | error error => rw [run] at read; cases read
  | ok last =>
    rw [run] at read
    cases read
    exact (ofFoldlM (coherent_startingAt 0) run).raise (Nat.le_max_left ..)

/-- Replacing a kind keeps a store coherent if the indices do not see the difference. -/
theorem Coherent.setKind {store changed : NodeStore} (coherent : store.Coherent) {id : NodeId}
    {node : Node} {kind : NodeKind} (found : store.node? id = some node)
    (reference : kind.isReference = node.kind.isReference)
    (pseudo : kind.pseudo? = node.kind.pseudo?) (set : store.setKind id kind = .ok changed) :
    changed.Coherent := by
  obtain ⟨_, rfl⟩ := (node?_eq_some_iff coherent).1 found
  simp only [NodeStore.setKind] at set
  split at set
  · cases set
    -- Only the node itself is replaced, and nothing that the indices are made of changes.
    have own : ∀ other ∈ store.nodes, other.id = node.id → other = node := by
      intro other member same
      have present := node?_of_mem coherent member
      rw [same, found] at present
      exact (Option.some.inj present).symm
    have keeps : ∀ {α : Type} (read : Node → α),
        read { node with kind := kind } = read node →
        ∀ other ∈ store.nodes,
          read (if other.id = node.id then { other with kind := kind } else other) =
            read other := by
      intro α read same other member
      by_cases here : other.id = node.id
      · rw [if_pos here, own other member here]
        exact same
      · rw [if_neg here]
    refine
      { below := ?_
        nodup := ?_
        containment := ?_
        references := ?_
        identities := ?_
        distinct := ?_ }
    · intro other member
      obtain ⟨old, oldMember, rfl⟩ := List.mem_map.1 member
      rw [keeps Node.id rfl old oldMember]
      exact coherent.below old oldMember
    · rw [List.map_map, Function.comp_def, List.map_congr_left (keeps Node.id rfl)]
      exact coherent.nodup
    · rw [List.filterMap_map, Function.comp_def, coherent.containment]
      exact (List.filterMap_congr (keeps Node.link? rfl)).symm
    · have same := keeps (fun other => other.kind.isReference) reference
      rw [List.filter_map, List.map_map, Function.comp_def, Function.comp_def,
        coherent.references, List.filter_congr same]
      apply List.map_congr_left
      intro other member
      exact (keeps Node.id rfl other (List.mem_filter.1 member).1).symm
    · rw [List.filterMap_map, Function.comp_def, coherent.identities]
      refine (List.filterMap_congr (keeps Node.part? ?_)).symm
      simp [Node.part?, Node.identity?, pseudo]
    · rw [List.filterMap_map, Function.comp_def, List.filterMap_congr (keeps Node.identity? ?_)]
      · exact coherent.distinct
      · simp [Node.identity?, pseudo]
  · cases set

end NodeStore

end FormFlow
