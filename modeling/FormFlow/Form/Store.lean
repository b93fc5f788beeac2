import FormFlow.Form.Source

/-!
# The node store

A store keeps nodes in the order of their insertion, and three indices that are extended
with every insertion: which node contains which, the references, and the identities of the
pseudo-nodes. Identifiers are given out in increasing order from `nextId`. When the last one is
given out, the number wraps around and `nextId` stays where it is, so that it is taken from then on.

Insertion is append-only, so an earlier state is named by its `nextId` alone: `truncate`
goes back to it. Replacing the kind of a node leaves the indices as they are.
-/

set_option autoImplicit false

namespace FormFlow

/-- A store of nodes. -/
structure NodeStore where
  /-- The nodes in insertion order. -/
  nodes : List Node
  /-- Pairs of a parent and its child, in insertion order. -/
  containment : List (NodeId × NodeId)
  /-- The nodes inserted as references, in insertion order. -/
  references : List NodeId
  /-- The nodes inserted as pseudo-nodes with their identities, in insertion order. -/
  identities : List (PseudoKey × NodeId)
  /-- The number of the next identifier. -/
  nextId : Nat
deriving Repr, Inhabited

namespace NodeStore

/-- An empty store whose identifiers start at a number. -/
def startingAt (first : Nat) : NodeStore := ⟨[], [], [], [], first⟩

/-- An empty store. -/
def empty : NodeStore := startingAt 0

/-- The node with an identifier. -/
def node? (store : NodeStore) (id : NodeId) : Option Node :=
  store.nodes.find? fun node => node.id = id

/-- The pseudo-node with an identity. -/
def pseudo? (store : NodeStore) (identity : PseudoKey) : Option NodeId :=
  store.identities.lookup identity

/-- The number of nodes. -/
def size (store : NodeStore) : Nat := store.nodes.length

/-- Whether a store has no nodes. -/
def isEmpty (store : NodeStore) : Bool := store.nodes.isEmpty

/-- Whether there is a node with an identifier. -/
def contains (store : NodeStore) (id : NodeId) : Bool := (store.node? id).isSome

/-- The children of a node, in insertion order. -/
def children (store : NodeStore) (id : NodeId) : List NodeId :=
  (store.containment.filter fun link => link.1 = id).map Prod.snd

/-- The nodes inserted as pseudo-nodes, in insertion order. -/
def pseudoNodes (store : NodeStore) : List NodeId := store.identities.map Prod.snd

/-- Whether a node is a pseudo-node of a kind in a scope. -/
def isPseudoOf (store : NodeStore) (kind : PseudoKind) (scope : NodeId) (id : NodeId) : Bool :=
  match (store.node? id).bind fun node => node.kind.pseudo? with
  | some definition => definition.kind = kind && definition.scope = scope
  | none => false

/-- The pseudo-nodes of a kind in a scope, in insertion order. -/
def pseudoIds (store : NodeStore) (kind : PseudoKind) (scope : NodeId) : List NodeId :=
  store.pseudoNodes.filter (store.isPseudoOf kind scope)

instance : NodeSource NodeStore := ⟨node?, pseudo?, pseudoIds, size⟩

/-- The node with an identifier, which has to be there. -/
def get (store : NodeStore) (id : NodeId) : Except StructureError Node := NodeSource.get store id

/-- Appends a node and extends the indices. -/
def push (store : NodeStore) (node : Node) : NodeStore where
  nodes := store.nodes ++ [node]
  containment := store.containment ++ (node.parent.map fun parent => (parent, node.id)).toList
  references := store.references ++ (if node.kind.isReference then [node.id] else [])
  identities :=
    store.identities ++ (node.kind.pseudo?.map fun p => (p.toPseudoKey, node.id)).toList
  nextId := max store.nextId (node.id.val + 1)

/-- Why a node cannot be inserted: its identifier or its identity is taken. -/
def conflict? (store : NodeStore) (node : Node) : Option StructureError :=
  if store.contains node.id then some (.duplicateNode node.id)
  else do
    let definition ← node.kind.pseudo?
    let existing ← store.pseudo? definition.toPseudoKey
    return .duplicatePseudo definition.toPseudoKey existing

/-- Appends a node and counts on from its identifier. -/
def take (store : NodeStore) (node : Node) (counting : Counting) : NodeStore :=
  { store.push node with nextId := max store.nextId (counting.ahead node.id.val 1) }

/-- Adds a node with an identifier of its own. -/
def addNode (store : NodeStore) (node : Node) (counting : Counting) :
    Except StructureError NodeStore :=
  match store.conflict? node with
  | some error => .error error
  | none => .ok (store.take node counting)

/-- Adds a node with the next identifier. -/
def add (store : NodeStore) (parent : Option NodeId) (kind : NodeKind) (counting : Counting) :
    Except StructureError (NodeStore × NodeId) := do
  let id : NodeId := ⟨store.nextId⟩
  let extended ← store.addNode ⟨id, parent, kind⟩ counting
  return (extended, id)

/-- Finds the pseudo-node with an identity, or creates it under its scope. -/
def findOrCreate (store : NodeStore) (identity : PseudoKey) (origin : Option NodeId)
    (counting : Counting) : Except StructureError (Located NodeStore) :=
  match store.pseudo? identity with
  | some existing => .ok ⟨store, existing, false⟩
  | none => do
    let (extended, id) ← store.add (some identity.scope) (.pseudo ⟨identity, origin⟩) counting
    return ⟨extended, id, true⟩

/-! ## Without an end of identifiers -/

/-- Inserts a node with an identifier of its own. -/
def insertNode (store : NodeStore) (node : Node) : Except StructureError NodeStore :=
  store.addNode node .endless

/-- Inserts a node with the next identifier. -/
def insert (store : NodeStore) (parent : Option NodeId) (kind : NodeKind) :
    Except StructureError (NodeStore × NodeId) :=
  store.add parent kind .endless

/-- Finds the pseudo-node with an identity, or appends it under its scope. As long as the next
identifier is free, `findOrCreate` comes to the same (`Coherent.findOrCreate_eq`). -/
def locate (store : NodeStore) (identity : PseudoKey) (origin : Option NodeId) :
    Located NodeStore :=
  match store.pseudo? identity with
  | some existing => ⟨store, existing, false⟩
  | none =>
    let id : NodeId := ⟨store.nextId⟩
    ⟨store.push ⟨id, some identity.scope, .pseudo ⟨identity, origin⟩⟩, id, true⟩

instance : PseudoSink NodeStore := ⟨findOrCreate, locate⟩

/-! ## Changes -/

/-- Replaces the kind of a node. -/
def setKind (store : NodeStore) (id : NodeId) (kind : NodeKind) :
    Except StructureError NodeStore :=
  if store.contains id then
    .ok { store with
      nodes := store.nodes.map fun node => if node.id = id then { node with kind } else node }
  else .error (.nodeNotFound id)

/-- Removes the nodes at or above a mark and gives out identifiers from the mark on. A mark
that was not reached yet changes nothing. -/
def truncate (store : NodeStore) (mark : Nat) : NodeStore :=
  if store.nextId ≤ mark then store
  else
    { nodes := store.nodes.filter fun node => node.id.val < mark
      containment := store.containment.filter fun link => link.1.val < mark && link.2.val < mark
      references := store.references.filter fun id => id.val < mark
      identities := store.identities.filter fun entry => entry.2.val < mark
      nextId := mark }

/-- Takes nodes off a stack, each with its children put back in its place. -/
def unfold (store : NodeStore) : (fuel : Nat) → List NodeId → List NodeId
  | 0, _ => []
  | _, [] => []
  | fuel + 1, id :: stack => id :: unfold store fuel (store.children id ++ stack)

/-- A node and everything below it, in pre-order. Below the root every node is reached by
one pair of the containment, which bounds the number of steps. -/
def subtree (store : NodeStore) (root : NodeId) : List NodeId :=
  store.unfold (store.containment.length + 1) [root]

/-- The nodes in increasing order of their identifiers. -/
def nodesById (store : NodeStore) : List Node :=
  store.nodes.mergeSort fun first second => first.id.val ≤ second.id.val

/-- The store of a list of nodes, inserted in order, whose next identifier is at least a
number. -/
def ofNodes (nodes : List Node) (nextId : Nat) : Except StructureError NodeStore := do
  let store ← nodes.foldlM insertNode empty
  return { store with nextId := max store.nextId nextId }

/-! ## What an insertion does -/

@[simp]
theorem take_endless (store : NodeStore) (node : Node) : store.take node .endless = store.push node :=
  rfl

/-- Adding a node against which nothing stands appends it. -/
theorem addNode_eq_ok_iff {store extended : NodeStore} {node : Node} {counting : Counting} :
    store.addNode node counting = .ok extended ↔
      store.conflict? node = none ∧ extended = store.take node counting := by
  unfold addNode
  cases store.conflict? node <;> simp [eq_comm]

theorem insertNode_eq_ok_iff {store extended : NodeStore} {node : Node} :
    store.insertNode node = .ok extended ↔
      store.conflict? node = none ∧ extended = store.push node :=
  addNode_eq_ok_iff

/-- The node under an identifier after a node with a new identifier was appended. -/
theorem node?_push {store : NodeStore} {node : Node} (fresh : store.contains node.id = false)
    (id : NodeId) :
    (store.push node).node? id = if node.id = id then some node else store.node? id := by
  by_cases same : node.id = id
  · subst same
    have absent : store.node? node.id = none := by simpa [contains] using fresh
    simp only [node?] at absent
    simp [node?, push, List.find?_append, absent]
  · cases found : store.nodes.find? (fun other => other.id = id) <;>
      simp [node?, push, List.find?_append, found, same]

/-- The children of a node after a node was appended. -/
theorem children_push (store : NodeStore) (node : Node) (id : NodeId) :
    (store.push node).children id =
      store.children id ++ if node.parent = some id then [node.id] else [] := by
  cases parent : node.parent with
  | none => simp [children, push, parent]
  | some outer => by_cases same : outer = id <;> simp [children, push, parent, same]

/-- An identity that has a pseudo-node is found, and nothing is created. -/
theorem locate_of_present {store : NodeStore} {identity : PseudoKey} {id : NodeId}
    (present : store.pseudo? identity = some id) (origin : Option NodeId) :
    store.locate identity origin = ⟨store, id, false⟩ := by
  simp [locate, present]

/-- Looking an identity up, or creating it, makes it present. -/
@[simp]
theorem pseudo?_locate (store : NodeStore) (identity : PseudoKey) (origin : Option NodeId) :
    (store.locate identity origin).nodes.pseudo? identity =
      some (store.locate identity origin).id := by
  cases present : store.pseudo? identity with
  | some id => simp [locate_of_present present, present]
  | none =>
    simp only [pseudo?] at present
    simp [locate, pseudo?, present, push, NodeKind.pseudo?, List.lookup_append]

/-- Going back to where a store is changes nothing. -/
@[simp]
theorem truncate_nextId (store : NodeStore) : store.truncate store.nextId = store := by
  simp [truncate]

end NodeStore

end FormFlow
