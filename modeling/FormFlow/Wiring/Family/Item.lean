import FormFlow.Wiring.Index

/-!
# The items of collections

Each collection has an item, and each of its iterations has one of its own. The source of
the collection produces it. It is read by the references in the namespace `@item` whose
nearest collection or iteration is the one that the item belongs to.
-/

set_option autoImplicit false

namespace FormFlow

namespace Item

variable {σ : Type} [NodeSource σ]

/-- The key of the item that belongs to a node, if the node repeats what it contains. -/
def keyOfKind? (id : NodeId) : NodeKind → Option String
  | .collection _ => some (itemKey id none)
  | .iteration collection index => some (itemKey collection (some index))
  | _ => none

/-- The key of the item that a reference at `id` reads. -/
def scopeKey? (nodes : σ) (id : NodeId) : Option String := do
  let node ← NodeSource.node? nodes id
  let scope ← NodeSource.repeatedAbove? nodes node
  keyOfKind? scope.id scope.kind

/-- The collection that an item was made for, and the index of the iteration if it was made
for one. -/
def collectionOf (ctx : WiringContext σ) (id : NodeId) (definition : Pseudo) :
    Except WiringError (NodeId × Option Nat) :=
  match definition.origin with
  | none => .error (.missingOrigin id)
  | some origin =>
    match NodeSource.node? ctx.nodes origin with
    | none => .error (.structural (.originMissing id origin))
    | some node =>
      match node.kind with
      | .collection _ => .ok (origin, none)
      | .iteration collection index => .ok (collection, some index)
      | other => .error (.structural (.unexpectedKind origin "collection" other.tag))

/-- The definition of a collection. -/
def definitionOf (ctx : WiringContext σ) (id : NodeId) : Except WiringError Collection := do
  let node ← ctx.get id
  match node.kind.collection? with
  | some definition => return definition
  | none => .error (.structural (.unexpectedKind id "collection" node.kind.tag))

/-- The property that the source of a collection fills. -/
def property : Option Nat → String
  | some index => Property.item index
  | none => Property.source

/-- The producer of an item. -/
def producer (ctx : WiringContext σ) (id : NodeId) (definition : Pseudo) : Draft :=
  Draft.after (collectionOf ctx id definition) fun (collection, index) =>
    Draft.after (definitionOf ctx collection) fun found =>
      match found.source with
      | some source => ctx.fill .item source id found.code (property index)
      | none => []

/-- The references to items inside the templates of a step, by the key of the item. -/
def index (ctx : WiringContext σ) : ReferenceIndex :=
  .ofKeys ((ctx.templateReferences .item).filterMap fun entry =>
    (scopeKey? ctx.nodes entry.1).map fun key => (entry.1, key))

/-- The connections of one item: its producer, then its readers. -/
def node (ctx : WiringContext σ) (readers : ReferenceIndex) (id : NodeId) : Draft :=
  Draft.after (ctx.pseudo id) fun definition =>
    producer ctx id definition ++
      ctx.feed .item id definition.key .item (readers.get definition.key)

/-- The connections of a step. -/
def draft (ctx : WiringContext σ) : Draft :=
  (ctx.pseudoIds .item).flatMap (node ctx (index ctx))

/-- The connection of one reference to an item. -/
def reader (ctx : WiringContext σ) (reference : NodeId) : Draft :=
  match scopeKey? ctx.nodes reference with
  | none => []
  | some key =>
    match ctx.find? .item key with
    | some item => ctx.feed .item item key .item [reference]
    | none => []

/-- The connection of one node of a batch, if it is such a reference. -/
def batchNode (ctx : WiringContext σ) (id : NodeId) : Draft :=
  Draft.after (ctx.get id) fun node =>
    match node.kind.reference? with
    | some expression => if expression.isIn .item then reader ctx id else []
    | none => []

/-- The connections of a batch: the producers of its items, then its references. -/
def draftBatch (ctx : WiringContext σ) (batch : List NodeId) : Draft :=
  Draft.after (ctx.batchPseudos batch .item) fun items =>
    (items.flatMap fun entry => producer ctx entry.1 entry.2) ++
      batch.flatMap (batchNode ctx)

end Item

end FormFlow
