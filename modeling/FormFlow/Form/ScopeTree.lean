import FormFlow.Form.Store

/-!
# The tree of journeys and steps

The scopes of a form are its journeys and steps. `ScopeTree.build` records, for each scope,
the scope around it and the load-transitions that belong to it: those whose nearest scope it
is. A load-transition outside every scope is an error.

`lastLoadFrom?` looks for the load-transition that serves a step: the first scope on the way
up that has any gives its last one.
-/

set_option autoImplicit false

namespace FormFlow

/-- A journey or step in the tree of scopes. -/
structure ScopeEntry where
  id : NodeId
  isStep : Bool
  /-- The scope around it. -/
  parent : Option NodeId
  /-- The load-transitions that belong to it, in declared order. -/
  onLoad : List NodeId
deriving DecidableEq, Repr, Inhabited

/-- The scopes of a form in declared order. -/
structure ScopeTree where
  entries : List ScopeEntry
deriving DecidableEq, Repr, Inhabited

namespace ScopeTree

/-- The nearest journey or step strictly above a node. -/
def scopeAbove? (nodes : NodeStore) (node : Node) : Option NodeId :=
  (NodeSource.enclosingAbove? nodes node NodeKind.isScope).map Node.id

/-- The load-transitions of a form. -/
def loadTransitions (nodes : NodeStore) : List Node :=
  nodes.nodes.filter fun node => node.kind.isLoadTransition

/-- The entry of a node, if it is a scope. -/
def entryOf? (nodes : NodeStore) (node : Node) : Option ScopeEntry :=
  if node.kind.isScope then
    some {
      id := node.id
      isStep := node.kind.isStep
      parent := scopeAbove? nodes node
      onLoad := ((loadTransitions nodes).filter fun load =>
        scopeAbove? nodes load = some node.id).map Node.id }
  else none

/-- Derives the tree of scopes. -/
def build (nodes : NodeStore) : Except StructureError ScopeTree :=
  match (loadTransitions nodes).find? fun load => (scopeAbove? nodes load).isNone with
  | some load => .error (.notAScope load.id)
  | none => .ok ⟨nodes.nodes.filterMap (entryOf? nodes)⟩

/-- The steps in declared order. -/
def steps (tree : ScopeTree) : List NodeId :=
  (tree.entries.filter ScopeEntry.isStep).map ScopeEntry.id

/-- The entry of a scope. -/
def get? (tree : ScopeTree) (id : NodeId) : Option ScopeEntry :=
  tree.entries.find? fun entry => entry.id = id

/-- Whether a node is a step. -/
def isStep (tree : ScopeTree) (id : NodeId) : Bool :=
  match tree.get? id with
  | some entry => entry.isStep
  | none => false

/-- The scopes met on the way up, at most `fuel` of them. -/
def climb (tree : ScopeTree) : (fuel : Nat) → Option NodeId → List ScopeEntry
  | 0, _ => []
  | _, none => []
  | fuel + 1, some id =>
    match tree.get? id with
    | some entry => entry :: climb tree fuel entry.parent
    | none => []

/-- A scope and the scopes around it, innermost first. -/
def ancestors (tree : ScopeTree) (id : NodeId) : List ScopeEntry :=
  tree.climb tree.entries.length (some id)

/-- The last load-transition of the first scope at or above `step` that has one. -/
def lastLoadFrom? (tree : ScopeTree) (step : NodeId) : Option NodeId :=
  (tree.ancestors step).findSome? fun entry => entry.onLoad.getLast?

end ScopeTree

end FormFlow
