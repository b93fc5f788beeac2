import FormFlow.Form.Error
import FormFlow.Form.Node

/-!
# Reading nodes from one store or several

Wiring reads nodes through `NodeSource`, so that the same rules serve the store of a form
and a request whose own nodes lie over a shared form. All walks towards the top of the tree
are one list, `lineage`: a node, the node that contains it, and so on. It ends at the top or
at a parent that is not there; the number of nodes bounds it. If nodes contain each other in a
cycle there is no such end, and what the list says of them means nothing.
-/

set_option autoImplicit false

namespace FormFlow

/-- Read access to nodes. -/
class NodeSource (σ : Type) where
  /-- The node with an identifier. -/
  node? : σ → NodeId → Option Node
  /-- The pseudo-node with an identity. -/
  pseudo? : σ → PseudoKey → Option NodeId
  /-- The pseudo-nodes of a kind in a scope, in order of creation. -/
  pseudoIds : σ → PseudoKind → NodeId → List NodeId
  /-- A bound on the number of nodes. -/
  size : σ → Nat

/-- The outcome of looking a pseudo-node up or creating it. -/
structure Located (σ : Type) where
  nodes : σ
  id : NodeId
  created : Bool

/-- A source in which pseudo-nodes can be created. -/
class PseudoSink (σ : Type) extends NodeSource σ where
  /-- Finds the pseudo-node with an identity, or creates it with an origin. One that is there
  keeps its own origin. None can be created if the next identifier is taken. -/
  findOrCreate : σ → PseudoKey → (origin : Option NodeId) → Counting →
    Except StructureError (Located σ)
  /-- What that comes to where the next identifier is free. -/
  locate : σ → PseudoKey → (origin : Option NodeId) → Located σ

namespace NodeSource

variable {σ : Type} [NodeSource σ]

/-- The node with an identifier, which has to be there. -/
def get (nodes : σ) (id : NodeId) : Except StructureError Node :=
  match node? nodes id with
  | some node => .ok node
  | none => .error (.nodeNotFound id)

/-- The node that contains a node. -/
def parent? (nodes : σ) (id : NodeId) : Option NodeId := (node? nodes id).bind Node.parent

/-- The nodes met on the way up, at most `fuel` of them. -/
def climb (nodes : σ) : (fuel : Nat) → Option NodeId → List Node
  | 0, _ => []
  | _, none => []
  | fuel + 1, some id =>
    match node? nodes id with
    | some node => node :: climb nodes fuel node.parent
    | none => []

/-- A node and the nodes that contain it, innermost first. -/
def lineage (nodes : σ) (id : NodeId) : List Node := climb nodes (size nodes) (some id)

/-- The nodes that contain a node, innermost first. -/
def above (nodes : σ) (node : Node) : List Node := climb nodes (size nodes) node.parent

/-- The nearest node at or above `id` that satisfies a test. -/
def enclosing? (nodes : σ) (id : NodeId) (test : NodeKind → Bool) : Option Node :=
  (lineage nodes id).find? fun node => test node.kind

/-- The nearest node strictly above a node that satisfies a test. -/
def enclosingAbove? (nodes : σ) (node : Node) (test : NodeKind → Bool) : Option Node :=
  (above nodes node).find? fun outer => test outer.kind

/-- The nearest collection or iteration strictly above a node. -/
def repeatedAbove? (nodes : σ) (node : Node) : Option Node :=
  enclosingAbove? nodes node NodeKind.isRepeated

/-- The step that a node belongs to. A pseudo-node belongs to its scope. -/
def owningStep? (nodes : σ) (id : NodeId) : Option NodeId :=
  match (node? nodes id).bind fun node => node.kind.pseudo? with
  | some definition => some definition.scope
  | none => (enclosing? nodes id NodeKind.isStep).map Node.id

end NodeSource

end FormFlow
