import FormFlow.Form.Store

/-!
# A store over a store

A request keeps its own nodes in a store that lies over the store of the form. The two are
read as one: of two nodes with one identifier the upper one is seen, of two pseudo-nodes with
one identity the lower one. New pseudo-nodes go into the upper store.
-/

set_option autoImplicit false

namespace FormFlow

/-- A store of nodes over another. -/
structure Layered where
  base : NodeStore
  overlay : NodeStore
deriving Repr, Inhabited

namespace Layered

/-- The node with an identifier. -/
def node? (layers : Layered) (id : NodeId) : Option Node :=
  (layers.overlay.node? id).orElse fun _ => layers.base.node? id

/-- The pseudo-node with an identity. -/
def pseudo? (layers : Layered) (identity : PseudoKey) : Option NodeId :=
  (layers.base.pseudo? identity).orElse fun _ => layers.overlay.pseudo? identity

/-- The pseudo-nodes of a kind in a scope, those of the lower store first. -/
def pseudoIds (layers : Layered) (kind : PseudoKind) (scope : NodeId) : List NodeId :=
  layers.base.pseudoIds kind scope ++ layers.overlay.pseudoIds kind scope

/-- The number of nodes in both stores. -/
def size (layers : Layered) : Nat := layers.base.size + layers.overlay.size

instance : NodeSource Layered := ⟨node?, pseudo?, pseudoIds, size⟩

/-- Finds the pseudo-node with an identity in either store, or creates it in the upper one. -/
def findOrCreate (layers : Layered) (identity : PseudoKey) (origin : Option NodeId)
    (counting : Counting) : Except StructureError (Located Layered) :=
  match layers.base.pseudo? identity with
  | some existing => .ok ⟨layers, existing, false⟩
  | none => do
    let located ← layers.overlay.findOrCreate identity origin counting
    return ⟨{ layers with overlay := located.nodes }, located.id, located.created⟩

/-- What that comes to where the next identifier is free. -/
def locate (layers : Layered) (identity : PseudoKey) (origin : Option NodeId) :
    Located Layered :=
  match layers.base.pseudo? identity with
  | some existing => ⟨layers, existing, false⟩
  | none =>
    let located := layers.overlay.locate identity origin
    ⟨{ layers with overlay := located.nodes }, located.id, located.created⟩

instance : PseudoSink Layered := ⟨findOrCreate, locate⟩

/-- The store that holds a node. -/
def holder (layers : Layered) (id : NodeId) : NodeStore :=
  if layers.overlay.contains id then layers.overlay else layers.base

end Layered

end FormFlow
