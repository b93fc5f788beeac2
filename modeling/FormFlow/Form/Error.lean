import FormFlow.Form.Pseudo

/-!
# What can be wrong with a node tree

Each cause says which nodes are concerned; `StructureError.message` words it.
-/

set_option autoImplicit false

namespace FormFlow

/-- A node tree that does not hold together. -/
inductive StructureError where
  /-- No node has this identifier. -/
  | nodeNotFound (id : NodeId)
  /-- A pseudo-node was made for a node that is not there. -/
  | originMissing (pseudo origin : NodeId)
  /-- A node is not of the kind that its place asks for. -/
  | unexpectedKind (id : NodeId) (expected actual : String)
  /-- A node that belongs in a step or journey is in none. -/
  | notAScope (id : NodeId)
  /-- Two nodes have one identifier. -/
  | duplicateNode (id : NodeId)
  /-- Two pseudo-nodes have one identity. -/
  | duplicatePseudo (identity : PseudoKey) (existing : NodeId)
  /-- The dependencies form a cycle. -/
  | cycle (node : NodeId)
deriving DecidableEq, Repr, Inhabited

/-- The wording of a cause. -/
def StructureError.message : StructureError → String
  | .nodeNotFound id => "node not found: NodeId(" ++ id.text ++ ")"
  | .originMissing pseudo origin =>
    "pseudo-node " ++ pseudo.text ++ " references missing originating node " ++ origin.text
  | .unexpectedKind id expected actual =>
    "node " ++ id.text ++ " is a " ++ actual ++ ", expected " ++ expected
  | .notAScope id => "node " ++ id.text ++ " is not contained in any step or journey"
  | .duplicateNode id => "duplicate node id: " ++ id.text
  | .duplicatePseudo identity existing =>
    "duplicate pseudo-node " ++ identity.text ++ ": already present as " ++ existing.text
  | .cycle node => "dependency cycle detected through node " ++ node.text

end FormFlow
