import FormFlow.Form.Store

/-!
# The members of a step

Wiring a step needs its fields, references and collections. Each belongs to the step above
it. What stands below a collection or an iteration is part of a template: of it only the
references are kept, on a list of their own.
-/

set_option autoImplicit false

namespace FormFlow

namespace NodeSource

variable {σ : Type} [NodeSource σ]

/-- Whether a node stands below a collection or an iteration. -/
def inTemplate (nodes : σ) (node : Node) : Bool := (repeatedAbove? nodes node).isSome

/-- Whether the nearest collection or iteration above a node is a collection, so that the
node belongs to a template which has not been instantiated. -/
def inOpenTemplate (nodes : σ) (node : Node) : Bool :=
  match repeatedAbove? nodes node with
  | some outer => outer.kind.isCollection
  | none => false

/-- Whether a kind of node is wired with each iteration of an open template rather than with
the template: fields, collections, and references other than those to the item. -/
def isDeferred : NodeKind → Bool
  | .field _ => true
  | .collection _ => true
  | .reference expression => !expression.isIn .item
  | _ => false

/-- Whether a node waits for the iterations of an open template. -/
def awaitsIteration (nodes : σ) (node : Node) : Bool :=
  isDeferred node.kind && inOpenTemplate nodes node

end NodeSource

/-- The members of one step. -/
structure StepMembers where
  /-- Fields outside templates. -/
  fields : List NodeId
  /-- References outside templates. -/
  references : List NodeId
  /-- References inside templates. -/
  templateReferences : List NodeId
  /-- Collections outside templates. -/
  collections : List NodeId
deriving DecidableEq, Repr, Inhabited

/-- A step without members. -/
def StepMembers.none : StepMembers := ⟨[], [], [], []⟩

/-- How a node is a member of its step. -/
inductive MemberRole where
  | field
  | reference
  | templateReference
  | collection
deriving DecidableEq, Repr, Inhabited

/-- One node as a member of a step. -/
structure Member where
  step : NodeId
  role : MemberRole
  node : NodeId
deriving DecidableEq, Repr, Inhabited

/-- The members of all steps of a form, in the order of its nodes. -/
structure StepMembership where
  placed : List Member
deriving DecidableEq, Repr, Inhabited

namespace StepMembership

/-- The role of a node, if it is a member of a step at all. -/
def roleOf? (kind : NodeKind) (templated : Bool) : Option MemberRole :=
  match kind, templated with
  | .reference _, true => some .templateReference
  | .reference _, false => some .reference
  | .field _, false => some .field
  | .collection _, false => some .collection
  | _, _ => none

/-- A node as a member of the step above it. -/
def place? (nodes : NodeStore) (node : Node) : Option Member := do
  let role ← roleOf? node.kind (NodeSource.inTemplate nodes node)
  let step ← NodeSource.owningStep? nodes node.id
  return ⟨step, role, node.id⟩

/-- The members of the steps of a form. -/
def build (nodes : NodeStore) : StepMembership := ⟨nodes.nodes.filterMap (place? nodes)⟩

/-- The nodes that belong to a step in a role. -/
def within (membership : StepMembership) (step : NodeId) (role : MemberRole) : List NodeId :=
  (membership.placed.filter fun m => m.step = step && m.role = role).map Member.node

/-- The members of a step. -/
def members (membership : StepMembership) (step : NodeId) : StepMembers where
  fields := membership.within step .field
  references := membership.within step .reference
  templateReferences := membership.within step .templateReference
  collections := membership.within step .collection

end StepMembership

end FormFlow
