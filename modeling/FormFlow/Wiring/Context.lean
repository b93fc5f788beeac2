import FormFlow.Form.ScopeTree
import FormFlow.Wiring.Config
import FormFlow.Wiring.Draft
import FormFlow.Wiring.Membership

/-!
# The context in which a step is wired

A family sees one step at a time: the nodes, the tree of scopes, the members of the step and
the options. From these the context answers the questions that families share, and drafts
the two sorts of connection that they have in common: from a pseudo-node to the references
that read it, and from the load-transition to what it produces.
-/

set_option autoImplicit false

namespace FormFlow

/-- What there is to see while a step is wired. -/
structure WiringContext (σ : Type) where
  nodes : σ
  scopes : ScopeTree
  members : StepMembers
  step : NodeId
  config : WiringConfig

namespace WiringContext

variable {σ : Type} [NodeSource σ]

/-- The node with an identifier, which has to be there. -/
def get (ctx : WiringContext σ) (id : NodeId) : Except WiringError Node :=
  (NodeSource.get ctx.nodes id).mapError .structural

/-- The properties of a node that has to be a pseudo-node. -/
def pseudo (ctx : WiringContext σ) (id : NodeId) : Except WiringError Pseudo := do
  let node ← ctx.get id
  match node.kind.pseudo? with
  | some definition => return definition
  | none => .error (.structural (.unexpectedKind id "pseudo" node.kind.tag))

/-- The pseudo-node of a kind and key in the step. -/
def find? (ctx : WiringContext σ) (kind : PseudoKind) (key : String) : Option NodeId :=
  NodeSource.pseudo? ctx.nodes ⟨kind, ctx.step, key⟩

/-- The pseudo-nodes of a kind in the step. -/
def pseudoIds (ctx : WiringContext σ) (kind : PseudoKind) : List NodeId :=
  NodeSource.pseudoIds ctx.nodes kind ctx.step

/-- Those of some nodes that are references into a namespace. -/
def selecting (ctx : WiringContext σ) (ids : List NodeId) (space : Namespace) :
    List (NodeId × Reference) :=
  ids.filterMap fun id => do
    let node ← NodeSource.node? ctx.nodes id
    let expression ← node.kind.reference?
    if expression.isIn space then some (id, expression) else none

/-- The references of the step into a namespace, outside templates. -/
def references (ctx : WiringContext σ) (space : Namespace) : List (NodeId × Reference) :=
  ctx.selecting ctx.members.references space

/-- The references of the step into a namespace, inside templates. -/
def templateReferences (ctx : WiringContext σ) (space : Namespace) :
    List (NodeId × Reference) :=
  ctx.selecting ctx.members.templateReferences space

/-- What the policy makes of a reference without a lookup key. -/
def withoutKey (ctx : WiringContext σ) (id : NodeId) (expression : Reference) :
    Except WiringError Unit :=
  match ctx.config.malformedReferences with
  | .skip => .ok ()
  | .reject => .error (.malformedReference id expression.path)

/-- The lookup key of a reference into a namespace; without one the policy decides whether
the reference is left out. -/
def keyOf (ctx : WiringContext σ) (space : Namespace) (id : NodeId) (expression : Reference) :
    Except WiringError (Option (NodeId × String)) :=
  match expression.lookupKey? space with
  | some key => .ok (some (id, key))
  | none => do
    ctx.withoutKey id expression
    return none

/-- Whether a reference stands in a field. -/
def enclosingField? (ctx : WiringContext σ) (id : NodeId) : Option Field := do
  let node ← NodeSource.node? ctx.nodes id
  let outer ← NodeSource.enclosingAbove? ctx.nodes node NodeKind.isField
  outer.kind.field?

/-- What the options make of a reference inside a template. They are the same that would
apply to its copies in the iterations. -/
def templateFault? (ctx : WiringContext σ) (id : NodeId) : Option WiringError := do
  let node ← NodeSource.node? ctx.nodes id
  let expression ← node.kind.reference?
  let space ← expression.selected?
  match space with
  | .selfValue =>
    if ctx.config.strictSelfReferences && (ctx.enclosingField? id).isNone then
      some (.selfOutsideField id)
    else none
  | .item => none
  | _ =>
    match ctx.keyOf space id expression with
    | .ok _ => none
    | .error error => some error

/-- Checks the references inside templates. -/
def templateCheck (ctx : WiringContext σ) : Draft :=
  (ctx.members.templateReferences.filterMap ctx.templateFault?).map Except.error

/-- Connects a pseudo-node to references that read it. -/
def feed (_ : WiringContext σ) (family : Family) (pseudo : NodeId) (key : String)
    (space : Namespace) (readers : List NodeId) : Draft :=
  readers.map fun reader => .ok ⟨family, pseudo, reader, .dataFlow, key, .reads space⟩

/-- Connects a producer to a property of a pseudo-node. -/
def fill (_ : WiringContext σ) (family : Family) (producer pseudo : NodeId)
    (key property : String) : Draft :=
  [.ok ⟨family, producer, pseudo, .dataFlow, key, .fills property⟩]

/-- Connects the load-transition that serves the step, if there is one, to a pseudo-node. -/
def load (ctx : WiringContext σ) (family : Family) (pseudo : NodeId) (key : String) : Draft :=
  match ctx.scopes.lastLoadFrom? ctx.step with
  | some transition =>
    [.ok ⟨family, transition, pseudo, .effect, key, .fills Property.onLoad⟩]
  | none => []

/-! ## Batches

A batch is a list of nodes that are new to a form which is wired already. -/

/-- The pseudo-nodes of a kind in a batch. -/
def batchPseudos (ctx : WiringContext σ) (batch : List NodeId) (kind : PseudoKind) :
    Except WiringError (List (NodeId × Pseudo)) := do
  let found ← batch.mapM ctx.get
  return found.filterMap fun node =>
    match node.kind.pseudo? with
    | some definition => if definition.kind = kind then some (node.id, definition) else none
    | none => none

/-- The lookup key of a node, if it is a reference into a namespace. -/
def batchKey (ctx : WiringContext σ) (space : Namespace) (id : NodeId) :
    Except WiringError (Option (NodeId × String)) := do
  let node ← ctx.get id
  match node.kind.reference? with
  | some expression => if expression.isIn space then ctx.keyOf space id expression else return none
  | none => return none

/-- The references of a batch into a namespace with their lookup keys. -/
def batchKeys (ctx : WiringContext σ) (batch : List NodeId) (space : Namespace) :
    Except WiringError (List (NodeId × String)) := do
  let found ← batch.mapM (ctx.batchKey space)
  return found.filterMap id

end WiringContext

end FormFlow
