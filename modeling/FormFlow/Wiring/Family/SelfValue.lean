import FormFlow.Wiring.Context

/-!
# References to the enclosing field

A reference in the namespace `@self` reads the answer of the field that it stands in. There
is no pseudo-node of its own for that: the reference becomes a reader of the local answer.
-/

set_option autoImplicit false

namespace FormFlow

namespace SelfValue

variable {σ : Type} [NodeSource σ]

/-- The connection of one reference. Outside every field it is left out or an error, as the
options say. -/
def reader (ctx : WiringContext σ) (reference : NodeId) : Draft :=
  match ctx.enclosingField? reference with
  | none =>
    if ctx.config.strictSelfReferences then [.error (.selfOutsideField reference)] else []
  | some field =>
    match ctx.find? .answerLocal field.code with
    | some answer => ctx.feed .selfValue answer field.code .selfValue [reference]
    | none => []

/-- The connections of a step. -/
def draft (ctx : WiringContext σ) : Draft :=
  (ctx.references .selfValue).flatMap fun entry => reader ctx entry.1

/-- The connection of one node of a batch, if it is such a reference. -/
def batchNode (ctx : WiringContext σ) (id : NodeId) : Draft :=
  Draft.after (ctx.get id) fun node =>
    match node.kind.reference? with
    | some expression => if expression.isIn .selfValue then reader ctx id else []
    | none => []

/-- The connections of a batch. -/
def draftBatch (ctx : WiringContext σ) (batch : List NodeId) : Draft :=
  batch.flatMap (batchNode ctx)

end SelfValue

end FormFlow
