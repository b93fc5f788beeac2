import FormFlow.Wiring.Index

/-!
# Answers

A local answer belongs to a field of the step. What can produce its value is connected in
this order: the submitted value, each formatter of the field in declared order, the default
value, and the load-transition that serves the step. A remote answer belongs to a field of
another step, and only the load-transition can produce it.

References to an answer read the local one if there is one, and the remote one otherwise.
-/

set_option autoImplicit false

namespace FormFlow

namespace Answer

variable {σ : Type} [NodeSource σ]

/-- The field that a local answer was made for. -/
def originField (ctx : WiringContext σ) (id : NodeId) (definition : Pseudo) :
    Except WiringError Field :=
  match definition.origin with
  | none => .error (.missingOrigin id)
  | some origin =>
    match NodeSource.node? ctx.nodes origin with
    | none => .error (.structural (.originMissing id origin))
    | some node =>
      match node.kind.field? with
      | some field => .ok field
      | none => .error (.structural (.unexpectedKind origin "field" node.kind.tag))

/-- The formatters of a field from a position on, each as the property of its position. -/
def formatters (ctx : WiringContext σ) (id : NodeId) (code : String) :
    (position : Nat) → List NodeId → Draft
  | _, [] => []
  | position, formatter :: rest =>
    ctx.fill .answer formatter id code (Property.formatter position) ++
      formatters ctx id code (position + 1) rest

/-- The producers that a local answer has through its field. -/
def fieldProducers (ctx : WiringContext σ) (id : NodeId) (code : String) (field : Field) :
    Draft :=
  (match ctx.find? .post code with
    | some submitted => ctx.fill .answer submitted id code Property.post
    | none => []) ++
  formatters ctx id code 0 field.formatters ++
  (match field.defaultValue with
    | some expression => ctx.fill .answer expression id code Property.defaultValue
    | none => []) ++
  ctx.load .answer id code

/-- The producers of a local answer. -/
def localProducers (ctx : WiringContext σ) (id : NodeId) (definition : Pseudo) : Draft :=
  Draft.after (originField ctx id definition) (fieldProducers ctx id definition.key)

/-- The connections of a local answer of the step. -/
def localNode (ctx : WiringContext σ) (index : ReferenceIndex) (id : NodeId) : Draft :=
  Draft.after (ctx.pseudo id) fun definition =>
    localProducers ctx id definition ++
      ctx.feed .answer id definition.key .answers (index.get definition.key)

/-- The connections of a remote answer of the step. -/
def remoteNode (ctx : WiringContext σ) (index : ReferenceIndex) (id : NodeId) : Draft :=
  Draft.after (ctx.pseudo id) fun definition =>
    ctx.load .answer id definition.key ++
      (if (ctx.find? .answerLocal definition.key).isSome then []
        else ctx.feed .answer id definition.key .answers (index.get definition.key))

/-- The connections of a step. -/
def draft (ctx : WiringContext σ) : Draft :=
  Draft.after (ReferenceIndex.build ctx .answers) fun index =>
    (ctx.pseudoIds .answerLocal).flatMap (localNode ctx index) ++
      (ctx.pseudoIds .answerRemote).flatMap (remoteNode ctx index)

/-- The answer that a reference with a code reads. -/
def target? (ctx : WiringContext σ) (code : String) : Option NodeId :=
  (ctx.find? .answerLocal code).orElse fun _ => ctx.find? .answerRemote code

/-- The connection of one reference of a batch. -/
def reader (ctx : WiringContext σ) (entry : NodeId × String) : Draft :=
  match target? ctx entry.2 with
  | some answer => ctx.feed .answer answer entry.2 .answers [entry.1]
  | none => []

/-- The connections of a batch: the producers of its answers, then its references. -/
def draftBatch (ctx : WiringContext σ) (batch : List NodeId) : Draft :=
  Draft.after (ctx.batchPseudos batch .answerLocal) fun locals =>
    (locals.flatMap fun entry => localProducers ctx entry.1 entry.2) ++
      Draft.after (ctx.batchPseudos batch .answerRemote) fun remotes =>
        (remotes.flatMap fun entry => ctx.load .answer entry.1 entry.2.key) ++
          Draft.after (ctx.batchKeys batch .answers) fun keyed => keyed.flatMap (reader ctx)

end Answer

end FormFlow
