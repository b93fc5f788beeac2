import FormFlow.Wiring.Index

/-!
# Keyed sources: submitted values, query, route parameters and data

The four families have one rule. The pseudo-node of a name is read by every reference of the
step with that name in the family's namespace. Data is produced by the load-transition that
serves the step; the other values come with the request and nothing in the graph produces
them.
-/

set_option autoImplicit false

namespace FormFlow

/-- Where the values of a keyed source come from. -/
inductive KeyedProducer where
  /-- From the request. -/
  | external
  /-- From the effects of a load-transition. -/
  | onLoad
deriving DecidableEq, Repr, Inhabited

/-- The name of a producer. -/
def KeyedProducer.text : KeyedProducer → String
  | .external => "External"
  | .onLoad => "OnLoad"

/-- A keyed source. -/
structure KeyedSource where
  family : Family
  kind : PseudoKind
  producer : KeyedProducer
deriving DecidableEq, Repr, Inhabited

namespace KeyedSource

/-- Submitted values. -/
def post : KeyedSource := ⟨.post, .post, .external⟩

/-- Parameters of the query string. -/
def query : KeyedSource := ⟨.query, .query, .external⟩

/-- Parameters of the route. -/
def params : KeyedSource := ⟨.params, .params, .external⟩

/-- Data fetched when a step loads. -/
def data : KeyedSource := ⟨.data, .data, .onLoad⟩

/-- The keyed sources in the order in which they run. -/
def all : List KeyedSource := [post, query, params, data]

variable {σ : Type} [NodeSource σ]

/-- The producers of a pseudo-node. -/
def producers (source : KeyedSource) (ctx : WiringContext σ) (pseudo : NodeId)
    (key : String) : Draft :=
  match source.producer with
  | .external => []
  | .onLoad => ctx.load source.family pseudo key

/-- The connections of one pseudo-node: its producers, then its readers. -/
def node (source : KeyedSource) (ctx : WiringContext σ) (index : ReferenceIndex)
    (id : NodeId) : Draft :=
  Draft.after (ctx.pseudo id) fun definition =>
    source.producers ctx id definition.key ++
      ctx.feed source.family id definition.key source.kind.reads (index.get definition.key)

/-- The connections of a step. -/
def draft (source : KeyedSource) (ctx : WiringContext σ) : Draft :=
  Draft.after (ReferenceIndex.build ctx source.kind.reads) fun index =>
    (ctx.pseudoIds source.kind).flatMap (source.node ctx index)

/-- The connection of one reference of a batch. -/
def reader (source : KeyedSource) (ctx : WiringContext σ) (entry : NodeId × String) : Draft :=
  match ctx.find? source.kind entry.2 with
  | some pseudo => ctx.feed source.family pseudo entry.2 source.kind.reads [entry.1]
  | none => []

/-- The connections of a batch: the producers of its pseudo-nodes, then its references. -/
def draftBatch (source : KeyedSource) (ctx : WiringContext σ) (batch : List NodeId) : Draft :=
  Draft.after (ctx.batchPseudos batch source.kind) fun pseudos =>
    (pseudos.flatMap fun entry => source.producers ctx entry.1 entry.2.key) ++
      Draft.after (ctx.batchKeys batch source.kind.reads) fun keyed =>
        keyed.flatMap (source.reader ctx)

end KeyedSource

end FormFlow
