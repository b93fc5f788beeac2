import FormFlow.Wiring.Family.Answer
import FormFlow.Wiring.Family.Item
import FormFlow.Wiring.Family.Keyed
import FormFlow.Wiring.Family.SelfValue

/-!
# Passes of wiring

A pass over a form drafts, step by step, the check of the step's template references and
then every family in order. A pass over a batch of new nodes drafts every family for each
step that the batch touches. Applying the draft to a graph gives the pass its outcome, from
which the report is counted.
-/

set_option autoImplicit false

namespace FormFlow

namespace Family

variable {σ : Type} [NodeSource σ]

/-- The connections of a family for a step. -/
def draft (family : Family) (ctx : WiringContext σ) : Draft :=
  match family with
  | .post => KeyedSource.post.draft ctx
  | .query => KeyedSource.query.draft ctx
  | .params => KeyedSource.params.draft ctx
  | .data => KeyedSource.data.draft ctx
  | .answer => Answer.draft ctx
  | .selfValue => SelfValue.draft ctx
  | .item => Item.draft ctx

/-- The connections of a family for a batch. -/
def draftBatch (family : Family) (ctx : WiringContext σ) (batch : List NodeId) : Draft :=
  match family with
  | .post => KeyedSource.post.draftBatch ctx batch
  | .query => KeyedSource.query.draftBatch ctx batch
  | .params => KeyedSource.params.draftBatch ctx batch
  | .data => KeyedSource.data.draftBatch ctx batch
  | .answer => Answer.draftBatch ctx batch
  | .selfValue => SelfValue.draftBatch ctx batch
  | .item => Item.draftBatch ctx batch

end Family

/-- What a pass did. -/
structure WiringReport where
  steps : Nat
  pseudoNodes : Nat
  /-- The new connections of each family that ran, in the order in which they run. -/
  families : List (Family × WireStats)
deriving DecidableEq, Repr, Inhabited

namespace WiringReport

/-- The report of a pass over a number of steps. Families run only if there is a step. -/
def ofConnections (steps : Nat) (added : List Connection) : WiringReport where
  steps := steps
  pseudoNodes := 0
  families :=
    if steps = 0 then []
    else Family.all.map fun family =>
      (family, WireStats.ofConnections (added.filter fun c => c.family = family))

/-- The number of new connections. -/
def edges (report : WiringReport) : Nat :=
  (report.families.map fun entry => entry.2.total).foldl (· + ·) 0

end WiringReport

/-- The result of a pass: the graph with everything that was added, and the report unless the
pass failed. -/
structure PassResult where
  graph : DependencyGraph
  report : Except WiringError WiringReport
deriving Inhabited

namespace PassResult

/-- The result of applying a draft for a number of steps. -/
def ofDraft (steps : Nat) (draft : Draft) (graph : DependencyGraph) : PassResult :=
  let outcome := draft.applyTo graph
  match outcome.failure with
  | none => ⟨outcome.graph, .ok (.ofConnections steps outcome.added)⟩
  | some error => ⟨outcome.graph, .error error⟩

end PassResult

namespace Pass

variable {σ : Type} [NodeSource σ]

/-- The draft of one step. -/
def stepDraft (ctx : WiringContext σ) : Draft :=
  ctx.templateCheck ++ Family.all.flatMap fun family => family.draft ctx

/-- The draft of a whole form. -/
def formDraft (nodes : σ) (scopes : ScopeTree) (membership : StepMembership)
    (config : WiringConfig) : Draft :=
  scopes.steps.flatMap fun step =>
    stepDraft ⟨nodes, scopes, membership.members step, step, config⟩

/-- Wires every step of a form. -/
def wireAll (nodes : σ) (scopes : ScopeTree) (membership : StepMembership)
    (config : WiringConfig) (graph : DependencyGraph) : PassResult :=
  .ofDraft scopes.steps.length (formDraft nodes scopes membership config) graph

/-- The step of a node in a batch, which has to be known. -/
def knownStep (nodes : σ) (scopes : ScopeTree) (id : NodeId) :
    Except WiringError (NodeId × NodeId) := do
  let _ ← (NodeSource.get nodes id).mapError WiringError.structural
  match NodeSource.owningStep? nodes id with
  | some step => if scopes.isStep step then return (step, id) else .error (.unknownStep id)
  | none => .error (.unknownStep id)

/-- Adds a node to the group of its step. -/
def addToGroup (groups : List (NodeId × List NodeId)) (entry : NodeId × NodeId) :
    List (NodeId × List NodeId) :=
  match groups with
  | [] => [(entry.1, [entry.2])]
  | (step, ids) :: rest =>
    if step = entry.1 then (step, ids ++ [entry.2]) :: rest
    else (step, ids) :: addToGroup rest entry

/-- Groups a batch by step, steps in the order of their first node. -/
def groupByStep (nodes : σ) (scopes : ScopeTree) (batch : List NodeId) :
    Except WiringError (List (NodeId × List NodeId)) := do
  let placed ← batch.mapM (knownStep nodes scopes)
  return placed.foldl addToGroup []

/-- Whether a node of a batch is wired with it: all but those that wait for an iteration. -/
def isReady (nodes : σ) (id : NodeId) : Bool :=
  match NodeSource.node? nodes id with
  | some node => !NodeSource.awaitsIteration nodes node
  | none => true

/-- The draft of the nodes of a batch in one step. -/
def groupDraft (nodes : σ) (scopes : ScopeTree) (config : WiringConfig)
    (group : NodeId × List NodeId) : Draft :=
  Family.all.flatMap fun family =>
    family.draftBatch ⟨nodes, scopes, .none, group.1, config⟩ group.2

/-- Wires a batch of new nodes. -/
def wireNodes (nodes : σ) (scopes : ScopeTree) (config : WiringConfig) (batch : List NodeId)
    (graph : DependencyGraph) : PassResult :=
  match groupByStep nodes scopes (batch.filter (isReady nodes)) with
  | .error error => ⟨graph, .error error⟩
  | .ok groups =>
    .ofDraft groups.length (groups.flatMap (groupDraft nodes scopes config)) graph

end Pass

end FormFlow
