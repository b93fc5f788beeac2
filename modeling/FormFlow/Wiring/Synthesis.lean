import FormFlow.Wiring.Family.Item

/-!
# Making pseudo-nodes

Before a step is wired, every source of data that it can read gets its pseudo-node:

- a field gets its submitted value and its local answer;
- a reference to an answer that is not local gets a remote answer, and a reference into
  another keyed namespace gets the pseudo-node that it names;
- a collection or an iteration gets its item.

Pseudo-nodes are looked up before they are made, so doing this twice makes nothing the
second time. References without a lookup key are passed over here.

Making can stop halfway, when a node is not there or the next identifier is taken, and what was
made until then stays (`Synthesis.Stopped`). As long as identifiers last and the nodes are there,
it comes to what `Synthesis.run` says, which has no errors (`Synthesis.make_eq_run`).
-/

set_option autoImplicit false

namespace FormFlow

namespace Synthesis

variable {σ : Type} [PseudoSink σ]

/-- The nodes so far, and the pseudo-nodes made so far. -/
structure State (σ : Type) where
  nodes : σ
  created : List NodeId

/-- A state in which a pseudo-node was looked up or made. -/
def State.extend (state : State σ) (located : Located σ) : State σ :=
  ⟨located.nodes, if located.created then state.created ++ [located.id] else state.created⟩

/-- The nodes at the point where making stopped, and why it did. -/
structure Stopped (σ : Type) where
  nodes : σ
  error : StructureError

/-- The kind of pseudo-node that a reference into a namespace needs, if answers that are
local need none. -/
def kindFor? (nodes : σ) (step : NodeId) (space : Namespace) (key : String) :
    Option PseudoKind :=
  match space with
  | .answers =>
    if (NodeSource.pseudo? nodes ⟨.answerLocal, step, key⟩).isSome then none
    else some .answerRemote
  | .post => some .post
  | .query => some .query
  | .params => some .params
  | .data => some .data
  | .selfValue => none
  | .item => none

/-- A pseudo-node that is needed: its identity, and the node that it would be made for. -/
abbrev Need := PseudoKey × Option NodeId

/-- What a field needs. -/
def fieldNeeds (_ : σ) (step id : NodeId) (kind : NodeKind) : List Need :=
  match kind.field? with
  | some field =>
    [(⟨.post, step, field.code⟩, some id), (⟨.answerLocal, step, field.code⟩, some id)]
  | none => []

/-- What a reference needs. -/
def referenceNeeds (nodes : σ) (step _ : NodeId) (kind : NodeKind) : List Need :=
  let target := do
    let expression ← kind.reference?
    let (space, key) ← expression.keyedTarget?
    let needed ← kindFor? nodes step space key
    return (⟨needed, step, key⟩ : PseudoKey)
  target.toList.map fun identity => (identity, none)

/-- What a collection or an iteration needs. -/
def repeatedNeeds (_ : σ) (step id : NodeId) (kind : NodeKind) : List Need :=
  (Item.keyOfKind? id kind).toList.map fun key => (⟨.item, step, key⟩, some id)

/-- Those of some nodes that do not wait for an iteration and pass a test. -/
def pick (nodes : σ) (batch : List Node) (test : NodeKind → Bool) : List NodeId :=
  (batch.filter fun node => test node.kind && !NodeSource.awaitsIteration nodes node).map Node.id

section

variable (counting : Counting)

/-- Looks a pseudo-node up or makes it. -/
def demand (state : State σ) (need : Need) : Except (Stopped σ) (State σ) :=
  match PseudoSink.findOrCreate state.nodes need.1 need.2 counting with
  | .ok located => .ok (state.extend located)
  | .error error => .error ⟨state.nodes, error⟩

/-- Makes what a node needs, which has to be there. -/
def serve (needs : σ → (step id : NodeId) → NodeKind → List Need) (step : NodeId)
    (state : State σ) (id : NodeId) : Except (Stopped σ) (State σ) := do
  let node ← (NodeSource.get state.nodes id).mapError (Stopped.mk state.nodes)
  (needs state.nodes step id node.kind).foldlM (demand counting) state

/-- Makes what fields, references, and collections or iterations of a step need. -/
def make (nodes : σ) (step : NodeId) (fields references repeated : List NodeId) :
    Except (Stopped σ) (State σ) := do
  let withFields ← fields.foldlM (serve counting fieldNeeds step) ⟨nodes, []⟩
  let withReferences ← references.foldlM (serve counting referenceNeeds step) withFields
  repeated.foldlM (serve counting repeatedNeeds step) withReferences

/-- Makes what the members of a step need. -/
def makeStep (nodes : σ) (step : NodeId) (members : StepMembers) : Except (Stopped σ) (State σ) :=
  make counting nodes step members.fields members.references members.collections

/-- Makes what the nodes of a batch need; nodes that wait for an iteration need nothing yet. -/
def makeBatch (nodes : σ) (step : NodeId) (batch : List NodeId) :
    Except (Stopped σ) (State σ) := do
  let found ← (batch.mapM (NodeSource.get nodes)).mapError (Stopped.mk nodes)
  make counting nodes step (pick nodes found NodeKind.isField)
    (pick nodes found NodeKind.isReference) (pick nodes found NodeKind.isRepeated)

end

/-! ## While identifiers last -/

/-- Looks a pseudo-node up or makes it. -/
def want (state : State σ) (identity : PseudoKey) (origin : Option NodeId) : State σ :=
  let located := PseudoSink.locate state.nodes identity origin
  ⟨located.nodes, if located.created then state.created ++ [located.id] else state.created⟩

/-- What a field needs. -/
def ofField (step : NodeId) (state : State σ) (id : NodeId) : State σ :=
  match (NodeSource.node? state.nodes id).bind fun node => node.kind.field? with
  | some field =>
    want (want state ⟨.post, step, field.code⟩ (some id)) ⟨.answerLocal, step, field.code⟩
      (some id)
  | none => state

/-- What a reference needs. -/
def ofReference (step : NodeId) (state : State σ) (id : NodeId) : State σ :=
  let target := do
    let node ← NodeSource.node? state.nodes id
    let expression ← node.kind.reference?
    let (space, key) ← expression.keyedTarget?
    let kind ← kindFor? state.nodes step space key
    return (⟨kind, step, key⟩ : PseudoKey)
  match target with
  | some identity => want state identity none
  | none => state

/-- What a collection or an iteration needs. -/
def ofRepeated (step : NodeId) (state : State σ) (id : NodeId) : State σ :=
  match (NodeSource.node? state.nodes id).bind fun node => Item.keyOfKind? id node.kind with
  | some key => want state ⟨.item, step, key⟩ (some id)
  | none => state

/-- Makes what fields, references, and collections or iterations of a step need. -/
def run (nodes : σ) (step : NodeId) (fields references repeated : List NodeId) : State σ :=
  let start : State σ := ⟨nodes, []⟩
  let withFields := fields.foldl (ofField step) start
  let withReferences := references.foldl (ofReference step) withFields
  repeated.foldl (ofRepeated step) withReferences

/-- Makes what the members of a step need. -/
def runStep (nodes : σ) (step : NodeId) (members : StepMembers) : State σ :=
  run nodes step members.fields members.references members.collections

/-- Makes what the nodes of a batch need; nodes that wait for an iteration need nothing yet. -/
def runBatch (nodes : σ) (step : NodeId) (batch : List NodeId) :
    Except StructureError (State σ) := do
  let found ← batch.mapM (NodeSource.get nodes)
  return run nodes step (pick nodes found NodeKind.isField)
    (pick nodes found NodeKind.isReference) (pick nodes found NodeKind.isRepeated)

end Synthesis

end FormFlow
