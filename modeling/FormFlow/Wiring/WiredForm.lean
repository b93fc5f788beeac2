import FormFlow.Form.Basic
import FormFlow.Wiring.Pass
import FormFlow.Wiring.Synthesis

/-!
# Wired forms

`WiredForm.wire` makes the pseudo-nodes of every step and then wires every step. The tree of
scopes and the members of the steps are those of the form before pseudo-nodes are made.
-/

set_option autoImplicit false

namespace FormFlow

/-- A form with its pseudo-nodes and dependencies. -/
structure WiredForm where
  form : Form
  scopes : ScopeTree
  membership : StepMembership
  graph : DependencyGraph
  config : WiringConfig
  report : WiringReport
deriving Inhabited

namespace WiredForm

/-- Makes the pseudo-nodes of some steps and counts them. -/
def supply (counting : Counting) (membership : StepMembership) :
    List NodeId → NodeStore → Nat → Except StructureError (NodeStore × Nat)
  | [], nodes, count => .ok (nodes, count)
  | step :: rest, nodes, count => do
    let made ← (Synthesis.makeStep counting nodes step (membership.members step)).mapError
      Synthesis.Stopped.error
    supply counting membership rest made.nodes (count + made.created.length)

/-- The same while identifiers last. -/
def synthesize (membership : StepMembership) :
    List NodeId → NodeStore → Nat → NodeStore × Nat
  | [], nodes, count => (nodes, count)
  | step :: rest, nodes, count =>
    let made := Synthesis.runStep nodes step (membership.members step)
    synthesize membership rest made.nodes (count + made.created.length)

/-- Makes the pseudo-nodes of a form and wires it. -/
def wire (form : Form) (config : WiringConfig) (counting : Counting := .endless) :
    Except WiringError WiredForm := do
  let scopes ← (ScopeTree.build form.nodes).mapError WiringError.structural
  let membership := StepMembership.build form.nodes
  let (nodes, count) ← (supply counting membership scopes.steps form.nodes 0).mapError
    WiringError.structural
  let pass := Pass.wireAll nodes scopes membership config .empty
  let report ← pass.report
  return {
    form := { form with nodes }
    scopes := scopes
    membership := membership
    graph := pass.graph
    config := config
    report := { report with pseudoNodes := count } }

/-- Wires every step again. -/
def rewire (wired : WiredForm) : PassResult :=
  Pass.wireAll wired.form.nodes wired.scopes wired.membership wired.config wired.graph

/-- The first number above the identifiers of the nodes. -/
def nodeMark (wired : WiredForm) : Nat := wired.form.nodes.nextId

/-- The first number above the identifiers of the edges. -/
def edgeMark (wired : WiredForm) : Nat := wired.graph.nextId

end WiredForm

end FormFlow
