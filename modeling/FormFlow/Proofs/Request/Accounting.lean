import FormFlow.Proofs.Form.Composed
import FormFlow.Proofs.Request.Isolation
import FormFlow.Proofs.Wiring.Accounting

/-!
# What a call reports

A call that makes an iteration records what it has made: the iteration, the copies and the
pseudo-nodes, which are the nodes that it puts behind those of the request, and the report of their
wiring, which accounts for the edges that it puts behind those of the request
(`RequestScope.Tallied`). So the reports of a form and of the iterations over it account for every
edge there is (`RequestScope.reports_account`).
-/

set_option autoImplicit false

namespace FormFlow

open NodeSource

namespace RequestScope

/-- The record of a call tells all that the call has made: the new nodes are the iteration, the
copies and the pseudo-nodes, and the report accounts for the new edges. -/
structure Tallied (before after : RequestScope) (record : Iteration) (made : List Node)
    (added : List Edge) : Prop where
  nodes : after.overlay.nodes.nodes = before.overlay.nodes.nodes ++ made
  listed : made.map Node.id = record.node :: (record.nodes ++ record.pseudoNodes)
  edges : after.overlay.graph.edges = before.overlay.graph.edges ++ added
  accounts : record.report.Accounts after.layers added

theorem Tallied.length_eq {before after : RequestScope} {record : Iteration} {made : List Node}
    {added : List Edge} (tallied : Tallied before after record made added) :
    after.overlay.nodes.nodes.length = before.overlay.nodes.nodes.length +
      (1 + record.nodes.length + record.pseudoNodes.length) := by
  have count := congrArg List.length tallied.listed
  rw [List.length_map, List.length_cons, List.length_append] at count
  rw [tallied.nodes, List.length_append, count]
  omega

/-- A call that makes an iteration records all that it makes. -/
theorem Stacked.tallied {request : RequestScope} (coherent : request.wired.form.nodes.Coherent)
    (stacked : Stacked request) {collection : NodeId} {index : Nat} {record : Iteration}
    (fresh : request.iteration? collection index = none)
    (succeeded : (request.materialize collection index).2 = .ok record) :
    ∃ made added, Tallied request (request.materialize collection index).1 record made added := by
  have anchored := stacked.anchored
  obtain ⟨attempt, done⟩ := materialize_of_ok fresh succeeded
  cases read : Template.read (layersOver request.wired request.overlay) request.wired.scopes
    collection with
  | error error =>
    unfold build at attempt
    dsimp only at attempt
    rw [read] at attempt
    cases attempt
  | ok template =>
    obtain ⟨⟨complete, state, made, reported⟩, recorded, _⟩ :=
      build_made coherent anchored read attempt
    obtain ⟨nodes, appended, batch⟩ := made.nodes_after
    obtain ⟨edges, wiring, accounts⟩ := Pass.accounts_of_wireNodes reported.report
    refine ⟨nodes, edges, ?_⟩
    rw [done]
    refine
      { nodes := appended
        listed := ?_
        edges := ?_
        accounts := ?_ }
    · rw [batch, recorded.node, recorded.nodes, reported.pseudoNodes]
      rfl
    · change (build _ _ _ _).overlay.graph.edges = _
      rw [made.graph]
      exact wiring
    · rw [← made.layers_eq coherent anchored] at accounts
      exact accounts

/-- **Reports account for every edge.** The report of a form that was wired counts the edges of its
graph: as producers those into pseudo-nodes and as consumers those into references, both of them
in the families whose kinds and whose namespaces they are, and it counts the pseudo-nodes by which
the store has grown. Whatever was asked of a request over the form before, the report of an
iteration that a call makes counts the edges that the call has added in the same way, and the nodes
that the call has added are the iteration, the copies and the pseudo-nodes on record. -/
theorem reports_account {form : Form} {config : WiringConfig} {wired : WiredForm}
    (composed : form.Composed) (wiring : WiredForm.wire form config = .ok wired) :
    (wired.report.Accounts wired.form.nodes wired.graph.edges ∧
      wired.report.edges = wired.graph.size ∧
      wired.form.nodes.nodes.length = form.nodes.nodes.length + wired.report.pseudoNodes) ∧
    ∀ request, Reachable wired request → ∀ collection index record,
      request.iteration? collection index = none →
      (request.materialize collection index).2 = .ok record →
      (∃ made added,
        Tallied request (request.materialize collection index).1 record made added) ∧
      (request.materialize collection index).1.overlay.nodes.nodes.length =
        request.overlay.nodes.nodes.length +
          (1 + record.nodes.length + record.pseudoNodes.length) := by
  have coherent := composed.spec.1
  obtain ⟨accounts, grown⟩ := WiredForm.accounts_of_wire coherent wiring
  refine ⟨⟨accounts, accounts.total, grown⟩, ?_⟩
  intro request reached collection index record fresh succeeded
  have whole := (WiredForm.wire_spec wiring).coherent coherent
  obtain ⟨rfl, stacked⟩ := reached.stacked whole
  obtain ⟨made, added, tallied⟩ := stacked.tallied whole fresh succeeded
  exact ⟨⟨made, added, tallied⟩, tallied.length_eq⟩

/-! ### Orders that read the same data -/

namespace Orders

theorem composed : form.Composed :=
  (Form.Composed.empty "shop").calls [.addJourney none "shop", .addStep ⟨0⟩ "/orders",
    .addReference ⟨1⟩ ["data", "goods"], .addCollection ⟨1⟩ "order" (some ⟨2⟩),
    .addField ⟨3⟩ "note" "text", .addReference ⟨3⟩ ["data", "goods"]]

/-- The record of the second order. -/
def record : Iteration := (first.materialize ⟨3⟩ 1).2.toOption.getD default

/-- The data has one more reader, the item comes from the source of the collection, and the note has
its submitted value and its answer. -/
theorem second_accounted :
    (first.materialize ⟨3⟩ 1).2 = .ok record ∧
      (record.report.producers, record.report.consumers, record.report.edges) = (2, 1, 3) ∧
      record.report.stats .data = ⟨0, 1⟩ ∧
      ∃ made added, Tallied first (first.materialize ⟨3⟩ 1).1 record made added := by
  have succeeded : (first.materialize ⟨3⟩ 1).2 = .ok record := rfl
  exact ⟨succeeded, rfl, rfl, ((reports_account composed
    (rfl : WiredForm.wire form .default = .ok wired)).2 first (.materialize ⟨3⟩ 0 .start) ⟨3⟩ 1
      record rfl succeeded).1⟩

end Orders

end RequestScope

end FormFlow
