import FormFlow.Proofs.Graph.EvaluationOrder
import FormFlow.Proofs.Request.Flow
import Mathlib.Data.List.Cycle

/-!
# Where cycles come from

Nothing in wiring looks for cycles. The only way to close one is to let a field or a collection take
a value from a reference, which is the end that values come to otherwise
(`RequestScope.cycles_from_values`). A form in which no formatter, default value or source is a
reference therefore has an order of evaluation, and so has every request over it.
-/

set_option autoImplicit false

namespace FormFlow

open NodeSource

/-! ## Edges along which a rank rises -/

/-- If a rank rises along every arc that does not start at an exception, every cycle has an
exception. -/
theorem exists_exception {arrow : NodeId → NodeId → Prop} {exception : NodeId → Prop}
    (rank : NodeId → Nat)
    (rises : ∀ producer consumer, arrow producer consumer →
      rank producer < rank consumer ∨ exception producer)
    {cycle : Cycle NodeId} (proper : cycle ≠ .nil) (chain : cycle.Chain arrow) :
    ∃ id ∈ cycle, exception id := by
  by_contra none
  refine proper (Cycle.Chain.eq_nil_of_irrefl (r := fun one other => rank one < rank other) ?_)
  induction cycle with
  | nil => trivial
  | cons first rest =>
    rw [Cycle.chain_coe_cons] at chain ⊢
    refine chain.imp_of_mem_imp fun one other here _ leads =>
      (rises one other leads).resolve_right ?_
    have member : one ∈ first :: rest := by
      rcases List.mem_cons.1 here with rfl | later
      · simp
      · simpa [or_comm] using later
    exact fun isException => none ⟨one, member, isException⟩

/-- If a rank rises along every edge, there is an order of evaluation. -/
theorem exists_evaluationOrder {graphs : List DependencyGraph} (rank : NodeId → Nat)
    (rises : ∀ producer consumer, Feeds graphs producer consumer → rank producer < rank consumer) :
    ∃ order, evaluationOrder graphs = .ok order := by
  have spec := DependencyView.order_spec (DependencyView.closed_ofGraphs graphs)
  rw [evaluationOrder]
  revert spec
  cases (DependencyView.ofGraphs graphs).order with
  | ok order => exact fun _ => ⟨order, rfl⟩
  | error error =>
    rintro ⟨id, _, loop⟩
    have along : ∀ other, Relation.TransGen (DependencyView.ofGraphs graphs).Arrow id other →
        rank id < rank other := by
      intro other path
      induction path with
      | single arrow => exact rises _ _ (DependencyView.arrow_ofGraphs.1 arrow)
      | tail _ arrow ih => exact ih.trans (rises _ _ (DependencyView.arrow_ofGraphs.1 arrow))
    exact absurd (along id loop) (Nat.lt_irrefl _)

namespace RequestScope

/-! ## The stages of a request -/

/-- How far a value has come at a node of a request. -/
def stageOf (request : RequestScope) (id : NodeId) : Nat :=
  match request.layers.node? id with
  | some node => node.kind.stage
  | none => 0

theorem stageOf_eq {request : RequestScope} {id : NodeId} {node : Node}
    (found : request.layers.node? id = some node) : request.stageOf id = node.kind.stage := by
  rw [stageOf, found]

section

variable {form : Form} {config : WiringConfig} {wired : WiredForm}
  (registered : WiredForm.Registered form config wired) (coherent : form.nodes.Coherent)
  (plain : form.Plain) (calls : List (NodeId × Nat)) {graphs : List DependencyGraph}
  (within : ∀ graph ∈ graphs, ∀ edge ∈ graph.edges, edge ∈ (run wired calls).joined.edges)
  {allowed : Nat → Prop} (links : TakesFrom form.nodes allowed)
include registered coherent plain within links

/-- What feeds another node is at an earlier stage, or a field or a collection takes a value from
it. -/
theorem run_feeds {producer consumer : NodeId} (feeds : Feeds graphs producer consumer) :
    (run wired calls).stageOf producer < (run wired calls).stageOf consumer ∨
      ∃ source, (run wired calls).layers.node? producer = some source ∧
        (run wired calls).IsValue producer ∧ source.kind.stage ≠ 0 ∧ allowed source.kind.stage := by
  obtain ⟨graph, known, edge, member, rfl, rfl⟩ := feeds
  obtain ⟨source, target, present, found, way⟩ :=
    run_rises registered coherent plain links calls (within graph known edge member)
  rw [stageOf_eq present, stageOf_eq found]
  exact way.imp_right fun value => ⟨source, present, value⟩

end

/-- **Cycles come only from references that values are taken from.** If the formatters, default
values and sources of a plain form are there, every cycle of a request over it goes through a
reference that is one of these for some field or collection. If none of them is a reference in the
form, the form and every request over it have an order of evaluation. -/
theorem cycles_from_values {form : Form} {config : WiringConfig} {wired : WiredForm}
    (built : form.Built) (plain : form.Plain)
    (linked : ∀ node ∈ form.nodes.nodes, ∀ id ∈ node.kind.valueIds, form.nodes.contains id = true)
    (wiring : WiredForm.wire form config = .ok wired) {request : RequestScope}
    (reached : Reachable wired request) :
    (∀ cycle : Cycle NodeId, cycle ≠ .nil →
      cycle.Chain (Feeds [wired.graph, request.overlay.graph]) →
        ∃ id ∈ cycle, (∃ node expression, request.layers.node? id = some node ∧
          node.kind = .reference expression) ∧ request.IsValue id) ∧
    ((∀ node ∈ form.nodes.nodes, ∀ id ∈ node.kind.valueIds, ∀ target,
        form.nodes.node? id = some target → target.kind.reference? = none) →
      (∃ order, evaluationOrder [wired.graph] = .ok order) ∧
        ∃ order, request.order = .ok order) := by
  have registered := WiredForm.wire_spec wiring
  have coherent := built.coherent
  have links := plain.takesFrom linked
  obtain ⟨calls, same⟩ := reached.exists_calls
  rw [same]
  have lower : ∀ edge ∈ wired.graph.edges, edge ∈ (run wired calls).joined.edges :=
    fun edge member => List.mem_append_left _ (by rwa [wired_run])
  have whole : ∀ graph ∈ [wired.graph, (run wired calls).overlay.graph], ∀ edge ∈ graph.edges,
      edge ∈ (run wired calls).joined.edges := by
    intro graph known edge member
    rcases List.mem_pair.1 known with rfl | rfl
    · exact lower edge member
    · exact List.mem_append_right _ member
  refine ⟨fun cycle proper chain => ?_, fun unread => ?_⟩
  · refine exists_exception (run wired calls).stageOf (fun producer consumer feeds => ?_)
      proper chain
    refine (run_feeds registered coherent plain calls whole links feeds).imp_right ?_
    rintro ⟨source, present, value, late, stage⟩
    obtain ⟨expression, isReference⟩ := NodeKind.stage_eq_three_iff.1 (stage.resolve_left late)
    exact ⟨⟨source, expression, present, isReference⟩, value⟩
  · have starts : TakesFrom form.nodes fun stage => stage = 0 := by
      intro owner holder found id member
      obtain ⟨node, there, stage⟩ := links owner holder found id member
      refine ⟨node, there, stage.resolve_right fun late => ?_⟩
      obtain ⟨expression, isReference⟩ := NodeKind.stage_eq_three_iff.1 late
      have none := unread holder (List.mem_of_find?_eq_some found) id member node there
      rw [isReference] at none
      cases none
    have rises : ∀ graphs : List DependencyGraph,
        (∀ graph ∈ graphs, ∀ edge ∈ graph.edges, edge ∈ (run wired calls).joined.edges) →
          ∃ order, evaluationOrder graphs = .ok order := by
      intro graphs within
      refine exists_evaluationOrder (run wired calls).stageOf fun _ _ feeds => ?_
      refine (run_feeds registered coherent plain calls within starts feeds).resolve_right ?_
      rintro ⟨source, _, _, late, start⟩
      exact late start
    refine ⟨rises _ fun graph known => ?_, ?_⟩
    · rw [List.mem_singleton.1 known]
      exact lower
    · change ∃ order, evaluationOrder
        [(run wired calls).wired.graph, (run wired calls).overlay.graph] = .ok order
      rw [wired_run]
      exact rises _ whole

/-! ### A default value that closes a cycle

The default value of the city is either a reference to the city itself or a literal. -/

namespace Legs

def form (value : NodeId) : Form :=
  ⟨"trip", {
    nodes := [
      ⟨⟨0⟩, none, .journey "trip"⟩,
      ⟨⟨1⟩, some ⟨0⟩, .step "/legs"⟩,
      ⟨⟨2⟩, some ⟨1⟩, .collection ⟨"leg", none⟩⟩,
      ⟨⟨3⟩, some ⟨2⟩, .field ⟨"city", "text", [], some value⟩⟩,
      ⟨⟨4⟩, some ⟨3⟩, .reference ⟨["answers", "city"]⟩⟩,
      ⟨⟨5⟩, some ⟨3⟩, .literal (.str "Oslo")⟩]
    containment := [(⟨0⟩, ⟨1⟩), (⟨1⟩, ⟨2⟩), (⟨2⟩, ⟨3⟩), (⟨3⟩, ⟨4⟩), (⟨3⟩, ⟨5⟩)]
    references := [⟨4⟩]
    identities := []
    nextId := 6 }⟩

theorem built {value : NodeId} (given : value = ⟨4⟩ ∨ value = ⟨5⟩) : (form value).Built := by
  have journey := Form.Built.addJourney (.empty "trip")
    (rfl : Form.addJourney _ none "trip" = .ok (_, ⟨0⟩))
  have step := journey.addStep (rfl : Form.addStep _ ⟨0⟩ "/legs" = .ok (_, ⟨1⟩))
  have collection := step.addCollection
    (rfl : Form.addCollection _ ⟨1⟩ "leg" none = .ok (_, ⟨2⟩))
  have field := collection.addField (rfl : Form.addField _ ⟨2⟩ "city" "text" = .ok (_, ⟨3⟩))
  have reference := field.addReference
    (rfl : Form.addReference _ ⟨3⟩ ["answers", "city"] = .ok (_, ⟨4⟩))
  have literal := reference.addLiteral
    (rfl : Form.addLiteral _ ⟨3⟩ (.str "Oslo") = .ok (_, ⟨5⟩))
  rcases given with rfl | rfl
  · exact literal.setDefaultValue (rfl : Form.setDefaultValue _ ⟨3⟩ ⟨4⟩ = .ok _)
  · exact literal.setDefaultValue (rfl : Form.setDefaultValue _ ⟨3⟩ ⟨5⟩ = .ok _)

theorem plain {value : NodeId} (given : value = ⟨4⟩ ∨ value = ⟨5⟩) : (form value).Plain := by
  rcases given with rfl | rfl
  · exact .ofNodes NodeId.val (by decide) (by decide) (by decide) (by decide) (by decide)
  · exact .ofNodes NodeId.val (by decide) (by decide) (by decide) (by decide) (by decide)

def wired (value : NodeId) : WiredForm :=
  (WiredForm.wire (form value) .default).toOption.getD default

/-- The request after the first leg. -/
def first (value : NodeId) : RequestScope := ((start (wired value)).materialize ⟨2⟩ 0).1

/-- With the reference as default value, the copy of it and the answer of the first leg feed each
other, and the copy is a default value. With the literal there is an order of evaluation. -/
theorem first_cycle :
    (∃ id ∈ (([⟨9⟩, ⟨12⟩] : List NodeId) : Cycle NodeId),
      (∃ node expression, (first ⟨4⟩).layers.node? id = some node ∧
        node.kind = .reference expression) ∧ (first ⟨4⟩).IsValue id) ∧
    (∃ order, evaluationOrder [(wired ⟨5⟩).graph] = .ok order) ∧
      ∃ order, (first ⟨5⟩).order = .ok order := by
  refine ⟨(cycles_from_values (built (.inl rfl)) (plain (.inl rfl)) (by decide)
    (rfl : WiredForm.wire (form ⟨4⟩) .default = .ok (wired ⟨4⟩))
    (.materialize ⟨2⟩ 0 .start)).1 _ nofun ?_, (cycles_from_values (built (.inr rfl))
    (plain (.inr rfl)) (by decide) (rfl : WiredForm.wire (form ⟨5⟩) .default = .ok (wired ⟨5⟩))
    (.materialize ⟨2⟩ 0 .start)).2 (by decide)⟩
  have reads : Feeds [(wired ⟨4⟩).graph, (first ⟨4⟩).overlay.graph] ⟨12⟩ ⟨9⟩ :=
    ⟨_, List.mem_cons_of_mem _ (List.mem_singleton_self _), _,
      List.mem_of_getElem? (i := 2) rfl, rfl, rfl⟩
  have fills : Feeds [(wired ⟨4⟩).graph, (first ⟨4⟩).overlay.graph] ⟨9⟩ ⟨12⟩ :=
    ⟨_, List.mem_cons_of_mem _ (List.mem_singleton_self _), _,
      List.mem_of_getElem? (i := 1) rfl, rfl, rfl⟩
  rw [Cycle.chain_coe_cons]
  exact .cons_cons fills (.cons_cons reads (.singleton _))

end Legs

end RequestScope

end FormFlow
