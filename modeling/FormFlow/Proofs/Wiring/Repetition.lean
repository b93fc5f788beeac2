import FormFlow.Proofs.Form.Composed
import FormFlow.Proofs.Wiring.Agreement
import FormFlow.Proofs.Wiring.Result

/-!
# Wiring twice

Whatever a form wants is there once it is wired, and its graph has every connection that anything
in it asks for. Going over it again with the same members of the steps therefore finds nothing to
add. Wiring the form of a wired form from the start makes the same draft of it, because no
pseudo-node is made and the tree of scopes and the members of the steps are read off the same nodes
(`WiredForm.wire_again`).

They are not the same nodes if a pseudo-node was given the identifier of a missing parent. Then the
step of the pseudo-node has a member more the second time (`WiredForm.Captured.wire_again_differs`).
-/

set_option autoImplicit false

namespace FormFlow

open NodeSource

namespace Draft

/-- A graph that has every connection of a draft takes nothing from it. -/
theorem applyTo_of_contains {draft : Draft} {graph : DependencyGraph}
    (succeeds : draft.failure? = none)
    (present : ∀ c, .ok c ∈ draft → graph.contains c.triple = true) :
    draft.applyTo graph = ⟨graph, [], none⟩ := by
  induction draft with
  | nil => rfl
  | cons entry rest ih =>
    cases entry with
    | error error => cases succeeds
    | ok c =>
      rw [applyTo, DependencyGraph.add_of_contains (present c (List.mem_cons_self ..))]
      exact ih succeeds fun later member => present later (List.mem_cons_of_mem _ member)

/-- What a draft asks for is there afterwards. -/
theorem contains_applyTo {draft : Draft} (succeeds : draft.failure? = none)
    (graph : DependencyGraph) {c : Connection} (member : .ok c ∈ draft) :
    (draft.applyTo graph).graph.contains c.triple = true := by
  have offered : (draft.offer? c.triple).isSome = true :=
    List.findSome?_isSome_iff.2 ⟨.ok c, member, by simp⟩
  obtain ⟨metadata, offered⟩ := Option.isSome_iff_exists.1 offered
  rw [DependencyGraph.contains_iff, DependencyGraph.mem_triples_iff]
  simp only [metadata?_applyTo succeeds, offered]
  cases graph.metadata? c.triple <;> simp

/-- Applying a draft to its own result adds nothing. -/
theorem applyTo_again {draft : Draft} (succeeds : draft.failure? = none)
    (graph : DependencyGraph) :
    draft.applyTo (draft.applyTo graph).graph = ⟨(draft.applyTo graph).graph, [], none⟩ :=
  applyTo_of_contains succeeds fun _ => contains_applyTo succeeds graph

end Draft

/-! ## Making pseudo-nodes twice -/

namespace Synthesis

/-- Everything that the members of a step want is there. -/
def Supplied (store : NodeStore) (step : NodeId) : Prop :=
  ∀ entry ∈ wantedIn store step, HasPseudo store entry.1

/-- What is there is only looked up. -/
theorem foldl_ofWant_of_hasPseudo {store : NodeStore} {wanted : List (PseudoKey × Option NodeId)}
    (present : ∀ entry ∈ wanted, HasPseudo store entry.1) (created : List NodeId) :
    wanted.foldl ofWant ⟨store, created⟩ = ⟨store, created⟩ := by
  induction wanted with
  | nil => rfl
  | cons entry rest ih =>
    obtain ⟨id, found⟩ := present entry (List.mem_cons_self ..)
    have same : PseudoSink.locate store entry.1 entry.2 = ⟨store, id, false⟩ :=
      NodeStore.locate_of_present found entry.2
    have one : ofWant ⟨store, created⟩ entry = ⟨store, created⟩ := by
      rw [ofWant, want, same]
      rfl
    rw [List.foldl_cons, one]
    exact ih fun later member => present later (List.mem_cons_of_mem _ member)

theorem runStep_of_supplied {store : NodeStore} (coherent : store.Coherent) {step : NodeId}
    (supplied : Supplied store step) :
    runStep store step ((StepMembership.build store).members step) = ⟨store, []⟩ := by
  rw [runStep_eq_foldl coherent coherent (.refl _) fun _ => .rfl]
  exact foldl_ofWant_of_hasPseudo supplied []

end Synthesis

/-- In a store in which everything is there nothing is made. -/
theorem WiredForm.synthesize_of_supplied {store : NodeStore} (coherent : store.Coherent)
    {steps : List NodeId} (supplied : ∀ step ∈ steps, Synthesis.Supplied store step) (count : Nat) :
    synthesize (.build store) steps store count = (store, count) := by
  induction steps with
  | nil => rfl
  | cons step rest ih =>
    rw [synthesize, Synthesis.runStep_of_supplied coherent (supplied step (List.mem_cons_self ..))]
    exact ih fun later member => supplied later (List.mem_cons_of_mem _ member)

namespace Form

variable {form : Form} (coherent : form.nodes.Coherent)
  (unchanged : WiredForm.Unchanged form.nodes form.furnished)
include coherent unchanged

/-- Making pseudo-nodes does not make more answers local than it found or was asked for. -/
theorem localIn_furnished (step : NodeId) :
    Synthesis.localIn form.furnished step = Synthesis.localIn form.nodes step := by
  obtain ⟨made, appends, -⟩ := form.furnished_appends
  have fields := unchanged.nodesIn appends coherent (furnished_grows coherent) step .field
  funext code
  rw [Bool.eq_iff_iff, Synthesis.localIn_iff, Synthesis.localIn_iff, fields,
    hasPseudo_furnished coherent, or_assoc]
  refine or_congr_right (or_iff_right_of_imp ?_)
  rintro ⟨-, wanted⟩
  obtain ⟨entry, member, same⟩ := List.mem_map.1 wanted
  rcases Synthesis.mem_wants.1 member with
    ⟨node, inside, wants⟩ | ⟨node, -, wants⟩ | ⟨node, -, wants⟩
  · obtain ⟨field, isField, rfl | rfl⟩ := Synthesis.mem_fieldWants.1 wants <;> cases same
    exact ⟨node, inside, field, isField, rfl⟩
  · exact absurd (congrArg PseudoKey.kind same) (Synthesis.scope_of_referenceWants wants).2
  · obtain ⟨key, -, rfl⟩ := Synthesis.mem_repeatedWants.1 wants
    cases same

theorem wantedIn_furnished (step : NodeId) :
    Synthesis.wantedIn form.furnished step = Synthesis.wantedIn form.nodes step := by
  obtain ⟨made, appends, -⟩ := form.furnished_appends
  have same := unchanged.nodesIn appends coherent (furnished_grows coherent) step
  rw [Synthesis.wantedIn, Synthesis.wantedIn, localIn_furnished coherent unchanged,
    same, same, same]

theorem supplied_furnished {step : NodeId} (listed : step ∈ form.steps) :
    Synthesis.Supplied form.furnished step := by
  intro entry member
  rw [wantedIn_furnished coherent unchanged] at member
  obtain rfl : entry.1.scope = step := Synthesis.scope_of_wants member
  exact (hasPseudo_furnished coherent).2 (.inr ⟨listed, List.mem_map_of_mem member⟩)

omit coherent unchanged in
theorem steps_furnished (form : Form) :
    steps { form with nodes := form.furnished } = form.steps := by
  obtain ⟨made, appends, -⟩ := form.furnished_appends
  refine congrArg (List.map Node.id) (appends.filter_eq ?_ fun _ _ => rfl)
  intro node definition isPseudo
  rw [isPseudo]
  rfl

/-- A form with its pseudo-nodes wants no more of them. -/
theorem synthesize_furnished :
    WiredForm.synthesize (.build form.furnished) (steps { form with nodes := form.furnished })
      form.furnished 0 = (form.furnished, 0) := by
  rw [steps_furnished]
  exact WiredForm.synthesize_of_supplied (furnished_coherent coherent)
    (fun _ listed => supplied_furnished coherent unchanged listed) 0

end Form

/-! ## Wiring again -/

/-- A pass that adds nothing counts nothing for any family. -/
theorem WiringReport.ofConnections_nil (steps : Nat) :
    (∀ entry ∈ (ofConnections steps []).families, entry.2 = ⟨0, 0⟩) ∧
      (ofConnections steps []).edges = 0 := by
  cases steps with
  | zero => exact ⟨nofun, rfl⟩
  | succ steps =>
    refine ⟨fun entry member => ?_, rfl⟩
    obtain ⟨family, -, rfl⟩ := List.mem_map.1 member
    rfl

theorem WiringReport.map_families (steps : Nat) (added other : List Connection) :
    (ofConnections steps added).families.map Prod.fst =
      (ofConnections steps other).families.map Prod.fst := by
  cases steps <;> rfl

namespace WiredForm

section

variable {form : Form} {config : WiringConfig} {wired : WiredForm}

/-- Going over a wired form again finds nothing to add. -/
theorem rewire_eq (coherent : form.nodes.Coherent) (wiring : wire form config = .ok wired) :
    wired.rewire = ⟨wired.graph, .ok (.ofConnections wired.scopes.steps.length [])⟩ := by
  obtain ⟨scopes, -, silent, rfl⟩ := (wire_eq_ok_iff coherent).1 wiring
  have again := Draft.applyTo_again silent .empty
  change PassResult.ofDraft scopes.steps.length (form.draft scopes config)
    ((form.draft scopes config).applyTo .empty).graph = _
  rw [PassResult.ofDraft, again]
  rfl

/-- **Wiring is idempotent.** Going over a wired form again succeeds, adds no edge and reports for
the same families that each had nothing to add. Wiring its form from the start, with its
pseudo-nodes and the same options, succeeds with the same result, nodes and edges included, except
that no pseudo-node is made this time. For this no pseudo-node may have been given the identifier of
a missing parent. -/
theorem wire_again (composed : form.Composed) (acyclic : Acyclic form.nodes)
    (wiring : wire form config = .ok wired) :
    (wired.rewire.graph = wired.graph ∧
      ∃ report, wired.rewire.report = .ok report ∧ report.edges = 0 ∧
        report.families.map Prod.fst = wired.report.families.map Prod.fst ∧
        ∀ entry ∈ report.families, entry.2 = ⟨0, 0⟩) ∧
    (Uncaptured form.nodes wired.form.nodes →
      wire wired.form config =
        .ok { wired with report := { wired.report with pseudoNodes := 0 } }) := by
  have coherent := composed.spec.1
  refine ⟨?_, fun uncaptured => ?_⟩
  · rw [rewire_eq coherent wiring]
    have counts := WiringReport.ofConnections_nil wired.scopes.steps.length
    obtain ⟨scopes, -, -, rfl⟩ := (wire_eq_ok_iff coherent).1 wiring
    exact ⟨rfl, _, rfl, counts.2, WiringReport.map_families .., counts.1⟩
  · obtain ⟨scopes, listed, silent, rfl⟩ := (wire_eq_ok_iff coherent).1 wiring
    have grows := Form.furnished_grows coherent
    have unchanged : Unchanged form.nodes form.furnished :=
      unchanged_of_grows coherent acyclic grows uncaptured
    obtain ⟨made, appends, -⟩ := form.furnished_appends
    have nothing := Form.synthesize_furnished coherent unchanged
    let again : Form := { form with nodes := form.furnished }
    have nodes : again.furnished = form.furnished := (Prod.ext_iff.1 nothing).1
    have count : again.madeCount = 0 := (Prod.ext_iff.1 nothing).2
    have membership : StepMembership.build again.nodes = .build form.nodes :=
      unchanged.build_membership appends coherent grows
    have draft : again.draft scopes config = form.draft scopes config := by
      rw [Form.draft, Form.draft, nodes, membership]
    refine (wire_eq_ok_iff (Form.furnished_coherent coherent)).2
      ⟨scopes, (unchanged.build_scopes appends).trans listed, ?_, ?_⟩
    · rw [← draft] at silent
      exact silent
    · change _ = again.wiredBy scopes config
      simp only [Form.wiredBy, nodes, count, membership, draft]
      rfl

end

namespace Captured

theorem composed : (form ⟨1⟩).Composed :=
  (Form.Composed.empty "form").calls [.addJourney none "survey", .addStep ⟨0⟩ "/s",
    .addField ⟨1⟩ "name" "text", .addReference ⟨1⟩ ["answers", "name"]]

theorem wire_again_present :
    ((wired ⟨1⟩).rewire.graph = (wired ⟨1⟩).graph ∧
      ∃ report, (wired ⟨1⟩).rewire.report = .ok report ∧ report.edges = 0 ∧
        report.families.map Prod.fst = (wired ⟨1⟩).report.families.map Prod.fst ∧
        ∀ entry ∈ report.families, entry.2 = ⟨0, 0⟩) ∧
    wire (wired ⟨1⟩).form .default =
      .ok { wired ⟨1⟩ with report := { (wired ⟨1⟩).report with pseudoNodes := 0 } } :=
  have again := wire_again composed (acyclic ⟨1⟩ (by decide))
    (rfl : wire (form ⟨1⟩) .default = .ok (wired ⟨1⟩))
  ⟨again.1, again.2 uncaptured⟩

/-- If a pseudo-node took the place of the missing parent, wiring the form of the wired form
connects the reference as well. -/
theorem wire_again_differs : ¬∀ (form : Form) (config : WiringConfig) (wired : WiredForm),
    form.Composed → Acyclic form.nodes → wire form config = .ok wired →
      ∃ again, wire wired.form config = .ok again ∧ again.report.pseudoNodes = 0 ∧
        again.form = wired.form ∧ again.graph.connections = wired.graph.connections := by
  intro repeats
  obtain ⟨again, wiring, -, -, same⟩ :=
    repeats (form ⟨4⟩) .default (wired ⟨4⟩)
      (.ofText (by cbv : Form.ofText text = .ok (form ⟨4⟩))) (acyclic ⟨4⟩ (by decide)) rfl
  have wiredTwice : (wire (wired ⟨4⟩).form .default).toOption.map
      (fun again => again.graph.connections.length) = some 2 := rfl
  have wiredOnce : (wired ⟨4⟩).graph.connections.length = 1 := rfl
  rw [wiring, Except.toOption, Option.map_some, same, wiredOnce] at wiredTwice
  exact absurd wiredTwice (by decide)

end Captured

end WiredForm

end FormFlow
