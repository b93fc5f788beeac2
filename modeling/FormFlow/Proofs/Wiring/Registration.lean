import FormFlow.Proofs.Except
import FormFlow.Proofs.Form.Growth
import FormFlow.Proofs.Wiring.Outcome
import FormFlow.Proofs.Wiring.Synthesis
import FormFlow.Wiring.WiredForm

/-!
# What wiring a form makes of it

`WiredForm.wire_spec` takes a successful `WiredForm.wire` apart: the scopes and the members of
the steps are those of the form, the nodes are those of the form with pseudo-nodes behind them,
and the graph is what the draft of the whole form adds to an empty one, without a failure.

How identifiers are counted makes no difference as long as they last (`WiredForm.wire_recounts`).
-/

set_option autoImplicit false

namespace FormFlow

namespace Synthesis

/-- Making pseudo-nodes grows a store. -/
theorem run_grows {store : NodeStore} (coherent : store.Coherent) (step : NodeId)
    (fields references repeated : List NodeId) :
    store.Grows store.nextId (run store step fields references repeated).nodes := by
  refine run_induction (P := fun (state : State NodeStore) =>
    store.Grows store.nextId state.nodes) ?_ .refl fields references repeated
  intro state identity origin _ grows
  exact grows.locate (grows.coherent coherent) grows.nextId_le identity origin

/-- What is made in a step are pseudo-nodes of the step. -/
theorem run_mem {store : NodeStore} {step : NodeId} {fields references repeated : List NodeId}
    {node : Node} (member : node ∈ (run store step fields references repeated).nodes.nodes) :
    node ∈ store.nodes ∨
      ∃ definition, node.kind = .pseudo definition ∧ node.parent = some step := by
  revert member
  refine run_induction (P := fun (state : State NodeStore) => ∀ node ∈ state.nodes.nodes,
    node ∈ store.nodes ∨ ∃ definition, node.kind = .pseudo definition ∧ node.parent = some step)
    ?_ (fun node member => .inl member) fields references repeated node
  intro state identity origin within known node member
  change node ∈ (state.nodes.locate identity origin).nodes.nodes at member
  cases present : state.nodes.pseudo? identity with
  | some id =>
    rw [NodeStore.locate_of_present present] at member
    exact known node member
  | none =>
    rw [NodeStore.locate_of_absent present] at member
    rcases List.mem_append.1 member with old | new
    · exact known node old
    · rw [List.mem_singleton.1 new]
      exact .inr ⟨⟨identity, origin⟩, rfl, congrArg some within⟩

/-- A node of a store, or a pseudo-node that was made for nodes of it: an item has the key of one
of them. -/
def Keyed (store : NodeStore) (node : Node) : Prop :=
  node ∈ store.nodes ∨ ∃ definition, node.kind = .pseudo definition ∧ (definition.kind = .item →
    ∃ outer ∈ store.nodes, Item.keyOfKind? outer.id outer.kind = some definition.key)

/-- The items that are made in a step have the keys of nodes that are there. -/
theorem run_keyed {first store : NodeStore} (before : ∀ node ∈ store.nodes, Keyed first node)
    (step : NodeId) (fields references repeated : List NodeId) :
    ∀ node ∈ (run store step fields references repeated).nodes.nodes, Keyed first node := by
  refine run_sourced (fun id node => node.id = id ∧ (node.kind.pseudo? = none →
      node ∈ first.nodes))
    (P := fun state : State NodeStore => ∀ node ∈ state.nodes.nodes, Keyed first node)
    ?_ ?_ before fields references repeated
  · intro state id node known found
    refine ⟨by simpa using List.find?_some found, fun plain => ?_⟩
    refine (known node (List.mem_of_find?_eq_some found)).resolve_right ?_
    rintro ⟨definition, isPseudo, _⟩
    rw [isPseudo] at plain
    cases plain
  · intro state identity origin _ sourced known node member
    change node ∈ (state.nodes.locate identity origin).nodes.nodes at member
    cases present : state.nodes.pseudo? identity with
    | some id =>
      rw [NodeStore.locate_of_present present] at member
      exact known node member
    | none =>
      rw [NodeStore.locate_of_absent present] at member
      rcases List.mem_append.1 member with old | new
      · exact known node old
      · rw [List.mem_singleton.1 new]
        refine .inr ⟨⟨identity, origin⟩, rfl, fun isItem => ?_⟩
        obtain ⟨_, outer, _, ⟨rfl, there⟩, keyed⟩ := sourced.item isItem
        have plain : outer.kind.pseudo? = none := by
          cases kind : outer.kind <;> rw [kind] at keyed <;> first | rfl | cases keyed
        exact ⟨outer, there plain, keyed⟩

end Synthesis

namespace WiredForm

/-- The nodes of a form with the pseudo-nodes of its steps. -/
theorem synthesize_grows (membership : StepMembership) {steps : List NodeId} {store : NodeStore}
    (coherent : store.Coherent) (count : Nat) :
    store.Grows store.nextId (synthesize membership steps store count).1 := by
  induction steps generalizing store count with
  | nil => exact .refl
  | cons step rest ih =>
    have first : store.Grows store.nextId
        (Synthesis.runStep store step (membership.members step)).nodes :=
      Synthesis.run_grows coherent step _ _ _
    exact first.trans ((ih (first.coherent coherent) _).mono first.nextId_le)

theorem synthesize_mem {membership : StepMembership} {steps : List NodeId} {store : NodeStore}
    {count : Nat} {node : Node}
    (member : node ∈ (synthesize membership steps store count).1.nodes) :
    node ∈ store.nodes ∨ ∃ definition, node.kind = .pseudo definition ∧
      ∃ step ∈ steps, node.parent = some step := by
  induction steps generalizing store count with
  | nil => exact .inl member
  | cons step rest ih =>
    rcases ih member with made | ⟨definition, isPseudo, other, later, contained⟩
    · rcases Synthesis.run_mem made with old | ⟨definition, isPseudo, contained⟩
      · exact .inl old
      · exact .inr ⟨definition, isPseudo, step, List.mem_cons_self .., contained⟩
    · exact .inr ⟨definition, isPseudo, other, List.mem_cons_of_mem _ later, contained⟩

theorem synthesize_keyed {first : NodeStore} {membership : StepMembership} {steps : List NodeId}
    {store : NodeStore} (before : ∀ node ∈ store.nodes, Synthesis.Keyed first node) (count : Nat) :
    ∀ node ∈ (synthesize membership steps store count).1.nodes, Synthesis.Keyed first node := by
  induction steps generalizing store count with
  | nil => exact before
  | cons step rest ih => exact ih (Synthesis.run_keyed before step _ _ _) _

/-- What wiring a form makes of it. -/
structure Registered (form : Form) (config : WiringConfig) (wired : WiredForm) : Prop where
  scopes : ScopeTree.build form.nodes = .ok wired.scopes
  membership : wired.membership = .build form.nodes
  nodes : ∃ count, wired.form.nodes =
    (synthesize wired.membership wired.scopes.steps form.nodes count).1
  drafted : (Pass.formDraft wired.form.nodes wired.scopes wired.membership config).failure? = none
  graph : wired.graph =
    ((Pass.formDraft wired.form.nodes wired.scopes wired.membership config).applyTo .empty).graph
  configured : wired.config = config

/-- Making pseudo-nodes for steps, if it succeeds, makes what is said of it. -/
theorem supply_endless {membership : StepMembership} {steps : List NodeId} {nodes : NodeStore}
    {count : Nat} {made : NodeStore × Nat}
    (supplied : supply .endless membership steps nodes count = .ok made) :
    made = synthesize membership steps nodes count := by
  induction steps generalizing nodes count with
  | nil => exact (Except.ok.inj supplied).symm
  | cons step rest ih =>
    obtain ⟨state, first, later⟩ := Except.bind_eq_ok_iff.1 supplied
    obtain rfl := Synthesis.make_endless (Except.mapError_eq_ok_iff.1 first)
    exact ih later

section

variable {counting : Counting} (other : Counting)

/-- Counted in another way, the same pseudo-nodes are made if identifiers last. -/
theorem supply_recounts {membership : StepMembership} {steps : List NodeId} {nodes : NodeStore}
    {count : Nat} {made : NodeStore × Nat}
    (supplied : supply counting membership steps nodes count = .ok made)
    (lasting : made.1.Lasting) :
    supply other membership steps nodes count = .ok made ∧ nodes.Lasting := by
  induction steps generalizing nodes count with
  | nil =>
    cases supplied
    exact ⟨rfl, lasting⟩
  | cons step rest ih =>
    obtain ⟨state, first, later⟩ := Except.bind_eq_ok_iff.1 supplied
    obtain ⟨again, between⟩ := ih later
    have recounts := Synthesis.make_recounts (Synthesis.countsAlike_store counting other) nodes step
      (membership.members step).fields (membership.members step).references
      (membership.members step).collections
    have made := Except.mapError_eq_ok_iff.1 first
    rw [Synthesis.makeStep] at made
    rw [made] at recounts
    obtain ⟨same, before⟩ := recounts between
    refine ⟨Except.bind_eq_ok_iff.2 ⟨state, Except.mapError_eq_ok_iff.2 ?_, again⟩, before⟩
    rw [Synthesis.makeStep, same]

/-- Counted in another way, a form is wired to the same if identifiers last. -/
theorem wire_recounts {form : Form} {config : WiringConfig} {wired : WiredForm}
    (wiring : wire form config counting = .ok wired) (lasting : wired.form.nodes.Lasting) :
    wire form config other = .ok wired := by
  obtain ⟨scopes, built, wiring⟩ := Except.bind_eq_ok_iff.1 wiring
  dsimp only at wiring
  obtain ⟨made, supplied, wiring⟩ := Except.bind_eq_ok_iff.1 wiring
  obtain ⟨report, passed, same⟩ := Except.bind_eq_ok_iff.1 wiring
  cases same
  obtain ⟨again, -⟩ := supply_recounts other (Except.mapError_eq_ok_iff.1 supplied) lasting
  exact Except.bind_eq_ok_iff.2 ⟨scopes, built, Except.bind_eq_ok_iff.2
    ⟨made, Except.mapError_eq_ok_iff.2 again, Except.bind_eq_ok_iff.2 ⟨report, passed, rfl⟩⟩⟩

end

theorem wire_spec {form : Form} {config : WiringConfig} {wired : WiredForm}
    (wiring : wire form config = .ok wired) : Registered form config wired := by
  obtain ⟨scopes, built, wiring⟩ := Except.bind_eq_ok_iff.1 wiring
  dsimp only at wiring
  obtain ⟨made, supplied, wiring⟩ := Except.bind_eq_ok_iff.1 wiring
  obtain ⟨report, passed, wiring⟩ := Except.bind_eq_ok_iff.1 wiring
  obtain rfl := supply_endless (Except.mapError_eq_ok_iff.1 supplied)
  cases wiring
  exact
    { scopes := Except.mapError_eq_ok_iff.1 built
      membership := rfl
      nodes := ⟨0, rfl⟩
      drafted := PassResult.report_ofDraft_eq_ok_iff.1 ⟨report, passed⟩
      graph := PassResult.graph_ofDraft ..
      configured := rfl }

namespace Registered

variable {form : Form} {config : WiringConfig} {wired : WiredForm}

theorem grows (registered : Registered form config wired) (coherent : form.nodes.Coherent) :
    form.nodes.Grows form.nodes.nextId wired.form.nodes := by
  obtain ⟨count, same⟩ := registered.nodes
  rw [same]
  exact synthesize_grows _ coherent count

theorem mem_or_pseudo (registered : Registered form config wired) {node : Node}
    (member : node ∈ wired.form.nodes.nodes) : node ∈ form.nodes.nodes ∨
      ∃ definition, node.kind = .pseudo definition ∧
        ∃ step ∈ wired.scopes.steps, node.parent = some step := by
  obtain ⟨count, same⟩ := registered.nodes
  rw [same] at member
  exact synthesize_mem member

/-- The items of a wired form have the keys of nodes of the form. -/
theorem keyed (registered : Registered form config wired) {node : Node}
    (member : node ∈ wired.form.nodes.nodes) : Synthesis.Keyed form.nodes node := by
  obtain ⟨count, same⟩ := registered.nodes
  rw [same] at member
  exact synthesize_keyed (fun _ => .inl) count node member

theorem coherent (registered : Registered form config wired) (coherent : form.nodes.Coherent) :
    wired.form.nodes.Coherent :=
  (registered.grows coherent).coherent coherent

end Registered

end WiredForm

end FormFlow
