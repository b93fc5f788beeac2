import FormFlow.Proofs.Wiring.Alike

/-!
# What wiring returns

Where load-transitions stand in scopes, wiring a form is decided by its draft: it fails with the
first error of the draft, and otherwise returns what `Form.wiredBy` says (`WiredForm.wire_eq`).

The store of a wired form is the store of the form with pseudo-nodes behind it, as many as the
report says (`Form.furnished_appends`). If none of them is given the identifier of a missing
parent, nothing that is read off the nodes before they are made is different afterwards: neither
the tree of scopes nor the members of the steps (`WiredForm.Unchanged.build_scopes`,
`WiredForm.Unchanged.build_membership`).
-/

set_option autoImplicit false

namespace FormFlow

open NodeSource

theorem isSome_lookup_iff {α β : Type} [BEq α] [LawfulBEq α] {pairs : List (α × β)} {key : α} :
    (pairs.lookup key).isSome = true ↔ key ∈ pairs.map Prod.fst := by
  rw [Option.isSome_iff_ne_none, Ne, List.lookup_eq_none_iff, List.mem_map]
  simp only [bne_iff_ne, ne_eq, Classical.not_forall, Classical.not_not, exists_prop]
  exact exists_congr fun pair => and_congr_right fun _ => eq_comm

/-! ## The nodes that are made -/

/-- Nodes that were appended to a store, all of them pseudo-nodes of some scopes. -/
structure NodeStore.Appends (store later : NodeStore) (scopes : List NodeId) (made : List Node) :
    Prop where
  nodes : later.nodes = store.nodes ++ made
  pseudos : ∀ node ∈ made, ∃ definition, node.kind = .pseudo definition ∧
    definition.scope ∈ scopes ∧ node.parent = some definition.scope

namespace Synthesis

/-- What is made in a step is put behind the nodes, and listed in order. -/
theorem run_appends (store : NodeStore) (step : NodeId) (fields references repeated : List NodeId) :
    ∃ made, store.Appends (run store step fields references repeated).nodes [step] made ∧
      (run store step fields references repeated).created = made.map Node.id := by
  refine run_induction (P := fun (state : State NodeStore) => ∃ made,
    store.Appends state.nodes [step] made ∧ state.created = made.map Node.id) ?_
    ⟨[], ⟨(List.append_nil _).symm, nofun⟩, rfl⟩ fields references repeated
  rintro state identity origin rfl ⟨made, ⟨nodes, pseudos⟩, created⟩
  cases present : state.nodes.pseudo? identity with
  | some id =>
    have same : PseudoSink.locate state.nodes identity origin = ⟨state.nodes, id, false⟩ :=
      NodeStore.locate_of_present present origin
    refine ⟨made, ?_, ?_⟩ <;> rw [want, same]
    · exact ⟨nodes, pseudos⟩
    · exact created
  | none =>
    have same : PseudoSink.locate state.nodes identity origin = _ :=
      NodeStore.locate_of_absent present origin
    refine ⟨made ++ [⟨⟨state.nodes.nextId⟩, some identity.scope, .pseudo ⟨identity, origin⟩⟩],
      ?_, ?_⟩ <;> rw [want, same]
    · refine ⟨?_, List.forall_mem_append.2 ⟨pseudos, ?_⟩⟩
      · change state.nodes.nodes ++ [_] = _
        rw [nodes, List.append_assoc]
      · exact List.forall_mem_singleton.2 ⟨_, rfl, List.mem_singleton_self _, rfl⟩
    · change state.created ++ [_] = _
      rw [created, List.map_append]
      rfl

end Synthesis

/-- What is made in all steps is put behind the nodes, and counted. -/
theorem WiredForm.synthesize_appends (membership : StepMembership) (steps : List NodeId)
    (store : NodeStore) (count : Nat) :
    ∃ made, store.Appends (synthesize membership steps store count).1 steps made ∧
      (synthesize membership steps store count).2 = count + made.length := by
  induction steps generalizing store count with
  | nil => exact ⟨[], ⟨(List.append_nil _).symm, nofun⟩, rfl⟩
  | cons step rest ih =>
    obtain ⟨first, ⟨nodes, pseudos⟩, created⟩ := Synthesis.run_appends store step
      (membership.members step).fields (membership.members step).references
      (membership.members step).collections
    obtain ⟨more, ⟨later, others⟩, counted⟩ := ih
      (Synthesis.runStep store step (membership.members step)).nodes
      (count + (Synthesis.runStep store step (membership.members step)).created.length)
    refine ⟨first ++ more, ⟨?_, List.forall_mem_append.2 ⟨?_, ?_⟩⟩, ?_⟩
    · rw [synthesize, later, Synthesis.runStep, nodes, List.append_assoc]
    · intro node member
      obtain ⟨definition, isPseudo, within, contained⟩ := pseudos node member
      exact ⟨definition, isPseudo, List.mem_singleton.1 within ▸ List.mem_cons_self .., contained⟩
    · intro node member
      obtain ⟨definition, isPseudo, within, contained⟩ := others node member
      exact ⟨definition, isPseudo, List.mem_cons_of_mem _ within, contained⟩
    · rw [synthesize, counted, Synthesis.runStep, created, List.length_map, List.length_append,
        Nat.add_assoc]

/-! ## What is read off the nodes -/

section

variable {before after : NodeStore} {scopes : List NodeId} {made : List Node}
  (appends : before.Appends after scopes made)
include appends

/-- Where pseudo-nodes are passed over, only the nodes before them count. -/
theorem NodeStore.Appends.filterMap_eq {α : Type} {entry entryAfter : Node → Option α}
    (skips : ∀ node definition, node.kind = .pseudo definition → entryAfter node = none)
    (same : ∀ node ∈ before.nodes, entryAfter node = entry node) :
    after.nodes.filterMap entryAfter = before.nodes.filterMap entry := by
  have nothing : made.filterMap entryAfter = [] := by
    refine List.filterMap_eq_nil_iff.2 fun node member => ?_
    obtain ⟨definition, isPseudo, -⟩ := appends.pseudos node member
    exact skips node definition isPseudo
  rw [appends.nodes, List.filterMap_append, nothing, List.append_nil]
  exact List.filterMap_congr same

theorem NodeStore.Appends.filter_eq {test testAfter : Node → Bool}
    (fails : ∀ node definition, node.kind = .pseudo definition → testAfter node = false)
    (same : ∀ node ∈ before.nodes, testAfter node = test node) :
    after.nodes.filter testAfter = before.nodes.filter test := by
  rw [← List.filterMap_eq_filter, ← List.filterMap_eq_filter]
  refine appends.filterMap_eq (fun node definition isPseudo => ?_) fun node member => ?_
  · rw [Option.guard, fails node definition isPseudo]
    rfl
  · rw [Option.guard, Option.guard, same node member]

/-- The tree of scopes is that of the nodes before pseudo-nodes are made. -/
theorem WiredForm.Unchanged.build_scopes (unchanged : Unchanged before after) :
    ScopeTree.build after = ScopeTree.build before := by
  have above : ∀ node ∈ before.nodes,
      ScopeTree.scopeAbove? after node = ScopeTree.scopeAbove? before node := by
    intro node member
    simp only [ScopeTree.scopeAbove?, enclosingAbove?]
    rw [unchanged.above node member]
  have loads : ScopeTree.loadTransitions after = ScopeTree.loadTransitions before :=
    appends.filter_eq (fun node definition isPseudo => by rw [isPseudo]; rfl) fun _ _ => rfl
  have inside : ∀ load ∈ ScopeTree.loadTransitions before,
      ScopeTree.scopeAbove? after load = ScopeTree.scopeAbove? before load :=
    fun load known => above load (List.mem_of_mem_filter known)
  have outside : (ScopeTree.loadTransitions before).find?
        (fun load => (ScopeTree.scopeAbove? after load).isNone) =
      (ScopeTree.loadTransitions before).find?
        fun load => (ScopeTree.scopeAbove? before load).isNone := by
    rw [← List.head?_filter, ← List.head?_filter,
      List.filter_congr fun load known => by rw [inside load known]]
  have entries : after.nodes.filterMap (ScopeTree.entryOf? after) =
      before.nodes.filterMap (ScopeTree.entryOf? before) := by
    refine appends.filterMap_eq (fun node definition isPseudo => ?_) fun node member => ?_
    · rw [ScopeTree.entryOf?, isPseudo]
      rfl
    · rw [ScopeTree.entryOf?, ScopeTree.entryOf?, loads, above node member,
        List.filter_congr fun load known => by rw [inside load known]]
  rw [ScopeTree.build, ScopeTree.build, loads, outside, entries]

section

variable (unchanged : WiredForm.Unchanged before after) (coherent : before.Coherent) {mark : Nat}
  (grows : before.Grows mark after)
include unchanged coherent grows

omit appends in
theorem WiredForm.Unchanged.place? {node : Node} (member : node ∈ before.nodes) :
    StepMembership.place? after node = StepMembership.place? before node := by
  simp only [StepMembership.place?, inTemplate]
  rw [unchanged.repeatedAbove? member, unchanged.owningStep? coherent grows member]

omit unchanged coherent grows appends in
theorem StepMembership.place?_pseudo {nodes : NodeStore} {node : Node} {definition : Pseudo}
    (isPseudo : node.kind = .pseudo definition) : place? nodes node = none := by
  rw [StepMembership.place?, isPseudo]
  rfl

/-- The members of the steps are those of the nodes before pseudo-nodes are made. -/
theorem WiredForm.Unchanged.build_membership :
    StepMembership.build after = StepMembership.build before :=
  congrArg StepMembership.mk (appends.filterMap_eq
    (fun _ _ => StepMembership.place?_pseudo) fun _ => unchanged.place? coherent grows)

theorem WiredForm.Unchanged.nodesIn (step : NodeId) (role : MemberRole) :
    StepMembership.nodesIn after step role = StepMembership.nodesIn before step role := by
  refine appends.filter_eq (fun node definition isPseudo => ?_) fun node member => ?_
  · rw [StepMembership.place?_pseudo isPseudo]
    rfl
  · rw [unchanged.place? coherent grows member]

end

end

/-! ## The result -/

namespace Form

/-- What is drafted for a form with its pseudo-nodes. -/
def draft (form : Form) (scopes : ScopeTree) (config : WiringConfig) : Draft :=
  Pass.formDraft form.furnished scopes (.build form.nodes) config

/-- How many pseudo-nodes the steps of a form want that are not there. -/
def madeCount (form : Form) : Nat :=
  (WiredForm.synthesize (.build form.nodes) form.steps form.nodes 0).2

/-- What wiring makes of a form if nothing fails. -/
def wiredBy (form : Form) (scopes : ScopeTree) (config : WiringConfig) : WiredForm :=
  let outcome := (form.draft scopes config).applyTo .empty
  { form := { form with nodes := form.furnished }
    scopes := scopes
    membership := .build form.nodes
    graph := outcome.graph
    config := config
    report := { WiringReport.ofConnections scopes.steps.length outcome.added with
      pseudoNodes := form.madeCount } }

variable {form : Form}

/-- After all steps each identity has the pseudo-node that it had, or the one that it is first
wanted for in its step. -/
theorem definition?_furnished (coherent : form.nodes.Coherent) (identity : PseudoKey) :
    form.furnished.definition? identity = (form.nodes.definition? identity).or
      (if identity.scope ∈ form.steps then
        ((Synthesis.wantedIn form.nodes identity.scope).lookup identity).map fun origin =>
          ⟨identity, origin⟩ else none) :=
  NodeStore.definition?_synthesize coherent (nodup_steps coherent) coherent (.refl _)
    (fun _ _ => rfl) 0 identity

/-- Afterwards there is what was there and what the steps want. -/
theorem hasPseudo_furnished (coherent : form.nodes.Coherent) {identity : PseudoKey} :
    HasPseudo form.furnished identity ↔ HasPseudo form.nodes identity ∨
      identity.scope ∈ form.steps ∧
        identity ∈ (Synthesis.wantedIn form.nodes identity.scope).map Prod.fst := by
  have has : ∀ {store : NodeStore}, store.Coherent →
      (HasPseudo store identity ↔ (store.definition? identity).isSome = true) := by
    intro store coherent
    rw [Option.isSome_iff_ne_none, Ne, NodeStore.definition?_eq_none_iff coherent]
    exact Option.ne_none_iff_exists'.symm
  rw [has (furnished_coherent coherent), has coherent, definition?_furnished coherent,
    Option.isSome_or, Bool.or_eq_true, ← isSome_lookup_iff]
  refine or_congr_right ?_
  split <;> rename_i listed <;> simp [listed]

theorem furnished_appends (form : Form) :
    ∃ made, form.nodes.Appends form.furnished form.steps made ∧ form.madeCount = made.length := by
  obtain ⟨made, appends, counted⟩ :=
    WiredForm.synthesize_appends (.build form.nodes) form.steps form.nodes 0
  exact ⟨made, appends, counted.trans (Nat.zero_add _)⟩

end Form

namespace WiredForm

variable {form : Form} {config : WiringConfig} {wired : WiredForm}

/-- Wiring fails with the first error of the draft. -/
theorem wire_eq (coherent : form.nodes.Coherent) {scopes : ScopeTree}
    (built : ScopeTree.build form.nodes = .ok scopes) :
    wire form config = match (form.draft scopes config).failure? with
      | some error => .error error
      | none => .ok (form.wiredBy scopes config) := by
  have nodes : synthesize (.build form.nodes) scopes.steps form.nodes 0 =
      (form.furnished, form.madeCount) := by
    rw [Form.steps_eq built]
    rfl
  have passed : Pass.wireAll form.furnished scopes (.build form.nodes) config .empty =
      .ofDraft scopes.steps.length (form.draft scopes config) .empty := rfl
  simp only [wire, built, supply_build coherent, Except.mapError, bind, Except.bind, nodes, passed, PassResult.ofDraft,
    Draft.failure_applyTo]
  cases (form.draft scopes config).failure? <;> rfl

/-- A form is wired if its load-transitions stand in scopes and nothing in its draft fails. -/
theorem wire_eq_ok_iff (coherent : form.nodes.Coherent) : wire form config = .ok wired ↔
    ∃ scopes, ScopeTree.build form.nodes = .ok scopes ∧
      (form.draft scopes config).failure? = none ∧ wired = form.wiredBy scopes config := by
  constructor
  · intro wiring
    have built := (wire_spec wiring).scopes
    rw [wire_eq coherent built] at wiring
    cases failed : (form.draft wired.scopes config).failure? with
    | some error =>
      rw [failed] at wiring
      cases wiring
    | none =>
      rw [failed] at wiring
      exact ⟨wired.scopes, built, failed, (Except.ok.inj wiring).symm⟩
  · rintro ⟨scopes, built, silent, rfl⟩
    rw [wire_eq coherent built, silent]

end WiredForm

end FormFlow
