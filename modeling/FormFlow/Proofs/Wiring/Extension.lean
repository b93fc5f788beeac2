import FormFlow.Proofs.Wiring.Ends
import FormFlow.Proofs.Wiring.Exactness
import FormFlow.Proofs.Wiring.Lockstep

/-!
# Forms extended beside a step

A form may be extended by nodes that leave one of its steps alone (`Form.ExtendsBeside`): they do
not belong to the step, and none of them is a load-transition of the step or of a journey above it.
Ways up from the old nodes stay as they were, so the step has the same members in the same order,
wants the same pseudo-nodes in the same order, and is served by the same load-transition. It is
therefore drafted in lockstep before and after (`Form.ExtendsBeside.lockstep`), although its
pseudo-nodes may have other identifiers and stand elsewhere in the store.
-/

set_option autoImplicit false

namespace FormFlow

open NodeSource

theorem NodeKind.supplierIds_eq (kind : NodeKind) : kind.supplierIds = kind.valueIds := by
  cases kind <;> rfl

/-- What a pseudo-node is made for is a node of the store. -/
theorem NodeStore.Needs.contains_origin {store : NodeStore} (coherent : store.Coherent)
    {definition : Pseudo} (needs : store.Needs definition) {origin : NodeId}
    (made : definition.origin = some origin) : store.contains origin = true := by
  have declared : ∀ {step code first}, store.DeclaresFirst step code first →
      store.contains first = true := by
    rintro step code first ⟨_, node, _, _, named, declares, -⟩
    exact contains_of_mem coherent declares.1.member named
  cases needs with
  | submitted declares =>
    cases made
    exact declared declares
  | answer declares =>
    cases made
    exact declared declares
  | foreign _ _ _ _ => cases made
  | named _ _ _ => cases made
  | item _ closed _ =>
    cases made
    exact contains_of_mem coherent closed.member rfl

namespace Form

/-- A form with nodes behind its own that leave a step alone. None of them belongs to the step, none
is a load-transition of the step or of a journey above it, and the nodes that they take values from
are there. -/
structure ExtendsBeside (form other : Form) (step : NodeId) (appended : List Node) : Prop where
  nodes : other.nodes.nodes = form.nodes.nodes ++ appended
  linked : ∀ node ∈ appended, ∀ id ∈ node.kind.valueIds, other.nodes.contains id = true
  elsewhere : ∀ node ∈ appended, owningStep? other.nodes node.id ≠ some step
  loads : ∀ node ∈ appended, node.kind.isLoadTransition = true →
    ∀ scope ∈ lineage form.nodes step, ScopeTree.scopeAbove? other.nodes node ≠ some scope.id

/-- Whatever fields and collections take values from is a node of the form. -/
def Linked (form : Form) : Prop :=
  ∀ node ∈ form.nodes.nodes, ∀ id ∈ node.kind.valueIds, form.nodes.contains id = true

namespace ExtendsBeside

variable {form other : Form} {step : NodeId} {appended : List Node}
  (extended : form.ExtendsBeside other step appended) (coherent : form.nodes.Coherent)
  (otherCoherent : other.nodes.Coherent) (plain : form.Plain)
include extended

theorem mem {node : Node} (member : node ∈ form.nodes.nodes) : node ∈ other.nodes.nodes := by
  rw [extended.nodes]
  exact List.mem_append_left _ member

/-- Links of all nodes lead to nodes. -/
theorem linked_all (linked : form.Linked) (otherCoherent : other.nodes.Coherent) :
    other.Linked := by
  intro node member id link
  rw [extended.nodes] at member
  rcases List.mem_append.1 member with old | new
  · obtain ⟨found, known⟩ := Option.isSome_iff_exists.1 (linked node old id link)
    obtain ⟨there, named⟩ : found ∈ form.nodes.nodes ∧ found.id = id :=
      ⟨List.mem_of_find?_eq_some known, NodeStore.id_eq_of_node? known⟩
    exact NodeStore.contains_of_mem otherCoherent (extended.mem there) named
  · exact extended.linked node new id link

include coherent otherCoherent plain

/-- The extended form shows the nodes of the form. -/
theorem shows : Shows form.nodes other.nodes where
  node := by
    intro id node found
    obtain ⟨member, rfl⟩ := (NodeStore.node?_eq_some_iff coherent).1 found
    exact NodeStore.node?_of_mem otherCoherent (extended.mem member)
  pseudo := by
    intro identity id found
    cases (NodeStore.pseudo?_eq_none_of_bare coherent plain.pseudos identity).symm.trans found

theorem shows_furnished : Shows form.nodes other.furnished :=
  (extended.shows coherent otherCoherent plain).trans (furnished_grows otherCoherent).shows

/-! ### Members -/

theorem place?_eq {node : Node} (member : node ∈ form.nodes.nodes) :
    StepMembership.place? other.nodes node = StepMembership.place? form.nodes node := by
  have shown := extended.shows coherent otherCoherent plain
  have upright := plain.wellPlaced.upright
  have found := NodeStore.node?_of_mem coherent member
  simp only [StepMembership.place?, inTemplate]
  rw [shown.repeatedAbove?_eq upright found, shown.owningStep?_eq upright found]

/-- **The step has the same members in the same order.** -/
theorem nodesIn_eq (role : MemberRole) :
    StepMembership.nodesIn other.nodes step role = StepMembership.nodesIn form.nodes step role := by
  have new : appended.filter (fun node => (StepMembership.place? other.nodes node).any
      fun member => member.step = step && member.role = role) = [] := by
    refine List.filter_eq_nil_iff.2 fun node member placed => ?_
    have inside : node ∈ StepMembership.nodesIn other.nodes step role := by
      refine List.mem_filter.2 ⟨?_, placed⟩
      rw [extended.nodes]
      exact List.mem_append_right _ member
    exact extended.elsewhere node member (NodeStore.mem_nodesIn_iff.1 inside).2.2
  rw [StepMembership.nodesIn, StepMembership.nodesIn, extended.nodes, List.filter_append, new,
    List.append_nil]
  exact List.filter_congr fun node member => by
    rw [extended.place?_eq coherent otherCoherent plain member]

theorem members_eq : (StepMembership.build other.nodes).members step =
    (StepMembership.build form.nodes).members step := by
  simp only [StepMembership.members, ← StepMembership.map_nodesIn,
    extended.nodesIn_eq coherent otherCoherent plain]

/-- The step wants the same pseudo-nodes in the same order. -/
theorem wantedIn_eq (otherPlain : other.Plain) :
    Synthesis.wantedIn other.nodes step = Synthesis.wantedIn form.nodes step := by
  have members := extended.nodesIn_eq coherent otherCoherent plain
  have locals : Synthesis.localIn other.nodes step = Synthesis.localIn form.nodes step := by
    funext code
    rw [Synthesis.localIn, Synthesis.localIn,
      NodeStore.pseudo?_eq_none_of_bare coherent plain.pseudos,
      NodeStore.pseudo?_eq_none_of_bare otherCoherent otherPlain.pseudos, NodeStore.firstField?,
      NodeStore.firstField?, members]
  rw [Synthesis.wantedIn, Synthesis.wantedIn, locals, members, members, members]

/-! ### The load-transition that serves the step -/

theorem declaredLoads_eq {scope : Node} (above : scope ∈ lineage form.nodes step) :
    ScopeTree.declaredLoads other.nodes scope.id =
      ScopeTree.declaredLoads form.nodes scope.id := by
  have shown := extended.shows coherent otherCoherent plain
  have new : (appended.filter fun node => node.kind.isLoadTransition).filter (fun load =>
      ScopeTree.scopeAbove? other.nodes load = some scope.id) = [] := by
    refine List.filter_eq_nil_iff.2 fun load member declared => ?_
    obtain ⟨inside, isLoad⟩ := List.mem_filter.1 member
    exact extended.loads load inside isLoad scope above (of_decide_eq_true declared)
  rw [ScopeTree.declaredLoads, ScopeTree.declaredLoads, ScopeTree.loadTransitions, extended.nodes,
    List.filter_append, List.filter_append, new, List.append_nil, ScopeTree.loadTransitions]
  refine congrArg (List.map Node.id) (List.filter_congr fun load member => ?_)
  rw [ScopeTree.scopeAbove?, ScopeTree.scopeAbove?, shown.enclosingAbove?_eq
    plain.wellPlaced.upright (NodeStore.node?_of_mem coherent (List.mem_of_mem_filter member))]

variable (listed : step ∈ form.steps)
include listed

omit coherent otherCoherent plain in
theorem step_listed : step ∈ other.steps := by
  obtain ⟨node, member, isStep, rfl⟩ := mem_steps.1 listed
  exact mem_steps.2 ⟨node, extended.mem member, isStep, rfl⟩

/-- **The step is served by the same load-transition.** -/
theorem lastLoadFrom?_eq (otherPlain : other.Plain) {scopes others : ScopeTree}
    (built : ScopeTree.build form.nodes = .ok scopes)
    (otherBuilt : ScopeTree.build other.nodes = .ok others) :
    scopes.lastLoadFrom? step = others.lastLoadFrom? step := by
  obtain ⟨node, member, isStep, rfl⟩ := mem_steps.1 listed
  have isScope : node.kind.isScope = true := by rw [NodeKind.isScope, isStep, Bool.or_true]
  have same := (extended.shows coherent otherCoherent plain).lineage_eq plain.wellPlaced.upright
    (NodeStore.node?_of_mem coherent member)
  rw [ScopeTree.lastLoadFrom?_eq coherent.nodup built plain.acyclic member isScope,
    ScopeTree.lastLoadFrom?_eq otherCoherent.nodup otherBuilt otherPlain.acyclic
      (extended.mem member) isScope, ScopeTree.loadAbove?, ScopeTree.loadAbove?, same]
  refine findSome?_congr fun scope inside => ?_
  rw [extended.declaredLoads_eq coherent otherCoherent plain (List.mem_of_mem_filter inside)]

/-! ### Lockstep -/

section

variable (otherPlain : other.Plain)
include otherPlain

/-- The step has the same pseudo-nodes in the same order. -/
theorem entriesIn_eq : form.furnished.entriesIn step = other.furnished.entriesIn step := by
  rw [entriesIn_furnished coherent plain.pseudos listed,
    entriesIn_furnished otherCoherent otherPlain.pseudos (extended.step_listed listed),
    extended.wantedIn_eq coherent otherCoherent plain otherPlain]

/-- **An identity of the step has a pseudo-node in both, made for the same node, or in neither.** -/
theorem definition?_eq {identity : PseudoKey} (here : identity.scope = step) :
    form.furnished.definition? identity = other.furnished.definition? identity := by
  have before : ∀ {form : Form}, form.nodes.Coherent → form.Plain →
      form.nodes.definition? identity = none := fun coherent plain =>
    (NodeStore.definition?_eq_none_iff coherent).2
      (NodeStore.pseudo?_eq_none_of_bare coherent plain.pseudos identity)
  subst here
  rw [definition?_furnished coherent, definition?_furnished otherCoherent, before coherent plain,
    before otherCoherent otherPlain, if_pos listed, if_pos (extended.step_listed listed),
    extended.wantedIn_eq coherent otherCoherent plain otherPlain]

end

omit listed in
/-- A node of the form is the same in both. -/
theorem sameNode {id : NodeId} (known : form.nodes.contains id = true) :
    form.furnished.SameNode other.furnished id id := by
  obtain ⟨node, found⟩ := Option.isSome_iff_exists.1 known
  have isPlain := plain.pseudos node (List.mem_of_find?_eq_some found)
  have one : form.furnished.node? id = some node :=
    (furnished_grows coherent).node?_of_found found
  have two : other.furnished.node? id = some node :=
    (extended.shows_furnished coherent otherCoherent plain).node id node found
  refine .plain ?_ ?_
  · rw [NodeStore.pseudoAt?, one, Option.bind_some, isPlain]
  · rw [NodeStore.pseudoAt?, two, Option.bind_some, isPlain]

omit listed in
/-- A member of the step is found in both, with the same nodes above it. -/
theorem exists_member {id : NodeId} {role : MemberRole}
    (member : id ∈ (StepMembership.build form.nodes).within step role) :
    ∃ node, node? form.nodes id = some node ∧ node? form.furnished id = some node ∧
      node? other.furnished id = some node ∧ ∀ test, enclosingAbove? form.furnished node test =
        enclosingAbove? other.furnished node test := by
  obtain ⟨node, inside, rfl, -⟩ := WiredForm.Registered.mem_within_build.1 member
  have found := NodeStore.node?_of_mem coherent inside
  have upright := plain.wellPlaced.upright
  have one := (furnished_grows coherent).shows
  have two := extended.shows_furnished coherent otherCoherent plain
  refine ⟨node, found, one.node _ _ found, two.node _ _ found, fun test => ?_⟩
  rw [one.enclosingAbove?_eq upright found, two.enclosingAbove?_eq upright found]

/-- **The step is drafted in lockstep before and after.** -/
theorem lockstep (otherPlain : other.Plain) (linked : form.Linked) {scopes others : ScopeTree}
    (built : ScopeTree.build form.nodes = .ok scopes)
    (otherBuilt : ScopeTree.build other.nodes = .ok others) (config : WiringConfig) :
    (form.context scopes config step).Lockstep (other.context others config step)
      fun id => form.nodes.contains id = true where
  coherent := furnished_coherent coherent
  otherCoherent := furnished_coherent otherCoherent
  step := rfl
  config := rfl
  load := extended.lastLoadFrom?_eq coherent otherCoherent plain listed otherPlain built otherBuilt
  definitions := fun _ here =>
    extended.definition?_eq coherent otherCoherent plain listed otherPlain here
  plain := by
    intro id known
    obtain ⟨node, found⟩ := Option.isSome_iff_exists.1 known
    have there : other.nodes.node? id = some node :=
      (extended.shows coherent otherCoherent plain).node id node found
    change (form.furnished.plain? id).map Node.outline =
      (other.furnished.plain? id).map Node.outline
    rw [plain?_furnished coherent, plain?_furnished otherCoherent, NodeStore.plain?,
      NodeStore.plain?, found, there]
  references := fun id => by
    have same := extended.members_eq coherent otherCoherent plain
    exact iff_of_eq (congrArg (fun members => id ∈ members.references) same.symm)
  templateReferences := fun id => by
    have same := extended.members_eq coherent otherCoherent plain
    exact iff_of_eq (congrArg (fun members => id ∈ members.templateReferences) same.symm)
  listed := fun id member => by
    have known : ∀ role, id ∈ (StepMembership.build form.nodes).within step role →
        form.nodes.contains id = true := by
      intro role member
      obtain ⟨node, found, -⟩ := extended.exists_member coherent otherCoherent plain member
      exact Option.isSome_iff_exists.2 ⟨node, found⟩
    exact member.elim (known _) (known _)
  origins := by
    intro id definition held origin made
    obtain ⟨node, found, isPseudo⟩ := Option.bind_eq_some_iff.1 held.1
    have needs := (pseudo_furnished_iff coherent plain.wellPlaced.upright plain.pseudos
      plain.iterations).1 ⟨node, List.mem_of_find?_eq_some found,
        NodeKind.pseudo?_eq_some_iff.1 isPseudo⟩
    exact needs.contains_origin coherent made
  collections := by
    intro origin collection index known found
    obtain ⟨node, present⟩ := Option.isSome_iff_exists.1 known
    have there : form.furnished.node? origin = some node :=
      (furnished_grows coherent).node?_of_found present
    change ((form.furnished.node? origin).bind fun node =>
      WiringContext.repeatedBy? origin node.kind) = some (collection, index) at found
    rw [there, Option.bind_some] at found
    have single := plain.iterations node (List.mem_of_find?_eq_some present)
    cases kind : node.kind <;> rw [kind] at found single <;> cases found
    · exact known
    · cases single
  enclosing := by
    have same : ∀ {id : NodeId} {role : MemberRole},
        id ∈ (StepMembership.build form.nodes).within step role →
        (form.context scopes config step).enclosingField? id =
          (other.context others config step).enclosingField? id := by
      intro id role member
      obtain ⟨node, -, one, two, above⟩ :=
        extended.exists_member coherent otherCoherent plain member
      change ((node? form.furnished id).bind fun node =>
          (enclosingAbove? form.furnished node NodeKind.isField).bind fun outer =>
            outer.kind.field?) =
        (node? other.furnished id).bind fun node =>
          (enclosingAbove? other.furnished node NodeKind.isField).bind fun outer =>
            outer.kind.field?
      rw [one, two, Option.bind_some, Option.bind_some, above]
    exact fun id member => member.elim same same
  scopeKey := by
    intro id member
    obtain ⟨node, -, one, two, above⟩ :=
      extended.exists_member coherent otherCoherent plain member
    change ((node? form.furnished id).bind fun node =>
        (enclosingAbove? form.furnished node NodeKind.isRepeated).bind fun scope =>
          Item.keyOfKind? scope.id scope.kind) =
      (node? other.furnished id).bind fun node =>
        (enclosingAbove? other.furnished node NodeKind.isRepeated).bind fun scope =>
          Item.keyOfKind? scope.id scope.kind
    rw [one, two, Option.bind_some, Option.bind_some, above]
  supplied := by
    intro id node _ found supplier named
    have inForm : form.nodes.plain? id = some node :=
      (plain?_furnished coherent id).symm.trans found
    have member := List.mem_of_find?_eq_some (Option.filter_eq_some_iff.1 inForm).1
    rw [NodeKind.supplierIds_eq] at named
    exact extended.sameNode coherent otherCoherent plain (linked node member supplier named)
  loaded := by
    intro transition serves
    obtain ⟨node, member, named⟩ := List.mem_map.1 (ScopeTree.mem_of_lastLoadFrom? built serves)
    exact extended.sameNode coherent otherCoherent plain
      (NodeStore.contains_of_mem coherent member named)
  members := (extended.members_eq coherent otherCoherent plain).symm
  pseudos := NodeStore.forall₂_pseudoIds (furnished_coherent coherent)
    (furnished_coherent otherCoherent)
    (extended.entriesIn_eq coherent otherCoherent plain listed otherPlain)

end ExtendsBeside

end Form

end FormFlow
