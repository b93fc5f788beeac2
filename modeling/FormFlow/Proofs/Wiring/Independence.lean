import FormFlow.Proofs.Wiring.Extension

/-!
# Steps are wired independently

All steps of a form share one store, one graph and one check for connections that are there
already. Still, what is made and connected for a step does not depend on the others. A connection
that another step asks for leads into a node of that step (`WiredForm.Registered.owner_of_consumer`)
and comes from no pseudo-node of a third (`WiredForm.Registered.scope_of_producer`). The edges at a
node of a step are therefore what is settled of the draft of that step alone
(`WiredForm.Registered.edges_at`).

A form extended beside a step (`Form.ExtendsBeside`) is wired alike at the step
(`WiredForm.wire_agreesOn`): it has the same pseudo-nodes there, and the same edges in the same
order, although pseudo-nodes have other identifiers and edges of other steps stand in between.
-/

set_option autoImplicit false

namespace FormFlow

open NodeSource

/-- Of a list of parts only one is not empty. -/
theorem flatMap_eq_of_only {α β : Type} {items : List α} (distinct : items.Nodup)
    {part : α → List β} {item : α} (listed : item ∈ items)
    (only : ∀ other ∈ items, other ≠ item → part other = []) :
    items.flatMap part = part item := by
  obtain ⟨before, after, rfl⟩ := List.append_of_mem listed
  have apart := (List.nodup_middle.1 distinct).notMem
  have others : ∀ other, other ∈ before ∨ other ∈ after → part other = [] := by
    intro other inside
    refine only other (by simp only [List.mem_append, List.mem_cons]; tauto) ?_
    rintro rfl
    exact apart (List.mem_append.2 inside)
  rw [List.flatMap_append, List.flatMap_cons,
    List.flatMap_eq_nil_iff.2 fun other inside => others other (.inl inside),
    List.flatMap_eq_nil_iff.2 fun other inside => others other (.inr inside), List.append_nil,
    List.nil_append]

namespace WiredForm

/-- A step of two wired forms has the same pseudo-nodes, made for the same nodes, and the edges at
them and into its references are the same in the same order, where pseudo-nodes go by their
identities and not by their identifiers. -/
structure AgreesOn (wired other : WiredForm) (step : NodeId) : Prop where
  definitions : ∀ identity : PseudoKey, identity.scope = step →
    wired.form.nodes.definition? identity = other.form.nodes.definition? identity
  pseudos : ∀ identity id same, identity.scope = step →
    wired.form.nodes.pseudo? identity = some id → other.form.nodes.pseudo? identity = some same →
      List.Forall₂ (Edge.Same wired.form.nodes other.form.nodes) (wired.graph.edgesTo id)
        (other.graph.edgesTo same) ∧
      List.Forall₂ (Edge.Same wired.form.nodes other.form.nodes) (wired.graph.edgesFrom id)
        (other.graph.edgesFrom same)
  references : ∀ node ∈ wired.form.nodes.nodes, node.kind.isReference = true →
    owningStep? wired.form.nodes node.id = some step →
      List.Forall₂ (Edge.Same wired.form.nodes other.form.nodes) (wired.graph.edgesTo node.id)
        (other.graph.edgesTo node.id)

namespace Registered

variable {form : Form} {config : WiringConfig} {wired : WiredForm}
  (registered : Registered form config wired) (coherent : form.nodes.Coherent)
include registered coherent

/-! ## What other steps connect -/

/-- A step connects nothing but its own nodes to what they read. -/
theorem owner_of_consumer (plain : form.Plain) {step : NodeId}
    (listed : step ∈ wired.scopes.steps) {c : Connection}
    (asked : .ok c ∈ Pass.stepDraft (context wired config step)) :
    owningStep? wired.form.nodes c.consumer = some step := by
  have collects := Pass.stepDraft_collects (registered.settled coherent
    (registered.unchanged coherent plain) plain.iterations step)
  by_contra elsewhere
  have nothing := collects.outside (registered.silent listed) c.triple
    fun ready => elsewhere ready.2.2
  obtain ⟨metadata, offered⟩ := Draft.exists_offer? asked
  cases nothing.symm.trans offered

/-- A step connects nodes to no pseudo-nodes but its own. -/
theorem scope_of_producer (bare : ∀ node ∈ form.nodes.nodes, node.kind.pseudo? = none)
    (linked : form.Linked) {step : NodeId} {c : Connection}
    (asked : .ok c ∈ Pass.stepDraft (context wired config step)) {definition : Pseudo}
    (isPseudo : wired.form.nodes.pseudoAt? c.producer = some definition) :
    definition.scope = step := by
  have outside : form.nodes.contains c.producer ≠ true := by
    intro known
    obtain ⟨node, found⟩ := Option.isSome_iff_exists.1 known
    rw [NodeStore.pseudoAt?, (registered.grows coherent).node?_of_found found, Option.bind_some,
      bare node (List.mem_of_find?_eq_some found)] at isPseudo
    cases isPseudo
  rcases registered.producer_of_asked coherent asked with
    ⟨own, known, here⟩ | inForm | ⟨_, _, _, draws⟩
  · cases isPseudo.symm.trans known
    exact here
  · exact absurd inForm outside
  · obtain ⟨owner, inside, link⟩ := draws.exists_owner
    rcases registered.mem_or_pseudo inside with own | ⟨other, isOther, _⟩
    · exact absurd (linked owner own _ link) outside
    · rw [isOther] at link
      cases link

/-- **The edges at a node that only one step connects are what is settled of that step.** -/
theorem edges_at {step : NodeId} (listed : step ∈ wired.scopes.steps) (stop : Triple → NodeId)
    {id : NodeId} (only : ∀ other ∈ wired.scopes.steps, ∀ c,
      .ok c ∈ Pass.stepDraft (context wired config other) → stop c.triple = id → other = step) :
    (wired.graph.edges.filter fun edge => stop edge.triple = id).map
        (fun edge => (edge.triple, edge.metadata)) =
      ((Pass.stepDraft (context wired config step)).connections.filter fun entry =>
        stop entry.1 = id).foldl settle [] := by
  have distinct : wired.scopes.steps.Nodup := by
    rw [Form.steps_eq registered.scopes]
    exact Form.nodup_steps coherent
  have drafted : Draft.connections
        (Pass.formDraft wired.form.nodes wired.scopes wired.membership config) =
      wired.scopes.steps.flatMap fun step =>
        (Pass.stepDraft (context wired config step)).connections := List.filterMap_flatMap
  have connected : wired.graph.connections =
      (wired.scopes.steps.flatMap fun step =>
        (Pass.stepDraft (context wired config step)).connections).foldl settle [] := by
    rw [registered.graph, Draft.connections_applyTo_silent registered.drafted, drafted]
    rfl
  have moved : (wired.graph.edges.filter fun edge => stop edge.triple = id).map
      (fun edge => (edge.triple, edge.metadata)) =
      wired.graph.connections.filter fun entry => stop entry.1 = id := by
    rw [DependencyGraph.connections, List.filter_map]
    rfl
  rw [moved, connected, filter_foldl_settle (fun triple => stop triple = id), List.filter_flatMap]
  congr 1
  refine flatMap_eq_of_only distinct listed fun other inside apart => ?_
  refine List.filter_eq_nil_iff.2 fun entry member meets => ?_
  obtain ⟨c, asked, rfl⟩ := Draft.mem_connections_iff.1 member
  exact apart (only other inside c asked (of_decide_eq_true meets))

end Registered

/-! ## Two wired forms -/

/-- Edges between the same nodes, as connections. -/
theorem forall₂_edges {store other : NodeStore} {edges others : List Edge}
    (all : List.Forall₂ (SameConnection (store.SameNode other))
      (edges.map fun edge => (edge.triple, edge.metadata))
      (others.map fun edge => (edge.triple, edge.metadata))) :
    List.Forall₂ (Edge.Same store other) edges others := by
  rw [List.forall₂_map_left_iff, List.forall₂_map_right_iff] at all
  exact all.imp fun edge like same => ⟨same.producer, same.consumer, same.role, same.metadata⟩

/-- A pseudo-node belongs to the step that is its scope. -/
theorem owningStep?_of_pseudoAt? {nodes : NodeStore} {id : NodeId} {definition : Pseudo}
    (known : nodes.pseudoAt? id = some definition) :
    owningStep? nodes id = some definition.scope := by
  have looked : ((node? nodes id).bind fun node => node.kind.pseudo?) = some definition := known
  rw [owningStep?, looked]

section

variable {form other : Form} {config : WiringConfig} {wired others : WiredForm} {step : NodeId}
  {seen : NodeId → Prop} (registered : Registered form config wired)
  (otherRegistered : Registered other config others) (coherent : form.nodes.Coherent)
  (otherCoherent : other.nodes.Coherent) (listed : step ∈ wired.scopes.steps)
  (otherListed : step ∈ others.scopes.steps)
  (lockstep : (Registered.context wired config step).Lockstep
    (Registered.context others config step) seen)
  {id same : NodeId} (alike : wired.form.nodes.SameNode others.form.nodes id same)
include registered otherRegistered coherent otherCoherent listed otherListed lockstep alike

/-- **A step that is drafted in lockstep in two forms has the same edges in the same order** at an
end of theirs, as far as no other step connects the node at this end. -/
theorem forall₂_edges_at (stop : Triple → NodeId) (moves : ∀ one two,
      SameConnection (wired.form.nodes.SameNode others.form.nodes) one two →
        wired.form.nodes.SameNode others.form.nodes (stop one.1) (stop two.1))
    (only : ∀ another ∈ wired.scopes.steps, ∀ c,
      .ok c ∈ Pass.stepDraft (Registered.context wired config another) →
        stop c.triple = id → another = step)
    (otherOnly : ∀ another ∈ others.scopes.steps, ∀ c,
      .ok c ∈ Pass.stepDraft (Registered.context others config another) →
        stop c.triple = same → another = step) :
    List.Forall₂ (Edge.Same wired.form.nodes others.form.nodes)
      (wired.graph.edges.filter fun edge => stop edge.triple = id)
      (others.graph.edges.filter fun edge => stop edge.triple = same) := by
  have biunique : ∀ {id another same like : NodeId},
      wired.form.nodes.SameNode others.form.nodes id same →
      wired.form.nodes.SameNode others.form.nodes another like → (id = another ↔ same = like) :=
    fun one two => one.biunique lockstep.coherent lockstep.otherCoherent two
  have tests : ∀ one two : Triple × EdgeMetadata,
      SameConnection (wired.form.nodes.SameNode others.form.nodes) one two →
        (decide (stop one.1 = id) = true ↔ decide (stop two.1 = same) = true) := by
    intro one two corresponds
    rw [decide_eq_true_iff, decide_eq_true_iff]
    exact biunique (moves one two corresponds) alike
  have drafts := Draft.connections_partners lockstep.stepDraft_partners
  refine forall₂_edges ?_
  rw [registered.edges_at coherent listed stop only,
    otherRegistered.edges_at otherCoherent otherListed stop otherOnly]
  refine forall₂_foldl_settle ?_ (List.rel_filter tests drafts)
  intro one two like another first second
  rw [Triple.eq_iff, @Triple.eq_iff like.1, first.role, second.role]
  exact and_congr (biunique first.producer second.producer)
    (and_congr_left' (biunique first.consumer second.consumer))

/-- The edges into a node of the step are the same. -/
theorem forall₂_edgesTo (plain : form.Plain) (otherPlain : other.Plain)
    (owned : owningStep? wired.form.nodes id = some step)
    (otherOwned : owningStep? others.form.nodes same = some step) :
    List.Forall₂ (Edge.Same wired.form.nodes others.form.nodes) (wired.graph.edgesTo id)
      (others.graph.edgesTo same) := by
  refine forall₂_edges_at registered otherRegistered coherent otherCoherent listed otherListed
    lockstep alike Triple.consumer (fun _ _ corresponds => corresponds.consumer) ?_ ?_
  · rintro another inside c asked rfl
    have owner := registered.owner_of_consumer coherent plain inside asked
    exact Option.some.inj (owner.symm.trans owned)
  · rintro another inside c asked rfl
    have owner := otherRegistered.owner_of_consumer otherCoherent otherPlain inside asked
    exact Option.some.inj (owner.symm.trans otherOwned)

/-- The edges out of a pseudo-node of the step are the same. -/
theorem forall₂_edgesFrom (plain : form.Plain) (otherPlain : other.Plain) (linked : form.Linked)
    (otherLinked : other.Linked) {definition like : Pseudo}
    (known : wired.form.nodes.pseudoAt? id = some definition) (here : definition.scope = step)
    (otherKnown : others.form.nodes.pseudoAt? same = some like) (there : like.scope = step) :
    List.Forall₂ (Edge.Same wired.form.nodes others.form.nodes) (wired.graph.edgesFrom id)
      (others.graph.edgesFrom same) := by
  refine forall₂_edges_at registered otherRegistered coherent otherCoherent listed otherListed
    lockstep alike Triple.producer (fun _ _ corresponds => corresponds.producer) ?_ ?_
  · rintro another _ c asked rfl
    have scope := registered.scope_of_producer coherent plain.pseudos linked asked known
    exact scope.symm.trans here
  · rintro another _ c asked rfl
    have scope := otherRegistered.scope_of_producer otherCoherent otherPlain.pseudos otherLinked
      asked otherKnown
    exact scope.symm.trans there

end

/-- **Steps are wired independently.** Nodes that are appended to a form and leave one of its steps
alone, whatever else they are, make no difference to what wiring makes of the step: its pseudo-nodes
are the same and made for the same nodes, and the edges into and out of them and into its references
are the same in the same order. -/
theorem wire_agreesOn {form other : Form} {config : WiringConfig} {wired others : WiredForm}
    {step : NodeId} {appended : List Node} (composed : form.Composed) (plain : form.Plain)
    (linked : form.Linked) (listed : step ∈ form.steps) (otherComposed : other.Composed)
    (otherPlain : other.Plain) (extended : form.ExtendsBeside other step appended)
    (wiring : wire form config = .ok wired) (otherWiring : wire other config = .ok others) :
    wired.AgreesOn others step := by
  have coherent := composed.spec.1
  have otherCoherent := otherComposed.spec.1
  have registered := wire_spec wiring
  have otherRegistered := wire_spec otherWiring
  have inTree : step ∈ wired.scopes.steps := by rwa [Form.steps_eq registered.scopes]
  have otherInTree : step ∈ others.scopes.steps := by
    rw [Form.steps_eq otherRegistered.scopes]
    exact extended.step_listed listed
  have lockstep : (Registered.context wired config step).Lockstep
      (Registered.context others config step) fun id => form.nodes.contains id = true := by
    rw [← registered.context_eq, ← otherRegistered.context_eq]
    exact extended.lockstep coherent otherCoherent plain listed otherPlain linked
      registered.scopes otherRegistered.scopes config
  have into {id same : NodeId} (alike : wired.form.nodes.SameNode others.form.nodes id same) :=
    forall₂_edgesTo registered otherRegistered coherent otherCoherent inTree otherInTree lockstep
      alike plain otherPlain
  refine ⟨fun identity here => ?_, ?_, ?_⟩
  · rw [registered.nodes_eq, otherRegistered.nodes_eq]
    exact extended.definition?_eq coherent otherCoherent plain listed otherPlain here
  · rintro identity id same here found there
    obtain ⟨definition, known, rfl⟩ := NodeStore.pseudoAt?_of_pseudo? lockstep.coherent found
    obtain ⟨like, alsoKnown, named⟩ := NodeStore.pseudoAt?_of_pseudo? lockstep.otherCoherent there
    have alsoHere : like.scope = step := (congrArg PseudoKey.scope named).trans here
    have alike : wired.form.nodes.SameNode others.form.nodes id same := .pseudo _ found there
    exact ⟨into alike (here ▸ owningStep?_of_pseudoAt? known)
        (alsoHere ▸ owningStep?_of_pseudoAt? alsoKnown),
      forall₂_edgesFrom registered otherRegistered coherent otherCoherent inTree otherInTree
        lockstep alike plain otherPlain linked (extended.linked_all linked otherCoherent) known here
        alsoKnown alsoHere⟩
  · intro node member isReference owned
    rcases registered.mem_or_pseudo member with inForm | ⟨definition, isPseudo, _⟩
    · have found := NodeStore.node?_of_mem coherent inForm
      have upright := plain.wellPlaced.upright
      have alike := extended.sameNode coherent otherCoherent plain
        (NodeStore.contains_of_mem coherent inForm rfl)
      have shown := extended.shows_furnished coherent otherCoherent plain
      rw [← otherRegistered.nodes_eq] at shown alike
      rw [← registered.nodes_eq] at alike
      refine into alike owned ?_
      rw [shown.owningStep?_eq upright found,
        ← (registered.grows coherent).shows.owningStep?_eq upright found]
      exact owned
    · rw [isPseudo] at isReference
      cases isReference

/-! A step of a journey that loads, before and after another step gets a field and a third step,
which loads on its own, is added. -/

namespace Visit

def form : Form :=
  List.foldl Form.Call.applyTo (.empty "visit") [.addJourney none "visit", .addStep ⟨0⟩ "/when",
    .addField ⟨1⟩ "day" "date", .addStep ⟨0⟩ "/who", .addField ⟨3⟩ "name" "text",
    .addFormatter ⟨4⟩ "trim", .addReference ⟨3⟩ ["answers", "name"],
    .addReference ⟨3⟩ ["answers", "day"], .addTransition ⟨0⟩ .load]

def other : Form :=
  List.foldl Form.Call.applyTo form [.addField ⟨1⟩ "hour" "text", .addStep ⟨0⟩ "/where",
    .addReference ⟨10⟩ ["answers", "name"], .addTransition ⟨10⟩ .load]

theorem composed : form.Composed := (Form.Composed.empty "visit").calls _

theorem otherComposed : other.Composed := composed.calls _

theorem plain : form.Plain :=
  .ofNodes NodeId.val (by decide) (by decide) (by decide) (by decide) (by decide)

theorem otherPlain : other.Plain :=
  .ofNodes NodeId.val (by decide) (by decide) (by decide) (by decide) (by decide)

theorem linked : form.Linked := by
  unfold Form.Linked
  decide

theorem extended : form.ExtendsBeside other ⟨3⟩ (other.nodes.nodes.drop 9) where
  nodes := rfl
  linked := by decide
  elsewhere := by decide
  loads := by decide

def wired : WiredForm := (wire form .default).toOption.getD default

def others : WiredForm := (wire other .default).toOption.getD default

/-- The answer from the other step has a later identifier and there are more edges, but those of the
step are the same. -/
theorem who_agrees : form.ExtendsBeside other ⟨3⟩ (other.nodes.nodes.drop 9) ∧
    wire form .default = .ok wired ∧ wire other .default = .ok others ∧
    wired.AgreesOn others ⟨3⟩ ∧
    wired.form.nodes.pseudo? ⟨.answerRemote, ⟨3⟩, "day"⟩ = some ⟨13⟩ ∧
    others.form.nodes.pseudo? ⟨.answerRemote, ⟨3⟩, "day"⟩ = some ⟨19⟩ ∧
    wired.graph.edges.length = 8 ∧ others.graph.edges.length = 12 := by
  have wiring : wire form .default = .ok wired := rfl
  have otherWiring : wire other .default = .ok others := rfl
  have agrees := wire_agreesOn composed plain linked (by decide) otherComposed otherPlain extended
    wiring otherWiring
  exact ⟨extended, wiring, otherWiring, agrees, rfl, rfl, rfl, rfl⟩

end Visit

end WiredForm

end FormFlow
