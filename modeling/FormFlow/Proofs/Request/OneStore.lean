import FormFlow.Proofs.Request.Flattening
import FormFlow.Proofs.Request.Isolation
import FormFlow.Proofs.Request.Mirror

/-!
# The nodes of a request as one store

The nodes of a form and those of a request over it are read as one store, and pseudo-nodes are
looked up and made as in one store (`RequestScope.layers_agree`).

No identity is in both stores: a pseudo-node is made where neither has its identity, and copies
are no pseudo-nodes. For the latter it matters that pseudo-nodes stand under steps. A template
that has a step in it cannot be copied, since the copy of the step is no step of the form and
cannot be wired (`RequestScope.Instance.plain_of_new`).
-/

set_option autoImplicit false

namespace FormFlow

open NodeSource

namespace NodeKind

/-- A copy is a pseudo-node only if what is copied is one. -/
theorem pseudo?_copy {kind : NodeKind} (plain : kind.pseudo? = none) (scheme : Renaming)
    (direct : Bool) (map : NodeId → NodeId) :
    (scheme.apply direct (kind.remapIds map)).pseudo? = none := by
  cases kind with
  | pseudo definition => cases plain
  | field definition => cases direct <;> rfl
  | collection definition => cases direct <;> rfl
  | reference expression =>
    unfold remapIds Renaming.apply
    dsimp only
    split <;> rfl
  | _ => rfl

/-- The copy of a step is a step. -/
theorem isStep_copy {kind : NodeKind} (isStep : kind.isStep = true) (scheme : Renaming)
    (direct : Bool) (map : NodeId → NodeId) :
    (scheme.apply direct (kind.remapIds map)).isStep = true := by
  cases kind <;> first | rfl | cases isStep

end NodeKind

/-- A step belongs to itself, if to any. -/
theorem NodeSource.owningStep?_of_isStep {σ : Type} [NodeSource σ] [LawfulSource σ] {nodes : σ}
    {id step : NodeId} {node : Node} (found : node? nodes id = some node)
    (isStep : node.kind.isStep = true) (owned : owningStep? nodes id = some step) : step = id := by
  have plain : node.kind.pseudo? = none := by
    cases kind : node.kind <;> rw [kind] at isStep <;> first | rfl | cases isStep
  rw [owningStep?, found, Option.bind_some, plain] at owned
  obtain ⟨outer, enclosing, rfl⟩ := Option.map_eq_some_iff.1 owned
  rw [enclosing?, lineage] at enclosing
  cases bound : size nodes with
  | zero =>
    rw [bound] at enclosing
    cases enclosing
  | succ fuel =>
    rw [bound, climb, found] at enclosing
    dsimp only at enclosing
    rw [List.find?_cons_of_pos (p := fun node : Node => node.kind.isStep) isStep] at enclosing
    cases enclosing
    exact LawfulSource.id_of_node? _ _ _ found

/-- Pseudo-nodes stand under steps. -/
def NodeSource.PseudosInSteps {σ : Type} [NodeSource σ] (nodes : σ) : Prop :=
  ∀ id node definition, node? nodes id = some node → node.kind = .pseudo definition →
    ∃ step outer, node.parent = some step ∧ node? nodes step = some outer ∧
      outer.kind.isStep = true

namespace Synthesis

/-- What is made has an identity that the lower store does not have. -/
theorem run_unused {layers : Layered} {step : NodeId} {fields references repeated : List NodeId}
    {made : State Layered} (ran : run layers step fields references repeated = made) :
    made.nodes.base = layers.base ∧ ∀ node ∈ made.nodes.overlay.nodes,
      node ∈ layers.overlay.nodes ∨ ∀ identity, node.identity? = some identity →
        layers.base.pseudo? identity = none := by
  subst ran
  refine run_induction (P := fun (state : State Layered) => state.nodes.base = layers.base ∧
    ∀ node ∈ state.nodes.overlay.nodes, node ∈ layers.overlay.nodes ∨
      ∀ identity, node.identity? = some identity → layers.base.pseudo? identity = none)
    ?_ ⟨rfl, fun node member => .inl member⟩ fields references repeated
  rintro ⟨⟨base, overlay⟩, created⟩ identity origin _ ⟨rfl, known⟩
  change (Layered.locate ⟨layers.base, overlay⟩ identity origin).nodes.base = layers.base ∧
    ∀ node ∈ (Layered.locate ⟨layers.base, overlay⟩ identity origin).nodes.overlay.nodes, _
  rw [Layered.locate]
  cases lower : layers.base.pseudo? identity with
  | some existing => exact ⟨rfl, known⟩
  | none =>
    refine ⟨rfl, fun node member => ?_⟩
    dsimp only at member
    cases upper : overlay.pseudo? identity with
    | some existing =>
      rw [NodeStore.locate_of_present upper] at member
      exact known node member
    | none =>
      rw [NodeStore.locate_of_absent upper] at member
      rcases List.mem_append.1 member with old | new
      · exact known node old
      · cases List.mem_singleton.1 new
        right
        rintro other own
        cases own
        exact lower

end Synthesis

namespace RequestScope

namespace Instance

variable {wired : WiredForm} {overlay after : Overlay} {template : Template} {scheme : Renaming}
  {index : Nat} {complete : NodeStore} {state : Synthesis.State Layered}
  (made : Instance wired overlay after template scheme index complete state)
  (coherent : wired.form.nodes.Coherent) (anchored : wired.form.nodes.Anchored overlay.nodes)
include made coherent anchored

theorem grows_after : NodeStore.Grows overlay.nodes.nextId overlay.nodes after.nodes := by
  obtain ⟨outer, found, _⟩ := made.exists_step coherent anchored
  obtain ⟨_, _, grows⟩ :=
    Synthesis.run_outgrows coherent made.anchored ⟨outer, found⟩ _ _ _ made.run_eq
  rw [made.store]
  exact made.grows.trans (grows.mono made.grows.nextId_le)

variable (steps : ∀ id, wired.scopes.isStep id = true → id.val < wired.form.nodes.nextId)
include steps

/-- There is no step among the copies: it could not be wired. -/
theorem noStep_of_new {node : Node} (member : node ∈ newNodes template scheme index overlay.nodes) :
    node.kind.isStep = false := by
  by_contra isStep
  rw [Bool.not_eq_false] at isStep
  have inside : node.id ∈ batchOf template scheme index overlay.nodes ++ state.created :=
    List.mem_append_left _ (List.mem_map_of_mem member)
  have found : node? state.nodes node.id = some node := by
    rw [← made.layers_eq coherent anchored]
    exact (made.supplied coherent anchored).1.node _ _ (made.node?_of_new member)
  have ready : Pass.isReady state.nodes node.id = true := by
    have deferred : isDeferred node.kind = false := by
      cases kind : node.kind <;> rw [kind] at isStep <;> first | rfl | cases isStep
    rw [Pass.isReady, found]
    dsimp only
    rw [awaitsIteration, deferred]
    rfl
  obtain ⟨⟨step, _, owned, listed⟩, _⟩ := (Pass.wireNodes_spec made.reports).1 _ inside ready
  have same := owningStep?_of_isStep found isStep owned
  have low := steps step listed
  have high := (made.mem_batch coherent anchored inside).1
  have above := anchored.above
  rw [same] at low
  omega

/-- The iteration and the copies are no pseudo-nodes. -/
theorem plain_of_new (stepped : PseudosInSteps (layersOver wired overlay)) {node : Node}
    (member : node ∈ newNodes template scheme index overlay.nodes) : node.kind.pseudo? = none := by
  rcases eq_or_copyFor member with rfl | ⟨entry, known, rfl⟩
  · rfl
  · refine NodeKind.pseudo?_copy ?_ scheme _ _
    by_contra some
    obtain ⟨definition, isPseudo⟩ := Option.ne_none_iff_exists'.1 some
    obtain ⟨step, outer, contained, present, isStep⟩ := stepped _ _ definition
      (made.iterable.found coherent anchored known) (NodeKind.pseudo?_eq_some_iff.1 isPseudo)
    obtain ⟨before, later, split⟩ := List.append_of_mem known
    obtain ⟨parent, above, place⟩ := made.iterable.listed.under before entry later split
    cases contained.symm.trans above
    rcases place with rfl | earlier
    · obtain ⟨top, _, there, isCollection, _⟩ := made.iterable.collection
      cases present.symm.trans there
      rw [isCollection] at isStep
      cases isStep
    · obtain ⟨other, listed, rfl⟩ := List.mem_map.1 earlier
      have inside : other ∈ template.nodes := split ▸ List.mem_append_left _ listed
      cases present.symm.trans (made.iterable.found coherent anchored inside)
      have copied := made.noStep_of_new coherent anchored steps
        (copyFor_mem inside scheme index overlay.nodes)
      rw [copyFor, copyNode, NodeKind.isStep_copy isStep] at copied
      cases copied

end Instance

/-! ## Requests that can be put into one store -/

/-- The nodes of a request came behind those of the form, none has an identity of the form, and
all pseudo-nodes stand under steps. -/
structure Separate (request : RequestScope) : Prop where
  anchored : request.wired.form.nodes.Anchored request.overlay.nodes
  grown : NodeStore.Grows request.wired.form.nodes.nextId
    (.startingAt request.wired.form.nodes.nextId) request.overlay.nodes
  unused : ∀ node ∈ request.overlay.nodes.nodes, ∀ identity, node.identity? = some identity →
    request.wired.form.nodes.pseudo? identity = none
  stepped : PseudosInSteps request.layers

theorem Separate.materialize {request : RequestScope} (coherent : request.wired.form.nodes.Coherent)
    (steps : ∀ id, request.wired.scopes.isStep id = true →
      id.val < request.wired.form.nodes.nextId)
    (separate : Separate request) (collection : NodeId) (index : Nat) :
    Separate (request.materialize collection index).1 := by
  have anchored := separate.anchored
  rcases instance_cases coherent anchored collection index with
    same | ⟨after, template, scheme, complete, state, record, made, done⟩
  · rw [same]
    exact separate
  · rw [done]
    have plain : ∀ node ∈ newNodes template scheme index request.overlay.nodes,
        node.kind.pseudo? = none :=
      fun _ => made.plain_of_new coherent anchored steps separate.stepped
    refine
      { anchored := made.anchored_after coherent anchored
        grown := separate.grown.trans ((made.grows_after coherent anchored).mono anchored.above)
        unused := ?_
        stepped := ?_ }
    · intro node member identity own
      change node ∈ after.nodes.nodes at member
      rw [made.store] at member
      rcases (Synthesis.run_unused made.run_eq).2 node member with old | created
      · change node ∈ complete.nodes at old
        rw [made.nodes] at old
        rcases List.mem_append.1 old with earlier | new
        · exact separate.unused node earlier identity own
        · rw [Node.identity?, plain node new] at own
          cases own
      · exact created identity own
    · intro id node definition found isPseudo
      have shown := made.shows_after coherent anchored
      have isOne : node.kind.pseudo? = some definition := NodeKind.pseudo?_eq_some_iff.2 isPseudo
      rcases made.old_or_made coherent anchored found with known | ⟨_, contained⟩
      · rcases made.old_or_new coherent anchored known with old | new
        · obtain ⟨step, outer, contained, present, isStep⟩ :=
            separate.stepped id node definition old isPseudo
          exact ⟨step, outer, contained, shown.node _ _ present, isStep⟩
        · rw [plain node new] at isOne
          cases isOne
      · obtain ⟨outer, present, isStep⟩ := made.exists_step coherent anchored
        exact ⟨_, outer, contained, (made.supplied coherent anchored).1.node _ _ present, isStep⟩

section

variable {form : Form} {config : WiringConfig} {wired : WiredForm}
  (registered : WiredForm.Registered form config wired) (coherent : form.nodes.Coherent)
include registered coherent

/-- The steps of a form are nodes of it. -/
theorem step_lt_nextId (id : NodeId) (listed : wired.scopes.isStep id = true) :
    id.val < wired.form.nodes.nextId := by
  obtain ⟨node, there, _, rfl⟩ := (ScopeTree.mem_steps_build registered.scopes).1
    ((ScopeTree.isStep_iff_mem_steps coherent.nodup registered.scopes).1 listed)
  exact Nat.lt_of_lt_of_le (coherent.below node there) (registered.grows coherent).nextId_le

theorem separate_start (plain : ∀ node ∈ form.nodes.nodes, node.kind.pseudo? = none) :
    Separate (start wired) where
  anchored := NodeStore.anchored_startingAt _
  grown := .refl
  unused := nofun
  stepped := by
    intro id node definition found isPseudo
    change node? wired.form.nodes id = some node at found
    rcases registered.form_or_pseudo coherent found with known | ⟨_, _, step, listed, contained⟩
    · have none := plain node ((NodeStore.node?_eq_some_iff coherent).1 known).1
      rw [isPseudo] at none
      cases none
    · obtain ⟨outer, there, isStep, rfl⟩ := (ScopeTree.mem_steps_build registered.scopes).1 listed
      exact ⟨_, outer, contained, (registered.grows coherent).node?_of_found
        (NodeStore.node?_of_mem coherent there), isStep⟩

theorem Reachable.separate (plain : ∀ node ∈ form.nodes.nodes, node.kind.pseudo? = none)
    {request : RequestScope} (reached : Reachable wired request) :
    request.wired = wired ∧ Separate request := by
  have later := registered.coherent coherent
  have steps := step_lt_nextId registered coherent
  induction reached with
  | start => exact ⟨rfl, separate_start registered coherent plain⟩
  | @materialize request collection index before ih =>
    obtain ⟨same, separate⟩ := ih
    have kept := ((before.materialize collection index).anchored later).1
    subst same
    exact ⟨kept, separate.materialize later steps collection index⟩
  | answer answers _ ih =>
    obtain ⟨same, separate⟩ := ih
    exact ⟨same, separate.anchored, separate.grown, separate.unused, separate.stepped⟩

end

/-- **The nodes of a form and of a request over it are read as one store**, whatever was asked of
the request before, if the form had no pseudo-nodes before it was wired. The nodes of the request
can be inserted into the store of the form, one by one. All that can be read of the two is read of
the one, and this stays so however many pseudo-nodes are then looked up, in both alike: the same
ones are found, and the same ones are made. -/
theorem layers_agree {form : Form} {config : WiringConfig} {wired : WiredForm}
    (built : form.Built) (plain : ∀ node ∈ form.nodes.nodes, node.kind.pseudo? = none)
    (wiring : WiredForm.wire form config = .ok wired) {request : RequestScope}
    (reached : Reachable wired request) :
    ∃ flat, insertAll request.overlay.nodes.nodes request.wired.form.nodes = (flat, none) ∧
      ∀ wanted : List (PseudoKey × Option NodeId),
        (PseudoSink.locateAll request.layers wanted).2 = (PseudoSink.locateAll flat wanted).2 ∧
        Layered.Agrees (PseudoSink.locateAll request.layers wanted).1
          (PseudoSink.locateAll flat wanted).1 := by
  have registered := WiredForm.wire_spec wiring
  have coherent := registered.coherent built.coherent
  obtain ⟨rfl, separate⟩ := reached.separate registered built.coherent plain
  refine ⟨_, insertAll_eq_flatten coherent separate.grown separate.unused, fun wanted => ?_⟩
  have apart := (Layered.Apart.ofAnchored coherent separate.anchored).locateAll wanted
  rw [Layered.locateAll_flatten]
  exact ⟨rfl, apart.agrees⟩

/-! ### A collection in a collection, and a call that fails -/

namespace Lines

def form : Form :=
  ⟨"shop", {
    nodes := [
      ⟨⟨0⟩, none, .journey "shop"⟩,
      ⟨⟨1⟩, some ⟨0⟩, .step "/orders"⟩,
      ⟨⟨2⟩, some ⟨1⟩, .collection ⟨"order", none⟩⟩,
      ⟨⟨3⟩, some ⟨2⟩, .reference ⟨["query", "page"]⟩⟩,
      ⟨⟨4⟩, some ⟨2⟩, .collection ⟨"line", none⟩⟩,
      ⟨⟨5⟩, some ⟨4⟩, .field ⟨"goods", "text", [], none⟩⟩]
    containment := [(⟨0⟩, ⟨1⟩), (⟨1⟩, ⟨2⟩), (⟨2⟩, ⟨3⟩), (⟨2⟩, ⟨4⟩), (⟨4⟩, ⟨5⟩)]
    references := [⟨3⟩]
    identities := []
    nextId := 6 }⟩

theorem built : form.Built := by
  have journey := Form.Built.addJourney (.empty "shop")
    (rfl : Form.addJourney _ none "shop" = .ok (_, ⟨0⟩))
  have step := journey.addStep (rfl : Form.addStep _ ⟨0⟩ "/orders" = .ok (_, ⟨1⟩))
  have outer := step.addCollection
    (rfl : Form.addCollection _ ⟨1⟩ "order" none = .ok (_, ⟨2⟩))
  have query := outer.addReference
    (rfl : Form.addReference _ ⟨2⟩ ["query", "page"] = .ok (_, ⟨3⟩))
  have inner := query.addCollection
    (rfl : Form.addCollection _ ⟨2⟩ "line" none = .ok (_, ⟨4⟩))
  exact inner.addField (rfl : Form.addField _ ⟨4⟩ "goods" "text" = .ok (_, ⟨5⟩))

def wired : WiredForm := (WiredForm.wire form .default).toOption.getD default

/-- The request after an order, a refused line of the template, and a line of the order. -/
def request : RequestScope :=
  ((((start wired).materialize ⟨2⟩ 0).1.materialize ⟨4⟩ 0).1.materialize ⟨9⟩ 0).1

theorem reached : Reachable wired request :=
  .materialize ⟨9⟩ 0 (.materialize ⟨4⟩ 0 (.materialize ⟨2⟩ 0 .start))

/-- What the query holds, which is there, and a value that is asked for twice. -/
def wanted : List (PseudoKey × Option NodeId) :=
  [(⟨.query, ⟨1⟩, "page"⟩, none), (⟨.data, ⟨1⟩, "goods"⟩, none), (⟨.data, ⟨1⟩, "goods"⟩, none)]

theorem request_flat : ∃ flat,
    insertAll request.overlay.nodes.nodes wired.form.nodes = (flat, none) ∧
      (PseudoSink.locateAll flat wanted).2 = [(⟨11⟩, false), (⟨19⟩, true), (⟨19⟩, false)] := by
  obtain ⟨flat, inserted, agrees⟩ := layers_agree built (by decide)
    (rfl : WiredForm.wire form .default = .ok wired) reached
  refine ⟨flat, inserted, ?_⟩
  rw [← (agrees wanted).1]
  rfl

end Lines

end RequestScope

end FormFlow
