import FormFlow.Form.ScopeTree
import FormFlow.Proofs.Form.Composed
import FormFlow.Proofs.Form.Placement

/-!
# Forms that calls make

A form that starts empty and goes through calls of its own, none of them on the store, stays in
order (`Form.Made.orderly`): a node stands in an older one, scopes in journeys and transitions in
scopes, and there is neither a pseudo-node nor an iteration. One node is added at a time, and a call
that links a node to another leaves it the sort of node that it was (`NodeKind.SameSort`).

Such a form is plain (`Form.Made.plain`), and its scopes can be told (`Form.Made.exists_scopes`).
-/

set_option autoImplicit false

namespace FormFlow

open NodeSource

/-- Kinds that stand in the same places and can have the same nodes in them. -/
structure NodeKind.SameSort (kind other : NodeKind) : Prop where
  pseudo : kind.pseudo? = other.pseudo?
  iteration : kind.isIteration = other.isIteration
  journey : kind.isJourney = other.isJourney
  step : kind.isStep = other.isStep
  transition : kind.isTransition = other.isTransition

namespace NodeKind.SameSort

theorem refl (kind : NodeKind) : SameSort kind kind := ⟨rfl, rfl, rfl, rfl, rfl⟩

theorem scope {kind other : NodeKind} (same : SameSort kind other) :
    kind.isScope = other.isScope := by
  rw [isScope, isScope, same.journey, same.step]

theorem withFormatter (formatter : NodeId) (kind : NodeKind) :
    SameSort (Form.withFormatter formatter kind) kind := by
  cases kind <;> exact ⟨rfl, rfl, rfl, rfl, rfl⟩

theorem withDefault (expression : NodeId) (kind : NodeKind) :
    SameSort (Form.withDefault expression kind) kind := by
  cases kind <;> exact ⟨rfl, rfl, rfl, rfl, rfl⟩

theorem withEffect (effect : NodeId) (kind : NodeKind) :
    SameSort (Form.withEffect effect kind) kind := by
  cases kind <;> exact ⟨rfl, rfl, rfl, rfl, rfl⟩

end NodeKind.SameSort

/-- A node of one kind may stand in a node of another: scopes in journeys, and transitions in
scopes. -/
structure NodeKind.Fits (kind outer : NodeKind) : Prop where
  scope : kind.isScope = true → outer.isJourney = true
  transition : kind.isTransition = true → outer.isScope = true

namespace NodeStore

/-- Nodes in an order in which each stands in an older one that it fits into, transitions in any
case, and of which none is a pseudo-node or an iteration. -/
structure Orderly (store : NodeStore) : Prop where
  pseudos : ∀ node ∈ store.nodes, node.kind.pseudo? = none
  iterations : ∀ node ∈ store.nodes, node.kind.isIteration = false
  parents : ∀ node ∈ store.nodes, ∀ parent, node.parent = some parent →
    ∃ outer ∈ store.nodes, outer.id = parent ∧ parent.val < node.id.val ∧
      node.kind.Fits outer.kind
  transitions : ∀ node ∈ store.nodes, node.kind.isTransition = true → node.parent.isSome = true

namespace Orderly

variable {store : NodeStore} (orderly : store.Orderly) (coherent : store.Coherent)
include orderly coherent

/-- A new node is younger than the one it is put into. -/
theorem push {parent : Option NodeId} {kind : NodeKind} (noPseudo : kind.pseudo? = none)
    (noIteration : kind.isIteration = false)
    (fits : ∀ id, parent = some id → ∃ outer ∈ store.nodes, outer.id = id ∧ kind.Fits outer.kind)
    (inside : kind.isTransition = true → parent.isSome = true) :
    (store.push ⟨⟨store.nextId⟩, parent, kind⟩).Orderly where
  pseudos := List.forall_mem_append.2 ⟨orderly.pseudos, List.forall_mem_singleton.2 noPseudo⟩
  iterations :=
    List.forall_mem_append.2 ⟨orderly.iterations, List.forall_mem_singleton.2 noIteration⟩
  parents := by
    refine List.forall_mem_append.2 ⟨?_, List.forall_mem_singleton.2 ?_⟩
    · intro node member parent contained
      obtain ⟨outer, there, known⟩ := orderly.parents node member parent contained
      exact ⟨outer, List.mem_append_left _ there, known⟩
    · rintro _ contained
      obtain ⟨outer, there, rfl, fits⟩ := fits _ contained
      exact ⟨outer, List.mem_append_left _ there, rfl, coherent.below outer there, fits⟩
  transitions := List.forall_mem_append.2 ⟨orderly.transitions, List.forall_mem_singleton.2 inside⟩

/-- A node may change within its sort. -/
theorem setKind {changed : NodeStore} {id : NodeId} {node : Node} {kind : NodeKind}
    (found : store.node? id = some node) (same : kind.SameSort node.kind)
    (set : store.setKind id kind = .ok changed) : changed.Orderly := by
  let change : Node → Node := fun node => if node.id = id then { node with kind } else node
  have nodes : changed.nodes = store.nodes.map change := by
    rw [NodeStore.setKind] at set
    split at set
    · cases set
      rfl
    · cases set
  have sorts : ∀ other ∈ store.nodes, (change other).id = other.id ∧
      (change other).parent = other.parent ∧ (change other).kind.SameSort other.kind := by
    intro other member
    by_cases here : other.id = id
    · obtain rfl : other = node := Option.some.inj
        ((node?_of_mem coherent member).symm.trans (here ▸ found))
      rw [show change other = { other with kind } from if_pos here]
      exact ⟨rfl, rfl, same⟩
    · rw [show change other = other from if_neg here]
      exact ⟨rfl, rfl, .refl _⟩
  refine ⟨?_, ?_, ?_, ?_⟩ <;> rw [nodes] <;> refine List.forall_mem_map.2 fun other member => ?_ <;>
    obtain ⟨ids, above, sort⟩ := sorts other member
  · rw [sort.pseudo]
    exact orderly.pseudos other member
  · rw [sort.iteration]
    exact orderly.iterations other member
  · rw [ids, above]
    intro parent contained
    obtain ⟨outer, there, rfl, older, fits⟩ := orderly.parents other member parent contained
    obtain ⟨outerId, -, outerSort⟩ := sorts outer there
    refine ⟨_, List.mem_map_of_mem there, outerId, older, ?_, ?_⟩
    · rw [sort.scope, outerSort.journey]
      exact fits.scope
    · rw [sort.transition, outerSort.scope]
      exact fits.transition
  · rw [sort.transition, above]
    exact orderly.transitions other member

end Orderly

end NodeStore

namespace Form

/-- A form that was empty at first, after any calls of its own. -/
inductive Made : Form → Prop where
  | empty (code : String) : Made (.empty code)
  | call {form : Form} (call : Call) (own : ∀ operation, call ≠ .onStore operation) :
    Made form → Made (call.applyTo form)

theorem Made.composed {form : Form} (made : form.Made) : form.Composed := by
  induction made with
  | empty code => exact .empty code
  | call call _ _ ih => exact ih.call call

section

variable {form next : Form} {id : NodeId} {kind : NodeKind}

theorem exists_of_requireKind {expected : String} {test : NodeKind → Bool}
    (passed : form.requireKind id expected test = .ok ()) :
    ∃ outer ∈ form.nodes.nodes, outer.id = id ∧ test outer.kind = true := by
  obtain ⟨outer, found, passed⟩ := Except.bind_eq_ok_iff.1 passed
  have present : form.nodes.node? id = some outer := NodeSource.node?_of_get found
  refine ⟨outer, List.mem_of_find?_eq_some present, NodeStore.id_eq_of_node? present, ?_⟩
  cases passes : test outer.kind with
  | true => rfl
  | false =>
    rw [passes] at passed
    cases passed

theorem exists_of_requireNode (passed : form.requireNode id = .ok ()) :
    ∃ outer ∈ form.nodes.nodes, outer.id = id := by
  obtain ⟨outer, found, -⟩ := Except.bind_eq_ok_iff.1 passed
  have present : form.nodes.node? id = some outer := NodeSource.node?_of_get found
  exact ⟨outer, List.mem_of_find?_eq_some present, NodeStore.id_eq_of_node? present⟩

variable (orderly : form.nodes.Orderly) (coherent : form.nodes.Coherent)
include orderly coherent

theorem orderly_insert {parent : Option NodeId} (noPseudo : kind.pseudo? = none)
    (noIteration : kind.isIteration = false)
    (fits : ∀ id, parent = some id →
      ∃ outer ∈ form.nodes.nodes, outer.id = id ∧ kind.Fits outer.kind)
    (inside : kind.isTransition = true → parent.isSome = true)
    (called : form.insert parent kind = .ok (next, id)) : next.nodes.Orderly := by
  obtain ⟨⟨nodes, other⟩, inserted, same⟩ := Except.bind_eq_ok_iff.1 called
  cases same
  obtain ⟨-, -, rfl⟩ := NodeStore.insert_eq_ok_iff.1 inserted
  exact orderly.push coherent noPseudo noIteration fits inside

/-- What fits in everywhere can be put under any node. -/
theorem orderly_insertUnder {parent : NodeId} (noPseudo : kind.pseudo? = none)
    (noIteration : kind.isIteration = false) (noScope : kind.isScope = false)
    (noTransition : kind.isTransition = false)
    (called : form.insertUnder parent kind = .ok (next, id)) : next.nodes.Orderly := by
  obtain ⟨_, passed, inserted⟩ := Except.bind_eq_ok_iff.1 called
  refine orderly_insert orderly coherent noPseudo noIteration ?_ (fun _ => rfl) inserted
  rintro _ ⟨⟩
  obtain ⟨outer, there, named⟩ := exists_of_requireNode passed
  refine ⟨outer, there, named, ?_, ?_⟩
  · rw [noScope]
    nofun
  · rw [noTransition]
    nofun

theorem orderly_insertUnderKind {parent : NodeId} {expected : String} {test : NodeKind → Bool}
    (noPseudo : kind.pseudo? = none) (noIteration : kind.isIteration = false)
    (fits : ∀ outer : NodeKind, test outer = true → kind.Fits outer)
    (called : form.insertUnderKind parent expected test kind = .ok (next, id)) :
    next.nodes.Orderly := by
  obtain ⟨_, passed, inserted⟩ := Except.bind_eq_ok_iff.1 called
  refine orderly_insert orderly coherent noPseudo noIteration ?_ (fun _ => rfl) inserted
  rintro _ ⟨⟩
  obtain ⟨outer, there, named, passes⟩ := exists_of_requireKind passed
  exact ⟨outer, there, named, fits outer.kind passes⟩

theorem orderly_modifyKind {change : NodeKind → NodeKind}
    (keeps : ∀ kind, (change kind).SameSort kind)
    (called : form.modifyKind id change = .ok next) : next.nodes.Orderly := by
  obtain ⟨node, found, set⟩ := Except.bind_eq_ok_iff.1 called
  obtain ⟨nodes, changed, same⟩ := Except.bind_eq_ok_iff.1 set
  cases same
  exact orderly.setKind coherent (NodeSource.node?_of_get found : form.nodes.node? id = some node)
    (keeps node.kind) changed

/-- A call of a form keeps its nodes in order. -/
theorem Call.orderly_run {call : Call} (own : ∀ operation, call ≠ .onStore operation)
    (called : call.run form = .ok next) : next.nodes.Orderly := by
  have inJourney : ∀ {kind : NodeKind}, kind.isTransition = false →
      ∀ outer : NodeKind, outer.isJourney = true → kind.Fits outer := by
    intro kind noTransition outer isJourney
    refine ⟨fun _ => isJourney, ?_⟩
    rw [noTransition]
    nofun
  cases call with
  | addJourney parent code =>
    obtain ⟨id, called⟩ := exists_of_map_fst called
    cases parent with
    | none =>
      refine orderly_insert orderly coherent rfl rfl ?_ ?_ called
      · rintro _ ⟨⟩
      · rintro ⟨⟩
    | some outer => exact orderly_insertUnderKind orderly coherent rfl rfl (inJourney rfl) called
  | addStep journey path =>
    obtain ⟨id, called⟩ := exists_of_map_fst called
    exact orderly_insertUnderKind orderly coherent rfl rfl (inJourney rfl) called
  | addBlock parent variant =>
    obtain ⟨id, called⟩ := exists_of_map_fst called
    exact orderly_insertUnder orderly coherent rfl rfl rfl rfl called
  | addCollection parent code source =>
    obtain ⟨id, called⟩ := exists_of_map_fst called
    obtain ⟨_, passed, called⟩ := Except.bind_eq_ok_iff.1 called
    obtain ⟨_, -, called⟩ := Except.bind_eq_ok_iff.1 called
    have under : form.insertUnder parent (.collection ⟨code, source⟩) = .ok (next, id) :=
      Except.bind_eq_ok_iff.2 ⟨_, passed, called⟩
    exact orderly_insertUnder orderly coherent rfl rfl rfl rfl under
  | addField parent code variant =>
    obtain ⟨id, called⟩ := exists_of_map_fst called
    exact orderly_insertUnder orderly coherent rfl rfl rfl rfl called
  | addReference parent path =>
    obtain ⟨id, called⟩ := exists_of_map_fst called
    exact orderly_insertUnder orderly coherent rfl rfl rfl rfl called
  | addFunction parent name arguments =>
    obtain ⟨id, called⟩ := exists_of_map_fst called
    exact orderly_insertUnder orderly coherent rfl rfl rfl rfl called
  | addLiteral parent value =>
    obtain ⟨id, called⟩ := exists_of_map_fst called
    exact orderly_insertUnder orderly coherent rfl rfl rfl rfl called
  | addFormatter field name =>
    obtain ⟨id, called⟩ := exists_of_map_fst called
    obtain ⟨_, -, called⟩ := Except.bind_eq_ok_iff.1 called
    obtain ⟨⟨extended, formatter⟩, function, called⟩ := Except.bind_eq_ok_iff.1 called
    obtain ⟨linked, changed, same⟩ := Except.bind_eq_ok_iff.1 called
    cases same
    exact orderly_modifyKind (orderly_insertUnder orderly coherent rfl rfl rfl rfl function)
      ((edited_insertUnder function).coherent coherent)
      (NodeKind.SameSort.withFormatter _) changed
  | setDefaultValue field expression =>
    obtain ⟨_, -, called⟩ := Except.bind_eq_ok_iff.1 called
    obtain ⟨_, -, changed⟩ := Except.bind_eq_ok_iff.1 called
    exact orderly_modifyKind orderly coherent (NodeKind.SameSort.withDefault expression) changed
  | addTransition scope trigger =>
    obtain ⟨id, called⟩ := exists_of_map_fst called
    refine orderly_insertUnderKind orderly coherent rfl rfl (fun outer isScope => ⟨?_, ?_⟩) called
    · rintro ⟨⟩
    · exact fun _ => isScope
  | addEffect transition name =>
    obtain ⟨id, called⟩ := exists_of_map_fst called
    obtain ⟨_, -, called⟩ := Except.bind_eq_ok_iff.1 called
    obtain ⟨⟨extended, effect⟩, function, called⟩ := Except.bind_eq_ok_iff.1 called
    obtain ⟨linked, changed, same⟩ := Except.bind_eq_ok_iff.1 called
    cases same
    exact orderly_modifyKind (orderly_insertUnder orderly coherent rfl rfl rfl rfl function)
      ((edited_insertUnder function).coherent coherent)
      (NodeKind.SameSort.withEffect _) changed
  | onStore operation => exact absurd rfl (own operation)

end

namespace Made

variable {form : Form} (made : form.Made)
include made

/-- The nodes of a form that calls made are in order. -/
theorem orderly : form.nodes.Orderly := by
  induction made with
  | empty code => exact ⟨nofun, nofun, nofun, nofun⟩
  | @call form call own before ih =>
    rw [Call.applyTo]
    cases called : call.run form with
    | error error => exact ih
    | ok next => exact Call.orderly_run ih before.composed.spec.1 own called

theorem plain : form.Plain where
  acyclic := by
    refine NodeStore.acyclic_of_descends NodeId.val fun node member outer contained => ?_
    obtain ⟨_, -, -, older, -⟩ := made.orderly.parents node member outer contained
    exact older
  contained := by
    intro node member parent contained
    obtain ⟨outer, there, rfl, -⟩ := made.orderly.parents node member parent contained
    rw [NodeStore.contains, NodeStore.node?_of_mem made.composed.spec.1 there]
    rfl
  pseudos := made.orderly.pseudos
  iterations := made.orderly.iterations
  scopes := by
    intro node member isScope parent outer contained found
    obtain ⟨own, there, rfl, -, fits⟩ := made.orderly.parents node member parent contained
    cases (NodeStore.node?_of_mem made.composed.spec.1 there).symm.trans found
    exact fits.scope isScope

/-- Its load-transitions stand in scopes. -/
theorem exists_scopes : ∃ scopes, ScopeTree.build form.nodes = .ok scopes := by
  have upright := made.plain.wellPlaced.upright
  have inScope : ∀ load ∈ ScopeTree.loadTransitions form.nodes,
      ¬(ScopeTree.scopeAbove? form.nodes load).isNone = true := by
    intro load listed outside
    obtain ⟨member, isLoad⟩ := List.mem_filter.1 listed
    have isTransition : load.kind.isTransition = true := by
      cases kind : load.kind <;> rw [kind] at isLoad <;> first | rfl | cases isLoad
    obtain ⟨parent, contained⟩ :=
      Option.isSome_iff_exists.1 (made.orderly.transitions load member isTransition)
    obtain ⟨outer, there, rfl, -, fits⟩ := made.orderly.parents load member parent contained
    have found := NodeStore.node?_of_mem made.composed.spec.1 there
    rw [ScopeTree.scopeAbove?,
      upright.enclosingAbove?_parent contained found (fits.transition isTransition)] at outside
    cases outside
  rw [ScopeTree.build, List.find?_eq_none.2 inScope]
  exact ⟨_, rfl⟩

end Made

end Form

end FormFlow
