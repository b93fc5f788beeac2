import FormFlow.Proofs.Form.Scopes

/-!
# The tree of scopes against the tree of nodes

`ScopeTree.gather` makes the tree of scopes in two passes: the first enters the journeys and
steps, the second puts each load-transition on the list of the nearest of them above it, and
stops at one that has none. This is the tree that `ScopeTree.build` says
(`ScopeTree.gather_eq_build`).

What the tree says is compared with the walk from node to node (`NodeSource.Ascends`), which has no
bound, passes through nodes of any kind, and ends at a parent that is not there as it ends at
the top. The scope that a node belongs to is the first journey or step that the walk from its parent
meets (`ScopeTree.Belongs`). The tree is refused exactly for the first load-transition that
belongs to no scope; otherwise its steps, the scopes around a scope and the load-transition that
serves it are those of the walk (`ScopeTree.build_agrees`). No index of the store is used, so
nothing is asked of a store but that no identifier stands twice.
-/

set_option autoImplicit false

namespace FormFlow

open NodeSource

namespace ScopeTree

/-! ## Two passes -/

/-- The entry of a journey or step to which some load-transitions were attached. -/
def entryWith? (nodes : NodeStore) (attached : List Node) (node : Node) : Option ScopeEntry :=
  if node.kind.isScope then
    some {
      id := node.id
      isStep := node.kind.isStep
      parent := scopeAbove? nodes node
      onLoad := (attached.filter fun load => scopeAbove? nodes load = some node.id).map Node.id }
  else none

/-- The journeys and steps of a form, with some of the load-transitions attached. -/
def outlined (nodes : NodeStore) (attached : List Node) : ScopeTree :=
  ⟨nodes.nodes.filterMap (entryWith? nodes attached)⟩

/-- Puts a load-transition at the end of the list of a scope. -/
def attach (tree : ScopeTree) (scope load : NodeId) : ScopeTree :=
  ⟨tree.entries.map fun entry =>
    if entry.id = scope then { entry with onLoad := entry.onLoad ++ [load] } else entry⟩

/-- Attaches a load-transition to the nearest journey or step above it. -/
def enter (nodes : NodeStore) (tree : ScopeTree) (load : Node) : Except StructureError ScopeTree :=
  match scopeAbove? nodes load with
  | some scope => .ok (tree.attach scope load.id)
  | none => .error (.notAScope load.id)

/-- Makes the tree of scopes in two passes. -/
def gather (nodes : NodeStore) : Except StructureError ScopeTree :=
  (loadTransitions nodes).foldlM (enter nodes) (outlined nodes [])

theorem attach_outlined {nodes : NodeStore} {attached : List Node} {load : Node} {scope : NodeId}
    (above : scopeAbove? nodes load = some scope) :
    (outlined nodes attached).attach scope load.id = outlined nodes (attached ++ [load]) := by
  simp only [attach, outlined, List.map_filterMap]
  congr 1
  refine List.filterMap_congr fun node _ => ?_
  cases isScope : node.kind.isScope with
  | false => simp [entryWith?, isScope]
  | true =>
    by_cases here : node.id = scope
    · simp [entryWith?, isScope, above, here, List.filter_append]
    · simp [entryWith?, isScope, above, here, Ne.symm here, List.filter_append]

/-- The second pass goes on until a load-transition has no scope above it. -/
theorem foldlM_enter (nodes : NodeStore) (attached loads : List Node) :
    loads.foldlM (enter nodes) (outlined nodes attached) =
      match loads.find? fun load => (scopeAbove? nodes load).isNone with
      | some load => .error (.notAScope load.id)
      | none => .ok (outlined nodes (attached ++ loads)) := by
  induction loads generalizing attached with
  | nil => rw [List.append_nil]; rfl
  | cons load rest ih =>
    rw [List.foldlM_cons, enter, List.find?_cons]
    cases above : scopeAbove? nodes load with
    | none => rfl
    | some scope =>
      have first : rest.foldlM (enter nodes) ((outlined nodes attached).attach scope load.id) = _ :=
        attach_outlined above ▸ ih (attached ++ [load])
      rw [List.append_assoc] at first
      exact first

/-- The two passes make the tree whose entries are read off node by node. -/
theorem gather_eq_build (nodes : NodeStore) : gather nodes = build nodes :=
  foldlM_enter nodes [] (loadTransitions nodes)

/-! ## The walk from node to node -/

/-- The last element with a property stands in front of elements without it. -/
theorem getLast?_filter_eq_some_iff {α : Type} {test : α → Bool} {items : List α} {item : α} :
    (items.filter test).getLast? = some item ↔ ∃ before after, items = before ++ item :: after ∧
      test item = true ∧ ∀ later ∈ after, ¬test later = true := by
  rw [← List.head?_reverse, ← List.filter_reverse, List.head?_filter, List.find?_eq_some_iff_append]
  constructor
  · rintro ⟨passes, after, before, split, others⟩
    refine ⟨before.reverse, after.reverse, ?_, passes, ?_⟩
    · rw [List.reverse_eq_iff.1 split]
      simp
    · simpa using others
  · rintro ⟨before, after, rfl, passes, others⟩
    exact ⟨passes, after.reverse, before.reverse, by simp, by simpa using others⟩

/-- The journeys and steps among the nodes of a walk. -/
def scopesOf (path : List Node) : List Node := path.filter fun node => node.kind.isScope

/-- The scope that a node belongs to: the first journey or step strictly above it, if the walk up
meets one. -/
def Belongs (nodes : NodeStore) (node : Node) (scope : Option NodeId) : Prop :=
  ∃ path, Ascends nodes node.parent path ∧ scope = (scopesOf path).head?.map Node.id

/-- The last load-transition, in the order of the nodes, that belongs to a scope. -/
def LastLoad (nodes : NodeStore) (scope load : NodeId) : Prop :=
  ∃ before node after, nodes.nodes = before ++ node :: after ∧ node.id = load ∧
    node.kind.isLoadTransition = true ∧ Belongs nodes node (some scope) ∧
    ∀ later ∈ after, later.kind.isLoadTransition = true → ¬Belongs nodes later (some scope)

/-- The load-transition that serves whoever meets some scopes on the way up: the last one of the
first scope that has any. -/
def Serves (nodes : NodeStore) (scopes : List Node) (load : NodeId) : Prop :=
  ∃ before scope after, scopes = before ++ scope :: after ∧ LastLoad nodes scope.id load ∧
    ∀ inner ∈ before, ∀ node ∈ nodes.nodes, node.kind.isLoadTransition = true →
      ¬Belongs nodes node (some inner.id)

theorem Ascends.scopeAbove?_eq {nodes : NodeStore} {node : Node} {path : List Node}
    (ascends : Ascends nodes node.parent path) :
    scopeAbove? nodes node = (scopesOf path).head?.map Node.id := by
  rw [scopeAbove?, enclosingAbove?, ascends.above_eq, scopesOf, List.head?_filter]

section

variable {nodes : NodeStore} (acyclic : Acyclic nodes)
include acyclic

/-- The bounded search finds the scope that a node belongs to. -/
theorem belongs_iff {node : Node} {scope : Option NodeId} :
    Belongs nodes node scope ↔ scopeAbove? nodes node = scope := by
  constructor
  · rintro ⟨path, ascends, rfl⟩
    exact Ascends.scopeAbove?_eq ascends
  · rintro rfl
    obtain ⟨path, ascends⟩ := acyclic.ascends node.parent
    exact ⟨path, ascends, Ascends.scopeAbove?_eq ascends⟩

theorem declaredLoads_eq_nil_iff {scope : NodeId} :
    declaredLoads nodes scope = [] ↔ ∀ node ∈ nodes.nodes, node.kind.isLoadTransition = true →
      ¬Belongs nodes node (some scope) := by
  simp only [declaredLoads, loadTransitions, List.map_eq_nil_iff, List.filter_eq_nil_iff,
    List.mem_filter, decide_eq_true_eq, and_imp, belongs_iff acyclic]

theorem getLast?_declaredLoads_iff {scope load : NodeId} :
    (declaredLoads nodes scope).getLast? = some load ↔ LastLoad nodes scope load := by
  simp only [declaredLoads, loadTransitions, List.filter_filter, List.getLast?_map,
    Option.map_eq_some_iff, getLast?_filter_eq_some_iff, Bool.and_eq_true, decide_eq_true_eq,
    LastLoad, belongs_iff acyclic]
  constructor
  · rintro ⟨node, ⟨before, after, split, ⟨belongs, isLoad⟩, last⟩, named⟩
    exact ⟨before, node, after, split, named, isLoad, belongs, fun later member also inside =>
      last later member ⟨inside, also⟩⟩
  · rintro ⟨before, node, after, split, named, isLoad, belongs, last⟩
    exact ⟨node, ⟨before, after, split, ⟨belongs, isLoad⟩, fun later member ⟨inside, also⟩ =>
      last later member also inside⟩, named⟩

/-- The load-transition that serves a scope is sought along the walk up from it. -/
theorem findSome?_declaredLoads_iff {scopes : List Node} {load : NodeId} :
    (scopes.findSome? fun scope => (declaredLoads nodes scope.id).getLast?) = some load ↔
      Serves nodes scopes load := by
  simp only [List.findSome?_eq_some_iff, List.getLast?_eq_none_iff, Serves,
    getLast?_declaredLoads_iff acyclic, declaredLoads_eq_nil_iff acyclic]

end

/-! ## Agreement -/

/-- What the tree of scopes says is what the tree of nodes says. -/
structure Agrees (nodes : NodeStore) (tree : ScopeTree) : Prop where
  steps : tree.steps = (nodes.nodes.filter fun node => node.kind.isStep).map Node.id
  /-- Around a scope are the journeys and steps that the walk up from it meets. -/
  ancestors : ∀ scope ∈ nodes.nodes, scope.kind.isScope = true →
    ∃ path, Ascends nodes (some scope.id) path ∧
      (tree.ancestors scope.id).map (fun entry => (entry.id, entry.isStep)) =
        (scopesOf path).map fun node => (node.id, node.kind.isStep)
  /-- A scope is served by the last load-transition of the first of them that has any. -/
  lastLoad : ∀ scope ∈ nodes.nodes, scope.kind.isScope = true →
    ∃ path, Ascends nodes (some scope.id) path ∧
      ∀ load, tree.lastLoadFrom? scope.id = some load ↔ Serves nodes (scopesOf path) load

section

variable {nodes : NodeStore} (distinct : (nodes.nodes.map Node.id).Nodup)
  (acyclic : Acyclic nodes) {tree : ScopeTree}
include acyclic

/-- The tree is refused for the first load-transition that belongs to no scope. -/
theorem build_eq_error_iff {error : StructureError} :
    build nodes = .error error ↔ ∃ before load after,
      nodes.nodes = before ++ load :: after ∧ load.kind.isLoadTransition = true ∧
        Belongs nodes load none ∧ error = .notAScope load.id ∧
        ∀ earlier ∈ before, earlier.kind.isLoadTransition = true → ¬Belongs nodes earlier none := by
  have first (load : Node) : (loadTransitions nodes).find?
      (fun load => (scopeAbove? nodes load).isNone) = some load ↔ ∃ before after,
      nodes.nodes = before ++ load :: after ∧ load.kind.isLoadTransition = true ∧
        Belongs nodes load none ∧
        ∀ earlier ∈ before, earlier.kind.isLoadTransition = true → ¬Belongs nodes earlier none := by
    simp only [loadTransitions, List.find?_filter, List.find?_eq_some_iff_append,
      decide_eq_true_eq, Option.isNone_iff_eq_none, Bool.not_eq_true', decide_eq_false_iff_not,
      not_and, belongs_iff acyclic]
    constructor
    · rintro ⟨⟨isLoad, outside⟩, before, after, split, none⟩
      exact ⟨before, after, split, isLoad, outside, none⟩
    · rintro ⟨before, after, split, isLoad, outside, none⟩
      exact ⟨⟨isLoad, outside⟩, before, after, split, none⟩
  rw [build]
  constructor
  · intro failed
    cases found : (loadTransitions nodes).find? fun load => (scopeAbove? nodes load).isNone with
    | none =>
      rw [found] at failed
      cases failed
    | some load =>
      rw [found] at failed
      cases failed
      obtain ⟨before, after, split, isLoad, outside, none⟩ := (first load).1 found
      exact ⟨before, load, after, split, isLoad, outside, rfl, none⟩
  · rintro ⟨before, load, after, split, isLoad, outside, rfl, none⟩
    rw [(first load).2 ⟨before, after, split, isLoad, outside, none⟩]

include distinct

theorem agrees_of_build (built : build nodes = .ok tree) : Agrees nodes tree where
  steps := by
    rw [steps, entries_of_build built, List.filter_filterMap, List.map_filterMap,
      ← List.filterMap_eq_map, List.filterMap_filter]
    refine List.filterMap_congr fun node _ => ?_
    cases isStep : node.kind.isStep with
    | true => simp [entryOf?, NodeKind.isScope, isStep, Option.filter]
    | false =>
      cases isJourney : node.kind.isJourney <;>
        simp [entryOf?, NodeKind.isScope, isStep, isJourney, Option.filter]
  ancestors scope member isScope := by
    obtain ⟨path, ascends⟩ := acyclic.ascends (some scope.id)
    refine ⟨path, ascends, ?_⟩
    rw [ancestors_eq distinct built member isScope ascends, List.map_filterMap,
      ← List.filterMap_eq_map]
    refine List.filterMap_congr fun node inside => ?_
    obtain ⟨entry, entered⟩ : ∃ entry, entryOf? nodes node = some entry :=
      ⟨_, if_pos (List.mem_filter.1 inside).2⟩
    rw [entered, Option.map_some, (of_entryOf? entered).1, (of_entryOf? entered).2]
    rfl
  lastLoad scope member isScope := by
    obtain ⟨path, ascends⟩ := acyclic.ascends (some scope.id)
    refine ⟨path, ascends, fun load => ?_⟩
    rw [lastLoadFrom?_eq distinct built acyclic member isScope, loadAbove?, ascends.lineage_eq]
    exact findSome?_declaredLoads_iff acyclic

end

/-- **The tree of scopes agrees with the tree of nodes.** Whatever stands between the scopes and in
whatever order the nodes come: the two passes fail exactly for the first load-transition that has no
journey or step above it, and otherwise list the steps in order, find around every scope the
journeys and steps that the walk up from it meets, innermost first, and serve it with the last
load-transition of the first of these that has any. -/
theorem build_agrees {nodes : NodeStore} (distinct : (nodes.nodes.map Node.id).Nodup)
    (acyclic : Acyclic nodes) :
    gather nodes = build nodes ∧
    (∀ error, build nodes = .error error ↔ ∃ before load after,
      nodes.nodes = before ++ load :: after ∧ load.kind.isLoadTransition = true ∧
        Belongs nodes load none ∧ error = .notAScope load.id ∧
        ∀ earlier ∈ before, earlier.kind.isLoadTransition = true →
          ¬Belongs nodes earlier none) ∧
    ∀ tree, build nodes = .ok tree → Agrees nodes tree :=
  ⟨gather_eq_build nodes, fun _ => build_eq_error_iff acyclic,
    fun _ => agrees_of_build distinct acyclic⟩

/-! ### Scopes under a block, with nodes in front of their parents -/

namespace Scattered

/-- The journey names a parent that is not there. Between it and the first step stands a block,
and both load-transitions of the step stand in a block of their own. -/
def nodes : NodeStore := [
  ⟨⟨5⟩, some ⟨4⟩, .transition ⟨.load, []⟩⟩,
  ⟨⟨4⟩, some ⟨2⟩, .block "panel"⟩,
  ⟨⟨2⟩, some ⟨7⟩, .step "/who"⟩,
  ⟨⟨6⟩, some ⟨1⟩, .step "/when"⟩,
  ⟨⟨7⟩, some ⟨1⟩, .block "part"⟩,
  ⟨⟨3⟩, some ⟨1⟩, .transition ⟨.load, []⟩⟩,
  ⟨⟨1⟩, some ⟨9⟩, .journey "trip"⟩,
  ⟨⟨8⟩, some ⟨4⟩, .transition ⟨.load, []⟩⟩].foldl NodeStore.push .empty

/-- How deep the nodes stand. -/
def depth (id : NodeId) : Nat :=
  match id.val with
  | 9 => 0
  | 1 => 1
  | 7 => 2
  | 2 => 3
  | 4 => 4
  | _ => 5

theorem distinct : (nodes.nodes.map Node.id).Nodup := by decide

theorem acyclic : Acyclic nodes := by
  refine NodeStore.acyclic_of_descends depth ?_
  simp only [nodes, List.foldl, NodeStore.push, NodeStore.empty, NodeStore.startingAt,
    List.nil_append, List.cons_append, List.forall_mem_cons, List.not_mem_nil, false_implies,
    implies_true, and_true]
  refine ⟨?_, ?_, ?_, ?_, ?_, ?_, ?_, ?_⟩ <;> rintro parent ⟨⟩ <;> decide

theorem tree_agrees : (nodes.nodes.map Node.id).Nodup ∧ Acyclic nodes ∧
    ∃ tree, build nodes = .ok tree ∧ Agrees nodes tree ∧ tree.steps = [⟨2⟩, ⟨6⟩] ∧
      (tree.ancestors ⟨2⟩).map ScopeEntry.id = [⟨2⟩, ⟨1⟩] ∧
      tree.lastLoadFrom? ⟨2⟩ = some ⟨8⟩ ∧ tree.lastLoadFrom? ⟨6⟩ = some ⟨3⟩ :=
  ⟨distinct, acyclic, _, rfl, (build_agrees distinct acyclic).2.2 _ rfl, rfl, rfl, rfl, rfl⟩

end Scattered

end ScopeTree

end FormFlow
