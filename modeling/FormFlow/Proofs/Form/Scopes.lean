import FormFlow.Form.ScopeTree
import FormFlow.Proofs.Form.Lineage

/-!
# The scopes of a form

The tree of scopes lists the journeys and steps of a form, each with the scope around it and the
load-transitions that belong to it. Going up in the tree from a step is going up from the node and
passing over what is no scope, so the load-transition that serves a step is the last one that the
nearest journey or step at or above it declares (`ScopeTree.lastLoadFrom?_eq`).
-/

set_option autoImplicit false

namespace FormFlow

open NodeSource

namespace ScopeTree

theorem mem_steps_iff {tree : ScopeTree} {step : NodeId} :
    step ∈ tree.steps ↔ ∃ entry ∈ tree.entries, entry.isStep = true ∧ entry.id = step := by
  simp only [steps]
  simp only [List.mem_map, List.mem_filter, and_assoc]

theorem entries_of_build {nodes : NodeStore} {tree : ScopeTree} (built : build nodes = .ok tree) :
    tree.entries = nodes.nodes.filterMap (entryOf? nodes) := by
  simp only [build] at built
  split at built
  · cases built
  · cases built
    rfl

theorem of_entryOf? {nodes : NodeStore} {node : Node} {entry : ScopeEntry}
    (entered : entryOf? nodes node = some entry) :
    entry.id = node.id ∧ entry.isStep = node.kind.isStep := by
  simp only [entryOf?] at entered
  split at entered
  · cases entered
    exact ⟨rfl, rfl⟩
  · cases entered

/-- The steps of the tree are the steps of the form. -/
theorem mem_steps_build {nodes : NodeStore} {tree : ScopeTree} (built : build nodes = .ok tree)
    {step : NodeId} :
    step ∈ tree.steps ↔ ∃ node ∈ nodes.nodes, node.kind.isStep = true ∧ node.id = step := by
  rw [mem_steps_iff, entries_of_build built]
  constructor
  · rintro ⟨entry, member, isStep, rfl⟩
    obtain ⟨node, known, entered⟩ := List.mem_filterMap.1 member
    obtain ⟨named, same⟩ := of_entryOf? entered
    exact ⟨node, known, same ▸ isStep, named.symm⟩
  · rintro ⟨node, known, isStep, rfl⟩
    have entered : entryOf? nodes node =
        some ⟨node.id, node.kind.isStep, scopeAbove? nodes node, _⟩ :=
      if_pos (by rw [NodeKind.isScope, isStep, Bool.or_true])
    exact ⟨_, List.mem_filterMap.2 ⟨node, known, entered⟩, isStep, rfl⟩

/-- A scope has one entry in the tree of a form. -/
theorem entries_unique {nodes : NodeStore} (distinct : (nodes.nodes.map Node.id).Nodup)
    {tree : ScopeTree} (built : build nodes = .ok tree) {one other : ScopeEntry}
    (oneMember : one ∈ tree.entries) (otherMember : other ∈ tree.entries)
    (same : one.id = other.id) : one = other := by
  rw [entries_of_build built] at oneMember otherMember
  obtain ⟨node, known, entered⟩ := List.mem_filterMap.1 oneMember
  obtain ⟨again, alsoKnown, alsoEntered⟩ := List.mem_filterMap.1 otherMember
  have found := NodeStore.node?_of_mem_of_nodup distinct known
  rw [← (of_entryOf? entered).1, same, (of_entryOf? alsoEntered).1,
    NodeStore.node?_of_mem_of_nodup distinct alsoKnown] at found
  cases found
  rw [entered] at alsoEntered
  exact Option.some.inj alsoEntered

/-- In the tree of a form a step is found exactly if it is listed. -/
theorem isStep_iff_mem_steps {nodes : NodeStore} (distinct : (nodes.nodes.map Node.id).Nodup)
    {tree : ScopeTree} (built : build nodes = .ok tree) {step : NodeId} :
    tree.isStep step = true ↔ step ∈ tree.steps := by
  rw [mem_steps_iff]
  simp only [isStep, get?]
  cases found : tree.entries.find? (fun entry => entry.id = step) with
  | none =>
    refine ⟨nofun, ?_⟩
    rintro ⟨entry, member, _, rfl⟩
    exact absurd (List.find?_eq_none.1 found entry member) (by simp)
  | some entry =>
    have member := List.mem_of_find?_eq_some found
    have named : entry.id = step := by simpa using List.find?_some found
    constructor
    · intro isStep
      exact ⟨entry, member, isStep, named⟩
    · rintro ⟨other, known, isStep, same⟩
      rw [entries_unique distinct built member known (named.trans same.symm)]
      exact isStep

/-! ## The load-transition that serves a step -/

/-- The load-transitions that a scope declares: those that have it as nearest journey or step. -/
def declaredLoads (nodes : NodeStore) (scope : NodeId) : List NodeId :=
  ((loadTransitions nodes).filter fun load => scopeAbove? nodes load = some scope).map Node.id

/-- The last load-transition of the nearest journey or step at or above a step that declares
one. -/
def loadAbove? (nodes : NodeStore) (step : NodeId) : Option NodeId :=
  ((lineage nodes step).filter fun node => node.kind.isScope).findSome? fun scope =>
    (declaredLoads nodes scope.id).getLast?

theorem onLoad_of_entryOf? {nodes : NodeStore} {node : Node} {entry : ScopeEntry}
    (entered : entryOf? nodes node = some entry) : entry.onLoad = declaredLoads nodes node.id := by
  simp only [entryOf?] at entered
  split at entered
  · cases entered
    rfl
  · cases entered

theorem mem_entries_of_mem_climb {tree : ScopeTree} {fuel : Nat} {start : Option NodeId}
    {entry : ScopeEntry} (member : entry ∈ tree.climb fuel start) : entry ∈ tree.entries := by
  induction fuel generalizing start with
  | zero => cases start <;> cases member
  | succ fuel ih =>
    cases start with
    | none => cases member
    | some id =>
      rw [climb] at member
      split at member
      · rename_i first found
        rcases List.mem_cons.1 member with rfl | later
        · exact List.mem_of_find?_eq_some found
        · exact ih later
      · cases member

/-- What serves a step is a load-transition of the form. -/
theorem exists_of_lastLoadFrom? {nodes : NodeStore} {tree : ScopeTree}
    (built : build nodes = .ok tree) {step transition : NodeId}
    (serves : tree.lastLoadFrom? step = some transition) :
    ∃ load ∈ nodes.nodes, load.id = transition ∧ load.kind.isLoadTransition = true := by
  obtain ⟨entry, above, last⟩ := List.exists_of_findSome?_eq_some serves
  have listed := mem_entries_of_mem_climb above
  rw [entries_of_build built] at listed
  obtain ⟨node, _, entered⟩ := List.mem_filterMap.1 listed
  have declared := List.mem_of_getLast? last
  rw [onLoad_of_entryOf? entered] at declared
  obtain ⟨load, inside, same⟩ := List.mem_map.1 declared
  obtain ⟨member, isLoad⟩ := List.mem_filter.1 (List.mem_of_mem_filter inside)
  exact ⟨load, member, same, isLoad⟩

/-- The load-transition that serves a step is a node of the form. -/
theorem mem_of_lastLoadFrom? {nodes : NodeStore} {tree : ScopeTree}
    (built : build nodes = .ok tree) {step transition : NodeId}
    (serves : tree.lastLoadFrom? step = some transition) :
    transition ∈ nodes.nodes.map Node.id := by
  obtain ⟨load, member, same, _⟩ := exists_of_lastLoadFrom? built serves
  exact same ▸ List.mem_map_of_mem member

section

variable {nodes : NodeStore} (distinct : (nodes.nodes.map Node.id).Nodup) {tree : ScopeTree}
  (built : build nodes = .ok tree)
include distinct built

/-- A journey or step is found in the tree with its own entry. -/
theorem get?_of_scope {node : Node} (member : node ∈ nodes.nodes)
    (isScope : node.kind.isScope = true) :
    ∃ entry, tree.get? node.id = some entry ∧ entryOf? nodes node = some entry := by
  obtain ⟨entry, entered⟩ : ∃ entry, entryOf? nodes node = some entry :=
    ⟨_, if_pos isScope⟩
  have listed : entry ∈ tree.entries := by
    rw [entries_of_build built]
    exact List.mem_filterMap.2 ⟨node, member, entered⟩
  have named := (of_entryOf? entered).1
  refine ⟨entry, ?_, entered⟩
  cases found : tree.get? node.id with
  | none => exact absurd named (by simpa using List.find?_eq_none.1 found entry listed)
  | some other =>
    have same : other.id = node.id := by simpa using List.find?_some found
    rw [entries_unique distinct built (List.mem_of_find?_eq_some found) listed
      (same.trans named.symm)]

/-- Going up in the tree is going up from node to node past what is no scope. -/
theorem climb_eq {start : Option NodeId} {path : List Node} (ascends : Ascends nodes start path)
    {fuel : Nat} (enough : (path.filter fun node => node.kind.isScope).length ≤ fuel) :
    tree.climb fuel ((path.find? fun node => node.kind.isScope).map Node.id) =
      (path.filter fun node => node.kind.isScope).filterMap (entryOf? nodes) := by
  induction ascends generalizing fuel with
  | top => cases fuel <;> rfl
  | gone => cases fuel <;> rfl
  | @step id node rest found above ih =>
    cases isScope : node.kind.isScope with
    | false =>
      rw [List.filter_cons_of_neg (by simp [isScope])] at enough ⊢
      rw [List.find?_cons_of_neg (by simp [isScope])]
      exact ih enough
    | true =>
      rw [List.filter_cons_of_pos (by simp [isScope])] at enough ⊢
      rw [List.find?_cons_of_pos (by simp [isScope])]
      have member := List.mem_of_find?_eq_some (found : nodes.node? id = some node)
      obtain ⟨entry, known, entered⟩ := get?_of_scope distinct built member isScope
      cases fuel with
      | zero => cases enough
      | succ fuel =>
        have outer : entry.parent = (rest.find? fun node => node.kind.isScope).map Node.id := by
          have whole : entry.parent = scopeAbove? nodes node := by
            simp only [entryOf?, isScope, if_true] at entered
            cases entered
            rfl
          rw [whole, scopeAbove?, enclosingAbove?, above.above_eq]
        rw [Option.map_some, climb, known]
        dsimp only
        rw [outer, ih (Nat.le_of_succ_le_succ enough), List.filterMap_cons, entered]

/-- The scopes met on the way up are no more than those of the tree. -/
theorem length_scopes_le {start : Option NodeId} {path : List Node}
    (ascends : Ascends nodes start path) :
    (path.filter fun node => node.kind.isScope).length ≤ tree.entries.length := by
  have apart : ((path.filter fun node => node.kind.isScope).map Node.id).Nodup :=
    ascends.nodup.sublist (List.filter_sublist.map _)
  have listed : (path.filter fun node => node.kind.isScope).map Node.id ⊆
      tree.entries.map ScopeEntry.id := by
    intro id inside
    obtain ⟨node, member, rfl⟩ := List.mem_map.1 inside
    obtain ⟨onPath, isScope⟩ := List.mem_filter.1 member
    have found := List.mem_of_find?_eq_some
      (ascends.node?_of_mem onPath : nodes.node? node.id = some node)
    obtain ⟨entry, known, entered⟩ := get?_of_scope distinct built found isScope
    rw [← (of_entryOf? entered).1]
    exact List.mem_map_of_mem (List.mem_of_find?_eq_some known)
  simpa using (List.subperm_of_subset apart listed).length_le

/-- Around a scope are the scopes that the way up from it meets. -/
theorem ancestors_eq {scope : Node} (member : scope ∈ nodes.nodes)
    (isScope : scope.kind.isScope = true) {path : List Node}
    (ascends : Ascends nodes (some scope.id) path) :
    tree.ancestors scope.id =
      (path.filter fun node => node.kind.isScope).filterMap (entryOf? nodes) := by
  have start : (path.find? fun node => node.kind.isScope).map Node.id = some scope.id := by
    have known : node? nodes scope.id = some scope :=
      NodeStore.node?_of_mem_of_nodup distinct member
    cases ascends with
    | gone absent => cases absent.symm.trans known
    | step found _ =>
      cases found.symm.trans known
      rw [List.find?_cons_of_pos (by simp [isScope])]
      rfl
  have climbed := climb_eq distinct built ascends (length_scopes_le distinct built ascends)
  rw [start] at climbed
  exact climbed

/-- The load-transition that serves a step is the last one of the nearest journey or step at or
above it that declares one. -/
theorem lastLoadFrom?_eq (acyclic : Acyclic nodes) {step : Node} (member : step ∈ nodes.nodes)
    (isScope : step.kind.isScope = true) :
    tree.lastLoadFrom? step.id = loadAbove? nodes step.id := by
  obtain ⟨path, ascends⟩ := acyclic.ascends (some step.id)
  rw [lastLoadFrom?, ancestors_eq distinct built member isScope ascends, loadAbove?,
    ascends.lineage_eq, ← List.head?_filterMap, ← List.head?_filterMap, List.filterMap_filterMap]
  congr 1
  refine List.filterMap_congr fun node inside => ?_
  obtain ⟨entry, entered⟩ : ∃ entry, entryOf? nodes node = some entry :=
    ⟨_, if_pos (List.mem_filter.1 inside).2⟩
  rw [entered, Option.bind_some, onLoad_of_entryOf? entered]

end

end ScopeTree

end FormFlow
