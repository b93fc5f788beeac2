import FormFlow.Proofs.Form.Coherence
import FormFlow.Request.Layered
import Mathlib.Data.List.Perm.Subperm
import Mathlib.Logic.Relation

/-!
# The way up from a node

`NodeSource.climb` is bounded by the number of nodes. `NodeSource.Ascends` is the same walk
without a bound: it relates a start to the nodes met on the way up, to a node without a parent
or to a parent that is not there. A node is met once at most (`Ascends.nodup`), so the bound is
never reached and the two agree (`Ascends.lineage_eq`). If no node contains itself, every walk
ends (`Acyclic.ascends`), and only then (`acyclic_of_ascends`). In a cycle a walk does not end,
and the list that `climb` returns there is no account of it.

A walk stays the same in every source that shows the same nodes and leaves missing parents
missing (`Ascends.transfer`).
-/

set_option autoImplicit false

namespace FormFlow

open NodeSource

/-- A source that finds nodes under their own identifiers, no more of them than its size. -/
class LawfulSource (σ : Type) [NodeSource σ] : Prop where
  id_of_node? : ∀ (nodes : σ) (id : NodeId) (node : Node), node? nodes id = some node →
    node.id = id
  length_le_size : ∀ (nodes : σ) (ids : List NodeId), ids.Nodup →
    (∀ id ∈ ids, ∃ node, node? nodes id = some node) → ids.length ≤ size nodes

theorem NodeStore.id_eq_of_node? {store : NodeStore} {id : NodeId} {node : Node}
    (found : store.node? id = some node) : node.id = id := by
  simpa using List.find?_some found

instance : LawfulSource NodeStore where
  id_of_node? := fun _ _ _ found => NodeStore.id_eq_of_node? found
  length_le_size := by
    intro store ids distinct found
    have listed : ids ⊆ store.nodes.map Node.id := by
      intro id member
      obtain ⟨node, present⟩ := found id member
      rw [← NodeStore.id_eq_of_node? present]
      exact List.mem_map_of_mem (List.mem_of_find?_eq_some present)
    simpa [NodeSource.size, NodeStore.size] using (List.subperm_of_subset distinct listed).length_le

namespace Layered

theorem node?_eq_some_iff {layers : Layered} {id : NodeId} {node : Node} :
    layers.node? id = some node ↔ layers.overlay.node? id = some node ∨
      layers.overlay.node? id = none ∧ layers.base.node? id = some node := by
  simp only [node?]
  cases layers.overlay.node? id <;> simp

end Layered

instance : LawfulSource Layered where
  id_of_node? := by
    intro layers id node found
    rcases Layered.node?_eq_some_iff.1 found with own | ⟨_, lower⟩
    · exact NodeStore.id_eq_of_node? own
    · exact NodeStore.id_eq_of_node? lower
  length_le_size := by
    intro layers ids distinct found
    -- Both stores are searched at once: their nodes together list every identifier.
    have listed : ids ⊆ layers.base.nodes.map Node.id ++ layers.overlay.nodes.map Node.id := by
      intro id member
      obtain ⟨node, present⟩ := found id member
      rcases Layered.node?_eq_some_iff.1 present with own | ⟨_, lower⟩
      · rw [← NodeStore.id_eq_of_node? own]
        exact List.mem_append_right _ (List.mem_map_of_mem (List.mem_of_find?_eq_some own))
      · rw [← NodeStore.id_eq_of_node? lower]
        exact List.mem_append_left _ (List.mem_map_of_mem (List.mem_of_find?_eq_some lower))
    simpa [NodeSource.size, Layered.size, NodeStore.size] using
      (List.subperm_of_subset distinct listed).length_le

namespace NodeSource

variable {σ : Type} [NodeSource σ]

/-! ## Walks without a bound -/

/-- The nodes met on the way up from a start. -/
inductive Ascends (nodes : σ) : Option NodeId → List Node → Prop where
  | top : Ascends nodes none []
  | gone {id : NodeId} : node? nodes id = none → Ascends nodes (some id) []
  | step {id : NodeId} {node : Node} {path : List Node} : node? nodes id = some node →
    Ascends nodes node.parent path → Ascends nodes (some id) (node :: path)

namespace Ascends

variable {nodes : σ} {start : Option NodeId} {path : List Node}

theorem unique {other : List Node} (one : Ascends nodes start path)
    (two : Ascends nodes start other) : path = other := by
  induction one generalizing other with
  | top =>
    cases two
    rfl
  | gone missing =>
    cases two with
    | gone => rfl
    | step found => cases missing.symm.trans found
  | step found _ ih =>
    cases two with
    | gone missing => cases missing.symm.trans found
    | step again rest =>
      cases found.symm.trans again
      rw [ih rest]

/-- A walk with enough fuel meets everything. -/
theorem climb_eq (ascends : Ascends nodes start path) {fuel : Nat} (enough : path.length ≤ fuel) :
    climb nodes fuel start = path := by
  induction ascends generalizing fuel with
  | top => cases fuel <;> rfl
  | gone missing =>
    cases fuel with
    | zero => rfl
    | succ fuel => rw [climb, missing]
  | step found _ ih =>
    cases fuel with
    | zero => simp at enough
    | succ fuel =>
      rw [climb, found]
      dsimp only
      rw [ih (by simpa using enough)]

variable [LawfulSource σ]

theorem node?_of_mem (ascends : Ascends nodes start path) {node : Node} (member : node ∈ path) :
    node? nodes node.id = some node := by
  induction ascends with
  | top => cases member
  | gone => cases member
  | step found _ ih =>
    rcases List.mem_cons.1 member with rfl | later
    · rw [LawfulSource.id_of_node? _ _ _ found]
      exact found
    · exact ih later

/-- From every node that is met the rest of the walk goes on. -/
theorem suffix (ascends : Ascends nodes start path) {before after : List Node} {node : Node}
    (split : path = before ++ node :: after) : Ascends nodes (some node.id) (node :: after) := by
  induction ascends generalizing before with
  | top => simp at split
  | gone => simp at split
  | @step id first rest found above ih =>
    cases before with
    | nil =>
      cases split
      rw [LawfulSource.id_of_node? _ _ _ found]
      exact .step found above
    | cons other before =>
      cases split
      exact ih rfl

/-- No node is met twice: the walk from it would go on forever. -/
theorem nodup (ascends : Ascends nodes start path) : (path.map Node.id).Nodup := by
  induction ascends with
  | top => exact .nil
  | gone => exact .nil
  | @step id node rest found above ih =>
    refine List.nodup_cons.2 ⟨?_, ih⟩
    intro again
    obtain ⟨other, member, same⟩ := List.mem_map.1 again
    obtain ⟨before, after, split⟩ := List.append_of_mem member
    have whole : Ascends nodes (some node.id) (node :: rest) := by
      rw [LawfulSource.id_of_node? _ _ _ found]
      exact .step found above
    have part := above.suffix split
    rw [same] at part
    have lengths := congrArg List.length (whole.unique part)
    rw [split] at lengths
    simp at lengths
    omega

theorem length_le_size (ascends : Ascends nodes start path) : path.length ≤ size nodes := by
  have bound := LawfulSource.length_le_size nodes (path.map Node.id) ascends.nodup (by
    intro id member
    obtain ⟨node, known, rfl⟩ := List.mem_map.1 member
    exact ⟨node, ascends.node?_of_mem known⟩)
  simpa using bound

theorem lineage_eq {id : NodeId} (ascends : Ascends nodes (some id) path) :
    lineage nodes id = path :=
  ascends.climb_eq ascends.length_le_size

theorem above_eq {node : Node} (ascends : Ascends nodes node.parent path) :
    above nodes node = path :=
  ascends.climb_eq ascends.length_le_size

end Ascends

/-- A walk is the same in a source that shows the nodes it meets and in which a parent that is
missing at its end is missing too. -/
theorem Ascends.transfer {τ : Type} [NodeSource τ] {nodes : σ} {later : τ}
    {start : Option NodeId} {path : List Node} (ascends : Ascends nodes start path)
    (found : ∀ id node, node? nodes id = some node → node? later id = some node)
    (missing : ∀ id, start = some id ∨ (∃ node ∈ path, node.parent = some id) →
      node? nodes id = none → node? later id = none) : Ascends later start path := by
  induction ascends with
  | top => exact .top
  | gone absent => exact .gone (missing _ (.inl rfl) absent)
  | @step id node rest present _ ih =>
    refine .step (found _ _ present) (ih ?_)
    rintro outer (direct | ⟨other, member, contained⟩) absent
    · exact missing outer (.inr ⟨node, List.mem_cons_self .., direct⟩) absent
    · exact missing outer (.inr ⟨other, List.mem_cons_of_mem _ member, contained⟩) absent

/-! ## Containment without cycles -/

/-- A node stands directly in another one, which need not be there. -/
def Inside (nodes : σ) (inner outer : NodeId) : Prop :=
  ∃ node, node? nodes inner = some node ∧ node.parent = some outer

/-- No node contains itself. -/
def Acyclic (nodes : σ) : Prop := ∀ id, ¬Relation.TransGen (Inside nodes) id id

/-- There is no cycle if some number falls with every step up. -/
theorem acyclic_of_descends {nodes : σ} (rank : NodeId → Nat)
    (descends : ∀ inner outer, Inside nodes inner outer → rank outer < rank inner) :
    Acyclic nodes := by
  have falls : ∀ inner outer, Relation.TransGen (Inside nodes) inner outer →
      rank outer < rank inner := by
    intro inner outer chain
    induction chain with
    | single contained => exact descends _ _ contained
    | tail _ contained ih =>
      have step := descends _ _ contained
      omega
  intro id cycle
  exact Nat.lt_irrefl _ (falls id id cycle)

/-- From a node that is met on the way up the walk is shorter. -/
theorem Ascends.exists_shorter {nodes : σ} {inner outer : NodeId}
    (chain : Relation.TransGen (Inside nodes) inner outer) {path : List Node}
    (ascends : Ascends nodes (some inner) path) :
    ∃ rest, Ascends nodes (some outer) rest ∧ rest.length < path.length := by
  have above : ∀ {inner outer path}, Inside nodes inner outer → Ascends nodes (some inner) path →
      ∃ rest, Ascends nodes (some outer) rest ∧ rest.length < path.length := by
    rintro inner outer path ⟨node, found, contained⟩ ascends
    cases ascends with
    | gone missing => cases missing.symm.trans found
    | @step _ _ rest again onward =>
      cases found.symm.trans again
      rw [contained] at onward
      exact ⟨rest, onward, Nat.lt_succ_self _⟩
  induction chain with
  | single contained => exact above contained ascends
  | tail _ contained ih =>
    obtain ⟨middle, onward, less⟩ := ih
    obtain ⟨rest, further, lesser⟩ := above contained onward
    exact ⟨rest, further, Nat.lt_trans lesser less⟩

/-- There is no cycle if every walk ends. -/
theorem acyclic_of_ascends {nodes : σ} (ends : ∀ start, ∃ path, Ascends nodes start path) :
    Acyclic nodes := by
  intro id cycle
  obtain ⟨path, ascends⟩ := ends (some id)
  obtain ⟨rest, again, less⟩ := ascends.exists_shorter cycle
  rw [ascends.unique again] at less
  exact Nat.lt_irrefl _ less

/-- Without cycles every walk ends. -/
theorem Acyclic.ascends [LawfulSource σ] {nodes : σ} (acyclic : Acyclic nodes)
    (start : Option NodeId) : ∃ path, Ascends nodes start path := by
  -- Every visited node contains what comes next only if there is a cycle, so the visited nodes
  -- are distinct and the walk is over when all of them are used up.
  have walks : ∀ (left : Nat) (visited : List NodeId) (start : Option NodeId), visited.Nodup →
      (∀ id ∈ visited, ∃ node, node? nodes id = some node) →
      (∀ id ∈ visited, ∀ next, start = some next → Relation.TransGen (Inside nodes) id next) →
      size nodes < visited.length + left → ∃ path, Ascends nodes start path := by
    intro left
    induction left with
    | zero =>
      intro visited start distinct present _ few
      have := LawfulSource.length_le_size nodes visited distinct present
      omega
    | succ left ih =>
      intro visited start distinct present leads few
      cases start with
      | none => exact ⟨[], .top⟩
      | some next =>
        cases found : node? nodes next with
        | none => exact ⟨[], .gone found⟩
        | some node =>
          have fresh : next ∉ visited := fun member => acyclic next (leads next member next rfl)
          have grown : ∀ id ∈ next :: visited, ∃ node, node? nodes id = some node := by
            intro id member
            rcases List.mem_cons.1 member with rfl | old
            · exact ⟨node, found⟩
            · exact present id old
          have onward : ∀ id ∈ next :: visited, ∀ outer, node.parent = some outer →
              Relation.TransGen (Inside nodes) id outer := by
            intro id member outer contained
            rcases List.mem_cons.1 member with rfl | old
            · exact .single ⟨node, found, contained⟩
            · exact (leads id old next rfl).tail ⟨node, found, contained⟩
          obtain ⟨path, rest⟩ := ih (next :: visited) node.parent
            (List.nodup_cons.2 ⟨fresh, distinct⟩) grown onward (by simp; omega)
          exact ⟨node :: path, .step found rest⟩
  exact walks (size nodes + 1) [] start .nil (by simp) (by simp) (by simp)

/-! ## Steps -/

variable [LawfulSource σ]

theorem node?_of_mem_climb {nodes : σ} {fuel : Nat} {start : Option NodeId} {node : Node}
    (member : node ∈ climb nodes fuel start) : node? nodes node.id = some node := by
  induction fuel generalizing start with
  | zero => cases member
  | succ fuel ih =>
    cases start with
    | none => cases member
    | some id =>
      rw [climb] at member
      cases found : node? nodes id with
      | none =>
        rw [found] at member
        cases member
      | some first =>
        rw [found] at member
        rcases List.mem_cons.1 member with rfl | later
        · rw [LawfulSource.id_of_node? _ _ _ found]
          exact found
        · exact ih later

/-- The step of a node that is no pseudo-node is there. -/
theorem node?_of_owningStep? {nodes : σ} {id step : NodeId} {node : Node}
    (found : node? nodes id = some node) (plain : node.kind.pseudo? = none)
    (owned : owningStep? nodes id = some step) :
    ∃ outer, node? nodes step = some outer ∧ outer.kind.isStep = true := by
  rw [owningStep?, found, Option.bind_some, plain] at owned
  obtain ⟨outer, enclosing, rfl⟩ := Option.map_eq_some_iff.1 owned
  exact ⟨outer, node?_of_mem_climb (List.mem_of_find?_eq_some enclosing),
    by simpa using List.find?_some enclosing⟩

end NodeSource

/-- In a store it is enough to look at the parents of the nodes. -/
theorem NodeStore.acyclic_of_descends {store : NodeStore} (rank : NodeId → Nat)
    (descends : ∀ node ∈ store.nodes, ∀ parent, node.parent = some parent →
      rank parent < rank node.id) : Acyclic store := by
  refine NodeSource.acyclic_of_descends rank ?_
  rintro inner outer ⟨node, found, contained⟩
  obtain rfl := id_eq_of_node? found
  exact descends node (List.mem_of_find?_eq_some found) outer contained

end FormFlow
