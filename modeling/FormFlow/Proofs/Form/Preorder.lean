import FormFlow.Proofs.Form.Lineage

/-!
# Pre-order

A traversal takes nodes off a stack and puts what they lead to in their place. What it lists is
given by recursion (`Spans`): a node, then what it leads to, then what was left on the stack. The
recursion ends because the way up from a node grows with every step down (`Downward.exists_spans`),
and it lists every node once (`Spans.nodup`), since two nodes of the list that stand under different
ones of the first nodes have different ways up.

The list of a whole subtree is therefore no longer than the containment, so the number of steps
that bounds the traversal is enough (`NodeStore.subtree_eq`). For this it does not matter whether
the containment has a pair for every node, as long as each of its pairs is one that a node names
(`NodeStore.Placed`).
-/

set_option autoImplicit false

namespace FormFlow

open NodeSource

/-- The pre-order of what some nodes lead to. -/
inductive Spans (next : NodeId → List NodeId) : List NodeId → List NodeId → Prop where
  | nil : Spans next [] []
  | cons {id : NodeId} {rest below others : List NodeId} : Spans next (next id) below →
    Spans next rest others → Spans next (id :: rest) (id :: (below ++ others))

/-- What a node leads to stands directly in it, and nothing is named twice. -/
structure Downward {σ : Type} [NodeSource σ] (nodes : σ) (next : NodeId → List NodeId) :
    Prop where
  inside : ∀ id, ∀ child ∈ next id, Inside nodes child id
  distinct : ∀ id, (next id).Nodup

namespace Spans

variable {next : NodeId → List NodeId} {roots listed : List NodeId}

theorem exists_of_each (each : ∀ id ∈ roots, ∃ below, Spans next (next id) below) :
    ∃ listed, Spans next roots listed := by
  induction roots with
  | nil => exact ⟨[], .nil⟩
  | cons id rest ih =>
    obtain ⟨below, inner⟩ := each id (List.mem_cons_self ..)
    obtain ⟨others, outer⟩ := ih fun other member => each other (List.mem_cons_of_mem _ member)
    exact ⟨_, .cons inner outer⟩

theorem mem_of_root (spans : Spans next roots listed) {id : NodeId} (member : id ∈ roots) :
    id ∈ listed := by
  induction spans with
  | nil => cases member
  | cons _ _ _ ih =>
    rcases List.mem_cons.1 member with rfl | later
    · exact List.mem_cons_self ..
    · exact List.mem_cons_of_mem _ (List.mem_append_right _ (ih later))

/-- Whatever a listed node leads to is listed. -/
theorem mem_of_next (spans : Spans next roots listed) {id child : NodeId} (member : id ∈ listed)
    (leads : child ∈ next id) : child ∈ listed := by
  induction spans with
  | nil => cases member
  | cons inner _ ihBelow ihOthers =>
    apply List.mem_cons_of_mem
    rcases List.mem_cons.1 member with rfl | later
    · exact List.mem_append_left _ (inner.mem_of_root leads)
    · exact List.mem_append.2 ((List.mem_append.1 later).imp ihBelow ihOthers)

/-- What holds of the first nodes and passes from a node to what it leads to holds of every node
that is listed. -/
theorem induction (spans : Spans next roots listed) {P : NodeId → Prop}
    (first : ∀ id ∈ roots, P id)
    (down : ∀ id ∈ listed, P id → ∀ child ∈ next id, P child) : ∀ id ∈ listed, P id := by
  induction spans with
  | nil => exact nofun
  | @cons id rest below others _ _ ihBelow ihOthers =>
    have here := first id (List.mem_cons_self ..)
    have inBelow : ∀ other ∈ below, P other := by
      refine ihBelow (down id (List.mem_cons_self ..) here) fun other member => ?_
      exact down other (List.mem_cons_of_mem _ (List.mem_append_left _ member))
    have inOthers : ∀ other ∈ others, P other := by
      refine ihOthers (fun other member => first other (List.mem_cons_of_mem _ member))
        fun other member => ?_
      exact down other (List.mem_cons_of_mem _ (List.mem_append_right _ member))
    intro other member
    rcases List.mem_cons.1 member with rfl | later
    · exact here
    · exact (List.mem_append.1 later).elim (inBelow other) (inOthers other)

/-- There is one pre-order at most. -/
theorem unique {others : List NodeId} (one : Spans next roots listed)
    (two : Spans next roots others) : listed = others := by
  induction one generalizing others with
  | nil =>
    cases two
    rfl
  | cons _ _ ihBelow ihOthers =>
    cases two with
    | cons below rest => rw [ihBelow below, ihOthers rest]

/-- The pre-order of several nodes is that of each of them, one after the other. -/
theorem flatMap {each : NodeId → List NodeId} (spans : ∀ id, Spans next [id] (each id))
    (roots : List NodeId) : Spans next roots (roots.flatMap each) := by
  induction roots with
  | nil => exact .nil
  | cons id rest ih =>
    have first := spans id
    rw [List.flatMap_cons]
    generalize each id = listed at first
    cases first with
    | cons below nothing =>
      cases nothing
      rw [List.append_nil]
      exact .cons below ih

/-- Whatever is listed is one of the first nodes, or something in front of it leads to it. -/
theorem leads_before (spans : Spans next roots listed) {before after : List NodeId} {id : NodeId}
    (split : listed = before ++ id :: after) : id ∈ roots ∨ ∃ outer ∈ before, id ∈ next outer := by
  induction spans generalizing before after with
  | nil => cases before <;> cases split
  | @cons first rest below others _ _ ihBelow ihOthers =>
    cases before with
    | nil =>
      cases split
      exact .inl (List.mem_cons_self ..)
    | cons head before =>
      obtain ⟨rfl, tails⟩ := List.cons.inj split
      have inOthers : ∀ skipped, others = skipped ++ id :: after → before = below ++ skipped →
          id ∈ first :: rest ∨ ∃ outer ∈ first :: before, id ∈ next outer := by
        rintro skipped later rfl
        rcases ihOthers later with member | ⟨outer, member, leads⟩
        · exact .inl (List.mem_cons_of_mem _ member)
        · exact .inr ⟨outer, List.mem_cons_of_mem _ (List.mem_append_right _ member), leads⟩
      rcases List.append_eq_append_iff.1 tails with ⟨skipped, whole, later⟩ | ⟨left, part, later⟩
      · exact inOthers skipped later whole
      · cases left with
        | nil => exact inOthers [] later.symm (by simpa using part.symm)
        | cons found left =>
          cases later
          rcases ihBelow part with member | ⟨outer, member, leads⟩
          · exact .inr ⟨first, List.mem_cons_self .., member⟩
          · exact .inr ⟨outer, List.mem_cons_of_mem _ member, leads⟩

/-- Where a traversal leaves nothing out that counts, it lists the same. -/
theorem prune {α : Type} (spans : Spans next roots listed) {fewer : NodeId → List NodeId}
    {count : NodeId → Option α}
    (same : ∀ id ∈ listed, ∀ below ⊆ listed, Spans next (next id) below →
      fewer id = next id ∨ fewer id = [] ∧ ∀ other ∈ below, count other = none) :
    ∃ kept, Spans fewer roots kept ∧ kept.filterMap count = listed.filterMap count := by
  induction spans with
  | nil => exact ⟨[], .nil, rfl⟩
  | @cons id rest below others inner outer ihBelow ihOthers =>
    have intoBelow : below ⊆ id :: (below ++ others) := fun _ member =>
      List.mem_cons_of_mem _ (List.mem_append_left _ member)
    have intoOthers : others ⊆ id :: (below ++ others) := fun _ member =>
      List.mem_cons_of_mem _ (List.mem_append_right _ member)
    obtain ⟨after, spansAfter, sameAfter⟩ := ihOthers fun other member part within =>
      same other (intoOthers member) part fun _ known => intoOthers (within known)
    have head : ∃ kept, Spans fewer (fewer id) kept ∧
        kept.filterMap count = below.filterMap count := by
      rcases same id (List.mem_cons_self ..) below intoBelow inner with equal | ⟨empty, silent⟩
      · rw [equal]
        exact ihBelow fun other member part within =>
          same other (intoBelow member) part fun _ known => intoBelow (within known)
      · refine ⟨[], by rw [empty]; exact .nil, ?_⟩
        rw [List.filterMap_nil, eq_comm, List.filterMap_eq_nil_iff]
        exact silent
    obtain ⟨kept, spansKept, sameKept⟩ := head
    refine ⟨_, .cons spansKept spansAfter, ?_⟩
    simp only [List.filterMap_cons, List.filterMap_append]
    rw [sameKept, sameAfter]

/-! ## The way up from a listed node -/

section

variable {σ : Type} [NodeSource σ] {nodes : σ} {path : List Node}

/-- The nodes stand side by side: the way up from each goes on with the same path. -/
def Beside (nodes : σ) (roots : List NodeId) (path : List Node) : Prop :=
  ∀ id ∈ roots, ∃ node, node? nodes id = some node ∧ Ascends nodes node.parent path

theorem beside_next (down : Downward nodes next) {id : NodeId}
    (ascends : Ascends nodes (some id) path) : Beside nodes (next id) path := by
  intro child member
  obtain ⟨node, found, contained⟩ := down.inside id child member
  exact ⟨node, found, contained ▸ ascends⟩

variable (down : Downward nodes next)
include down

/-- A listed node is there. -/
theorem present (spans : Spans next roots listed) (beside : Beside nodes roots path) :
    ∀ id ∈ listed, ∃ node, node? nodes id = some node := by
  refine spans.induction (fun id member => (beside id member).imp fun _ => And.left) ?_
  intro id _ _ child leads
  exact (down.inside id child leads).imp fun _ => And.left

variable [LawfulSource σ]

/-- The way up from a listed node leads through one of the first nodes. -/
theorem ascends (spans : Spans next roots listed) (beside : Beside nodes roots path) :
    ∀ id ∈ listed, ∃ before first, first.id ∈ roots ∧
      Ascends nodes (some id) (before ++ first :: path) := by
  refine spans.induction ?_ ?_
  · intro id member
    obtain ⟨node, found, above⟩ := beside id member
    exact ⟨[], node, LawfulSource.id_of_node? _ _ _ found ▸ member, .step found above⟩
  · rintro id _ ⟨before, first, member, way⟩ child leads
    obtain ⟨node, found, contained⟩ := down.inside id child leads
    exact ⟨node :: before, first, member, .step found (contained ▸ way)⟩

/-- Nothing is listed twice. -/
theorem nodup (spans : Spans next roots listed) (distinct : roots.Nodup)
    (beside : Beside nodes roots path) : listed.Nodup := by
  induction spans generalizing path with
  | nil => exact .nil
  | @cons id rest below others inner outer ihBelow ihOthers =>
    obtain ⟨fresh, distinctRest⟩ := List.nodup_cons.1 distinct
    obtain ⟨node, found, above⟩ := beside id (List.mem_cons_self ..)
    have way : Ascends nodes (some id) (node :: path) := .step found above
    have besideBelow := beside_next down way
    have besideRest : Beside nodes rest path := fun other member =>
      beside other (List.mem_cons_of_mem _ member)
    -- The ways up from the two parts differ where they meet the first nodes.
    have throughId : ∀ other ∈ id :: below, ∃ before,
        Ascends nodes (some other) (before ++ node :: path) := by
      intro other member
      rcases List.mem_cons.1 member with rfl | later
      · exact ⟨[], way⟩
      · obtain ⟨before, first, _, up⟩ := inner.ascends down besideBelow other later
        exact ⟨before ++ [first], by simpa using up⟩
    have apart : ∀ other ∈ id :: below, other ∉ others := by
      intro other one two
      obtain ⟨before, up⟩ := throughId other one
      obtain ⟨start, first, member, again⟩ := outer.ascends down besideRest other two
      have named := LawfulSource.id_of_node? _ _ _ found
      cases (List.append_inj' (up.unique again) rfl).2
      exact fresh (named ▸ member)
    have notBelow : id ∉ below := by
      intro member
      obtain ⟨before, first, _, up⟩ := inner.ascends down besideBelow id member
      have lengths := congrArg List.length (way.unique up)
      simp at lengths
      omega
    rw [← List.cons_append]
    refine List.nodup_append.2 ⟨?_, ihOthers distinctRest besideRest, ?_⟩
    · exact List.nodup_cons.2 ⟨notBelow, ihBelow (down.distinct id) besideBelow⟩
    · rintro one inFirst two inSecond rfl
      exact apart one inFirst inSecond

end

end Spans

/-- Below every node from which there is a way up, the pre-order ends. -/
theorem Downward.exists_spans {σ : Type} [NodeSource σ] [LawfulSource σ] {nodes : σ}
    {next : NodeId → List NodeId} (down : Downward nodes next) {id : NodeId} {path : List Node}
    (ascends : Ascends nodes (some id) path) : ∃ listed, Spans next (next id) listed := by
  -- With every step down the way up gets longer, and it is not longer than there are nodes.
  have along : ∀ (left : Nat) (id : NodeId) (path : List Node), Ascends nodes (some id) path →
      size nodes ≤ left + path.length → ∃ listed, Spans next (next id) listed := by
    intro left
    induction left with
    | zero =>
      intro id path ascends few
      refine Spans.exists_of_each fun child member => ?_
      obtain ⟨node, found, contained⟩ := down.inside id child member
      have longer : Ascends nodes (some child) (node :: path) := .step found (contained ▸ ascends)
      have bound := longer.length_le_size
      rw [List.length_cons] at bound
      omega
    | succ left ih =>
      intro id path ascends few
      refine Spans.exists_of_each fun child member => ?_
      obtain ⟨node, found, contained⟩ := down.inside id child member
      refine ih child (node :: path) (.step found (contained ▸ ascends)) ?_
      rw [List.length_cons]
      omega
  exact along _ id path ascends (Nat.le_add_right ..)

namespace NodeStore

variable {store : NodeStore}

/-- The containment has pairs of nodes with the parents that they name, in the order of the nodes.
It may leave nodes out. -/
structure Placed (store : NodeStore) : Prop where
  distinct : (store.nodes.map Node.id).Nodup
  listed : store.containment.Sublist (store.nodes.filterMap Node.link?)

theorem Coherent.placed (coherent : store.Coherent) : store.Placed :=
  ⟨coherent.nodup, coherent.containment ▸ .refl _⟩

theorem map_snd_link? (nodes : List Node) (parent : NodeId) :
    ((nodes.filterMap Node.link?).filter fun link => link.1 = parent).map Prod.snd =
      (nodes.filter fun node => node.parent = some parent).map Node.id := by
  induction nodes with
  | nil => rfl
  | cons node rest ih =>
    cases contained : node.parent with
    | none => simp [Node.link?, contained, ← ih]
    | some outer => by_cases same : outer = parent <;> simp [Node.link?, contained, same, ← ih]

theorem children_eq (coherent : store.Coherent) (id : NodeId) : store.children id =
    (store.nodes.filter fun node => node.parent = some id).map Node.id := by
  rw [children, coherent.containment, map_snd_link?]

theorem Placed.children_sublist (placed : store.Placed) (id : NodeId) :
    (store.children id).Sublist
      ((store.nodes.filter fun node => node.parent = some id).map Node.id) := by
  rw [← map_snd_link?]
  exact (placed.listed.filter _).map _

theorem Placed.nodup_children (placed : store.Placed) (id : NodeId) : (store.children id).Nodup :=
  placed.distinct.sublist ((placed.children_sublist id).trans (List.filter_sublist.map _))

theorem Placed.inside (placed : store.Placed) {id child : NodeId}
    (member : child ∈ store.children id) : Inside store child id := by
  obtain ⟨node, known, rfl⟩ := List.mem_map.1 ((placed.children_sublist id).subset member)
  obtain ⟨there, contained⟩ := List.mem_filter.1 known
  exact ⟨node, node?_of_mem_of_nodup placed.distinct there, of_decide_eq_true contained⟩

/-- The children in a store are nodes of every source that shows the store. -/
theorem downward_children {σ : Type} [NodeSource σ] (placed : store.Placed) {nodes : σ}
    (held : ∀ id node, store.node? id = some node → NodeSource.node? nodes id = some node) :
    Downward nodes store.children := by
  refine ⟨fun id child member => ?_, placed.nodup_children⟩
  obtain ⟨node, found, contained⟩ := placed.inside member
  exact ⟨node, held _ _ found, contained⟩

/-- Distinct nodes that stand in others are no more than the pairs of the containment. -/
theorem length_le_containment {ids : List NodeId} (distinct : ids.Nodup)
    (within : ∀ id ∈ ids, ∃ parent, id ∈ store.children parent) :
    ids.length ≤ store.containment.length := by
  have listed : ids ⊆ store.containment.map Prod.snd := by
    intro id member
    obtain ⟨parent, child⟩ := within id member
    obtain ⟨link, known, rfl⟩ := List.mem_map.1 child
    exact List.mem_map_of_mem (List.mem_filter.1 known).1
  simpa using (List.subperm_of_subset distinct listed).length_le

/-- With enough steps a stack is unfolded to the pre-order. -/
theorem unfold_eq {roots listed : List NodeId} (spans : Spans store.children roots listed)
    (fuel : Nat) (stack : List NodeId) :
    store.unfold (listed.length + fuel) (roots ++ stack) = listed ++ store.unfold fuel stack := by
  induction spans generalizing fuel stack with
  | nil => simp
  | @cons id rest below others _ _ ihBelow ihOthers =>
    have steps : (id :: (below ++ others)).length + fuel =
        below.length + (others.length + fuel) + 1 := by
      simp only [List.length_cons, List.length_append]
      omega
    rw [steps, List.cons_append, unfold, ihBelow, ihOthers]
    simp

theorem unfold_nil (fuel : Nat) : store.unfold fuel [] = [] := by
  cases fuel <;> rfl

/-- What stands below a node in a store, in pre-order. -/
theorem exists_below {σ : Type} [NodeSource σ] [LawfulSource σ] {nodes : σ}
    (placed : store.Placed)
    (held : ∀ id node, store.node? id = some node → NodeSource.node? nodes id = some node)
    {root : NodeId} {path : List Node} (ascends : Ascends nodes (some root) path) :
    ∃ below, Spans store.children (store.children root) below ∧
      (root :: below).Nodup ∧ below.length ≤ store.containment.length := by
  have down := downward_children placed held
  obtain ⟨below, spans⟩ := down.exists_spans ascends
  have beside := Spans.beside_next down ascends
  have distinct := spans.nodup down (placed.nodup_children root) beside
  refine ⟨below, spans, List.nodup_cons.2 ⟨?_, distinct⟩, ?_⟩
  · intro member
    obtain ⟨before, first, _, up⟩ := spans.ascends down beside root member
    have lengths := congrArg List.length (ascends.unique up)
    simp at lengths
    omega
  · refine length_le_containment distinct ?_
    refine spans.induction (fun id member => ⟨root, member⟩) ?_
    exact fun id _ _ child member => ⟨id, member⟩

/-- A subtree is its root and what stands below it. -/
theorem subtree_eq {root : NodeId} {below : List NodeId}
    (spans : Spans store.children (store.children root) below)
    (enough : below.length ≤ store.containment.length) : store.subtree root = root :: below := by
  have steps : store.containment.length =
      below.length + (store.containment.length - below.length) := by omega
  rw [subtree, unfold, steps, unfold_eq spans, unfold_nil, List.append_nil]

end NodeStore

end FormFlow
