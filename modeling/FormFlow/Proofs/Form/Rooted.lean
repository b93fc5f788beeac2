import FormFlow.Proofs.Form.Lineage
import FormFlow.Wiring.Membership

/-!
# Walks to the top

If all parents are there, the walk up from a node ends at the top (`NodeSource.Rooted`), and it
is the same in every source that shows the same nodes and more (`NodeSource.Shows`). Whatever
is read off the way up of a node is therefore settled as soon as the node is there: its step,
the fields and the collections around it, and whether it waits for an iteration.

Walks are followed one node at a time (`Upright.induction`): what stands around a node is its
parent and what stands around the parent.
-/

set_option autoImplicit false

namespace FormFlow

namespace NodeSource

variable {σ τ : Type} [NodeSource σ] [NodeSource τ]

/-- The walk from a start to the top, if every parent on the way is there. -/
inductive Rooted (nodes : σ) : Option NodeId → List Node → Prop where
  | top : Rooted nodes none []
  | step {id : NodeId} {node : Node} {path : List Node} : node? nodes id = some node →
    Rooted nodes node.parent path → Rooted nodes (some id) (node :: path)

/-- One source shows the nodes and pseudo-nodes of another, under the same identifiers. -/
structure Shows (earlier : σ) (later : τ) : Prop where
  node : ∀ id node, node? earlier id = some node → node? later id = some node
  pseudo : ∀ identity id, pseudo? earlier identity = some id → pseudo? later identity = some id

/-- From every node there is a walk to the top. -/
def Upright (nodes : σ) : Prop :=
  ∀ id node, node? nodes id = some node → ∃ path, Rooted nodes (some id) path

theorem Shows.refl (nodes : σ) : Shows nodes nodes := ⟨fun _ _ => id, fun _ _ => id⟩

theorem Shows.trans {υ : Type} [NodeSource υ] {first : σ} {middle : τ} {last : υ}
    (one : Shows first middle) (other : Shows middle last) : Shows first last :=
  ⟨fun id node found => other.node id node (one.node id node found),
    fun identity id found => other.pseudo identity id (one.pseudo identity id found)⟩

namespace Rooted

variable {nodes : σ} {start : Option NodeId} {path : List Node}

theorem ascends (rooted : Rooted nodes start path) : Ascends nodes start path := by
  induction rooted with
  | top => exact .top
  | step found _ ih => exact .step found ih

theorem transfer {later : τ} (rooted : Rooted nodes start path) (shown : Shows nodes later) :
    Rooted later start path := by
  induction rooted with
  | top => exact .top
  | step found _ ih => exact .step (shown.node _ _ found) ih

end Rooted

/-- A walk on which every parent is there goes to the top. -/
theorem Ascends.rooted {nodes : σ} {start : Option NodeId} {path : List Node}
    (ascends : Ascends nodes start path)
    (contained : ∀ id node parent, node? nodes id = some node → node.parent = some parent →
      ∃ outer, node? nodes parent = some outer)
    (present : ∀ id, start = some id → ∃ node, node? nodes id = some node) :
    Rooted nodes start path := by
  induction ascends with
  | top => exact .top
  | gone absent =>
    obtain ⟨node, found⟩ := present _ rfl
    cases absent.symm.trans found
  | step found _ ih => exact .step found (ih fun parent above => contained _ _ parent found above)

namespace Upright

variable {nodes : σ}

/-- A parent is there. -/
theorem exists_parent (upright : Upright nodes) {id parent : NodeId} {node : Node}
    (found : node? nodes id = some node) (contained : node.parent = some parent) :
    ∃ outer, node? nodes parent = some outer := by
  obtain ⟨path, rooted⟩ := upright id node found
  cases rooted with
  | step again above =>
    cases found.symm.trans again
    rw [contained] at above
    cases above with
    | step present _ => exact ⟨_, present⟩

/-- What holds of a node whenever it holds of its parent holds of every node. -/
theorem induction (upright : Upright nodes) {P : NodeId → Node → Prop}
    (up : ∀ id node, node? nodes id = some node →
      (∀ parent outer, node.parent = some parent → node? nodes parent = some outer →
        P parent outer) → P id node)
    {id : NodeId} {node : Node} (found : node? nodes id = some node) : P id node := by
  have along : ∀ start path, Rooted nodes start path → ∀ id, start = some id →
      ∀ node, node? nodes id = some node → P id node := by
    intro start path rooted
    induction rooted with
    | top =>
      intro id same
      cases same
    | @step start first rest present above ih =>
      intro id same node found
      cases same
      cases present.symm.trans found
      exact up start first found fun parent outer contained => ih parent contained outer
  obtain ⟨path, rooted⟩ := upright id node found
  exact along _ path rooted id rfl node found

variable [LawfulSource σ] (upright : Upright nodes) {id : NodeId} {node : Node}
  (found : node? nodes id = some node)
include upright found

theorem exists_above : ∃ path, Rooted nodes node.parent path ∧ above nodes node = path := by
  obtain ⟨path, rooted⟩ := upright id node found
  cases rooted with
  | step again rest =>
    cases found.symm.trans again
    exact ⟨_, rest, rest.ascends.above_eq⟩

theorem lineage_eq : lineage nodes id = node :: above nodes node := by
  obtain ⟨path, rest, same⟩ := upright.exists_above found
  rw [same]
  exact (Rooted.step found rest).ascends.lineage_eq

/-- A node that satisfies a test is the nearest one from itself. -/
theorem enclosing?_self {test : NodeKind → Bool} (passes : test node.kind = true) :
    enclosing? nodes id test = some node := by
  rw [enclosing?, upright.lineage_eq found]
  exact List.find?_cons_of_pos passes

/-- Otherwise it is found above. -/
theorem enclosing?_above {test : NodeKind → Bool} (fails : test node.kind = false) :
    enclosing? nodes id test = enclosingAbove? nodes node test := by
  rw [enclosing?, upright.lineage_eq found]
  exact List.find?_cons_of_neg (by simpa using fails)

end Upright

theorem node?_of_enclosingAbove? [LawfulSource σ] {nodes : σ} {node : Node}
    {test : NodeKind → Bool} {outer : Node}
    (encloses : enclosingAbove? nodes node test = some outer) :
    node? nodes outer.id = some outer ∧ test outer.kind = true :=
  ⟨node?_of_mem_climb (List.mem_of_find?_eq_some encloses),
    by simpa using List.find?_some encloses⟩

/-- Above a node at the top there is nothing. -/
theorem enclosingAbove?_top {nodes : σ} {node : Node} (top : node.parent = none)
    (test : NodeKind → Bool) : enclosingAbove? nodes node test = none := by
  rw [enclosingAbove?, above, top]
  cases size nodes <;> rfl

/-- What is around a node is found from its parent. -/
theorem enclosingAbove?_of_parent (nodes : σ) {node : Node} {parent : NodeId}
    (contained : node.parent = some parent) (test : NodeKind → Bool) :
    enclosingAbove? nodes node test = enclosing? nodes parent test := by
  rw [enclosingAbove?, above, contained]
  rfl

/-! ## What is settled once a node is there -/

namespace Shows

variable [LawfulSource σ] [LawfulSource τ] {earlier : σ} {later : τ}
  (shown : Shows earlier later) (upright : Upright earlier) {id : NodeId} {node : Node}
  (found : node? earlier id = some node)
include shown upright found

theorem above_eq : above later node = above earlier node := by
  obtain ⟨path, rooted, same⟩ := upright.exists_above found
  rw [same]
  exact (rooted.transfer shown).ascends.above_eq

theorem lineage_eq : lineage later id = lineage earlier id := by
  obtain ⟨path, rooted⟩ := upright id node found
  rw [rooted.ascends.lineage_eq, (rooted.transfer shown).ascends.lineage_eq]

theorem enclosingAbove?_eq (test : NodeKind → Bool) :
    enclosingAbove? later node test = enclosingAbove? earlier node test := by
  simp only [enclosingAbove?]
  rw [shown.above_eq upright found]

theorem repeatedAbove?_eq : repeatedAbove? later node = repeatedAbove? earlier node :=
  shown.enclosingAbove?_eq upright found _

theorem inOpenTemplate_eq : inOpenTemplate later node = inOpenTemplate earlier node := by
  simp only [inOpenTemplate]
  rw [shown.repeatedAbove?_eq upright found]

theorem awaitsIteration_eq : awaitsIteration later node = awaitsIteration earlier node := by
  simp only [awaitsIteration]
  rw [shown.inOpenTemplate_eq upright found]

theorem owningStep?_eq : owningStep? later id = owningStep? earlier id := by
  simp only [owningStep?, enclosing?]
  rw [shown.lineage_eq upright found, found, shown.node id node found]

end Shows

end NodeSource

end FormFlow
