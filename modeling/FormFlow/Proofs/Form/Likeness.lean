import FormFlow.Proofs.Form.Placement
import Mathlib.Logic.Relation

/-!
# Likenesses

What stands below a node, and in none of its iterations, is reached by steps down (`PartOf`,
`Beneath`). A likeness takes what stands beneath a node of one source to what stands beneath the
image of the node in another one, step by step and with nothing left over (`Likeness`). It is
enough to look at one step in both directions: whatever is read off the way up between a node and
the top of the likeness is then taken along, as the nearest collection is
(`Likeness.repeatedAbove?`).

Likenesses compose (`Likeness.trans`), and a part of what is alike is alike (`Likeness.restrict`).
-/

set_option autoImplicit false

namespace FormFlow

/-- One kind repeats what it contains if another does, and it has the code of a field that the
other has. -/
structure NodeKind.Alike (kind other : NodeKind) : Prop where
  repeated : other.isRepeated = kind.isRepeated
  code : other.field?.map Field.code = kind.field?.map Field.code

theorem NodeKind.Alike.refl (kind : NodeKind) : kind.Alike kind := ⟨rfl, rfl⟩

theorem NodeKind.Alike.trans {first middle last : NodeKind} (one : first.Alike middle)
    (other : middle.Alike last) : first.Alike last :=
  ⟨other.repeated.trans one.repeated, other.code.trans one.code⟩

namespace NodeSource

variable {σ τ υ : Type} [NodeSource σ] [NodeSource τ] [NodeSource υ]

/-- A node stands directly in another one, and it is no iteration. -/
def PartOf (nodes : σ) (inner outer : NodeId) : Prop :=
  ∃ node, node? nodes inner = some node ∧ node.parent = some outer ∧ node.kind.isIteration = false

/-- A node stands below another one, with no iteration on the way. -/
def Beneath (nodes : σ) : NodeId → NodeId → Prop := Relation.TransGen (PartOf nodes)

/-- A node is another one or stands beneath it. -/
def Among (nodes : σ) : NodeId → NodeId → Prop := Relation.ReflTransGen (PartOf nodes)

theorem PartOf.transfer {earlier : σ} {later : τ} (shown : Shows earlier later)
    {inner outer : NodeId} (part : PartOf earlier inner outer) : PartOf later inner outer := by
  obtain ⟨node, found, rest⟩ := part
  exact ⟨node, shown.node _ _ found, rest⟩

theorem PartOf.inside {nodes : σ} {inner outer : NodeId} (part : PartOf nodes inner outer) :
    Inside nodes inner outer := by
  obtain ⟨node, found, contained, _⟩ := part
  exact ⟨node, found, contained⟩

namespace Beneath

variable {nodes : σ} {id middle top : NodeId}

theorem among (beneath : Beneath nodes id top) : Among nodes id top :=
  Relation.TransGen.to_reflTransGen beneath

theorem trans_among (beneath : Beneath nodes id middle) (among : Among nodes middle top) :
    Beneath nodes id top :=
  Relation.TransGen.trans_left beneath among

theorem inside (beneath : Beneath nodes id top) : Relation.TransGen (Inside nodes) id top :=
  Relation.TransGen.mono (fun _ _ part => PartOf.inside part) _ _ beneath

/-- What stands beneath something is there. -/
theorem exists_node (beneath : Beneath nodes id top) :
    ∃ node, node? nodes id = some node ∧ node.kind.isIteration = false := by
  obtain ⟨_, ⟨node, found, _, other⟩, _⟩ := Relation.TransGen.head'_iff.1 beneath
  exact ⟨node, found, other⟩

end Beneath

theorem among_iff {nodes : σ} {id top : NodeId} :
    Among nodes id top ↔ id = top ∨ Beneath nodes id top := by
  refine Relation.reflTransGen_iff_eq_or_transGen.trans ?_
  rw [eq_comm]
  rfl

/-- None of the nodes is an iteration. -/
def Uniterated (nodes : σ) : Prop :=
  ∀ id node, node? nodes id = some node → node.kind.isIteration = false

/-- Where there are no iterations, whatever stands below something stands beneath it. -/
theorem beneath_iff {nodes : σ} (single : Uniterated nodes) {id top : NodeId} :
    Beneath nodes id top ↔ Relation.TransGen (Inside nodes) id top := by
  refine ⟨Beneath.inside, Relation.TransGen.mono ?_ _ _⟩
  rintro inner outer ⟨node, found, contained⟩
  exact ⟨node, found, contained, single inner node found⟩

/-! ## Ways up -/

/-- Where walks go to the top, nothing contains itself. -/
theorem Upright.acyclic {nodes : σ} (upright : Upright nodes) : Acyclic nodes := by
  intro id cycle
  have none : ∀ id node, node? nodes id = some node → ¬Relation.TransGen (Inside nodes) id id := by
    intro id node found
    refine upright.induction (P := fun id _ => ¬Relation.TransGen (Inside nodes) id id) ?_ found
    intro id node found ih cycle
    obtain ⟨parent, ⟨other, again, contained⟩, rest⟩ := Relation.TransGen.head'_iff.1 cycle
    cases found.symm.trans again
    obtain ⟨outer, present⟩ := upright.exists_parent found contained
    exact ih parent outer contained present
      (Relation.TransGen.tail' rest ⟨node, found, contained⟩)
  obtain ⟨_, ⟨node, found, _⟩, _⟩ := Relation.TransGen.head'_iff.1 cycle
  exact none id node found cycle

section

variable [LawfulSource σ]

/-- The nodes on the way up are those that a node stands in. -/
theorem Upright.mem_above_iff {nodes : σ} (upright : Upright nodes) {id top : NodeId}
    {node : Node} (found : node? nodes id = some node) :
    (∃ outer, node? nodes top = some outer ∧ outer ∈ above nodes node) ↔
      Relation.TransGen (Inside nodes) id top := by
  refine upright.induction (P := fun id node =>
    (∃ outer, node? nodes top = some outer ∧ outer ∈ above nodes node) ↔
      Relation.TransGen (Inside nodes) id top) ?_ found
  intro id node found ih
  cases contained : node.parent with
  | none =>
    have top_ : above nodes node = [] := by
      rw [above, contained]
      cases size nodes <;> rfl
    refine ⟨?_, fun inside => ?_⟩
    · rintro ⟨_, _, member⟩
      rw [top_] at member
      cases member
    · obtain ⟨parent, ⟨other, again, within⟩, _⟩ := Relation.TransGen.head'_iff.1 inside
      cases found.symm.trans again
      cases contained.symm.trans within
  | some parent =>
    obtain ⟨around, present⟩ := upright.exists_parent found contained
    have path : above nodes node = around :: above nodes around := by
      rw [← upright.lineage_eq present, above, contained]
      rfl
    have step : Inside nodes id parent := ⟨node, found, contained⟩
    rw [path]
    refine ⟨?_, fun inside => ?_⟩
    · rintro ⟨outer, there, member⟩
      rcases List.mem_cons.1 member with rfl | later
      · rw [← LawfulSource.id_of_node? _ _ _ there, LawfulSource.id_of_node? _ _ _ present]
        exact .single step
      · exact .head step ((ih parent around contained present).1 ⟨outer, there, later⟩)
    · obtain ⟨next, ⟨other, again, within⟩, rest⟩ := Relation.TransGen.head'_iff.1 inside
      cases found.symm.trans again
      cases contained.symm.trans within
      rcases Relation.reflTransGen_iff_eq_or_transGen.1 rest with rfl | later
      · exact ⟨around, present, List.mem_cons_self ..⟩
      · obtain ⟨outer, there, member⟩ := (ih parent around contained present).2 later
        exact ⟨outer, there, List.mem_cons_of_mem _ member⟩

/-- A node stands in what is around it. -/
theorem Upright.inside_of_encloses {nodes : σ} (upright : Upright nodes) {id : NodeId}
    {node outer : Node} {test : NodeKind → Bool} (found : node? nodes id = some node)
    (encloses : enclosingAbove? nodes node test = some outer) :
    Relation.TransGen (Inside nodes) id outer.id :=
  (upright.mem_above_iff found).1
    ⟨outer, (node?_of_enclosingAbove? encloses).1, List.mem_of_find?_eq_some encloses⟩

end

/-- No scope stands beneath something that is no scope. -/
theorem WellPlaced.isScope_of_among {nodes : σ} (placed : WellPlaced nodes) {id top : NodeId}
    {outer : Node} (present : node? nodes top = some outer) (noScope : outer.kind.isScope = false)
    (among : Among nodes id top) :
    ∀ node, node? nodes id = some node → node.kind.isScope = false := by
  induction among using Relation.ReflTransGen.head_induction_on with
  | refl =>
    intro node found
    cases present.symm.trans found
    exact noScope
  | head part rest ih =>
    rename_i inner middle
    obtain ⟨node, again, contained, _⟩ := part
    intro other found
    cases again.symm.trans found
    obtain ⟨around, there⟩ := placed.upright.exists_parent found contained
    cases isScope : node.kind.isScope with
    | false => rfl
    | true =>
      have isJourney := (placed.stands _ _ found).scope isScope _ _ contained there
      have single := ih around there
      rw [NodeKind.isScope, isJourney] at single
      cases single

/-- What stands directly in something that is no step is no pseudo-node. -/
theorem WellPlaced.pseudo?_of_contained {nodes : σ} (placed : WellPlaced nodes)
    {id parent : NodeId} {node outer : Node} (found : node? nodes id = some node)
    (contained : node.parent = some parent) (present : node? nodes parent = some outer)
    (noStep : outer.kind.isStep = false) : node.kind.pseudo? = none := by
  cases isPseudo : node.kind.pseudo? with
  | none => rfl
  | some definition =>
    obtain ⟨step, around, within, known, isStep⟩ :=
      (placed.stands id node found).pseudo definition (NodeKind.pseudo?_eq_some_iff.1 isPseudo)
    cases contained.symm.trans within
    cases present.symm.trans known
    cases noStep.symm.trans isStep

/-! ## Likenesses -/

/-- What stands beneath a node of one source is taken to what stands beneath its image in another
one: parents to parents, different nodes to different nodes, and nothing else stands there. -/
structure Likeness (earlier : σ) (later : τ) (top : NodeId) (place : NodeId → NodeId) : Prop where
  part : ∀ inner outer, Among earlier outer top → PartOf earlier inner outer →
    PartOf later (place inner) (place outer)
  only : ∀ inner outer, Among earlier outer top → PartOf later inner (place outer) →
    ∃ origin, PartOf earlier origin outer ∧ place origin = inner
  apart : ∀ one other, Among earlier one top → Among earlier other top →
    place one = place other → one = other
  alike : ∀ id node image, Beneath earlier id top → node? earlier id = some node →
    node? later (place id) = some image → node.kind.Alike image.kind

namespace Likeness

variable {earlier : σ} {later : τ} {top : NodeId} {place : NodeId → NodeId}

theorem refl (nodes : σ) (top : NodeId) : Likeness nodes nodes top id where
  part := fun _ _ _ part => part
  only := fun inner _ _ part => ⟨inner, part, rfl⟩
  apart := fun _ _ _ _ same => same
  alike := fun _ node image _ found again => by
    cases found.symm.trans again
    exact .refl _

/-- What is alike beneath a node is alike beneath everything that stands there. -/
theorem restrict (like : Likeness earlier later top place) {inner : NodeId}
    (among : Among earlier inner top) : Likeness earlier later inner place where
  part := fun _ _ within => like.part _ _ (within.trans among)
  only := fun _ _ within => like.only _ _ (within.trans among)
  apart := fun _ _ one other => like.apart _ _ (one.trans among) (other.trans among)
  alike := fun _ _ _ beneath => like.alike _ _ _ (beneath.trans_among among)

section

variable (like : Likeness earlier later top place)
include like

theorem beneath {id : NodeId} (beneath : Beneath earlier id top) :
    Beneath later (place id) (place top) := by
  induction beneath using Relation.TransGen.head_induction_on with
  | single part => exact .single (like.part _ _ .refl part)
  | head part rest ih => exact .head (like.part _ _ (Beneath.among rest) part) ih

theorem among {id : NodeId} (among : Among earlier id top) :
    Among later (place id) (place top) := by
  rcases among_iff.1 among with rfl | below
  · exact .refl
  · exact (like.beneath below).among

/-- Whatever stands beneath the image of the top is an image. -/
theorem exists_origin {id : NodeId} (beneath : Beneath later id (place top)) :
    ∃ origin, Beneath earlier origin top ∧ place origin = id := by
  induction beneath using Relation.TransGen.head_induction_on with
  | single part =>
    obtain ⟨origin, inner, same⟩ := like.only _ _ .refl part
    exact ⟨origin, .single inner, same⟩
  | head part rest ih =>
    obtain ⟨outer, below, rfl⟩ := ih
    obtain ⟨origin, inner, same⟩ := like.only _ _ below.among part
    exact ⟨origin, .head inner below, same⟩

theorem trans {last : υ} {further : NodeId → NodeId}
    (next : Likeness later last (place top) further) :
    Likeness earlier last top (further ∘ place) where
  part := fun _ _ among part => next.part _ _ (like.among among) (like.part _ _ among part)
  only := by
    intro inner outer among part
    obtain ⟨image, within, rfl⟩ := next.only _ _ (like.among among) part
    obtain ⟨origin, first, rfl⟩ := like.only _ _ among within
    exact ⟨origin, first, rfl⟩
  apart := fun one other first second same => like.apart _ _ first second
    (next.apart _ _ (like.among first) (like.among second) same)
  alike := by
    intro id node image below found there
    obtain ⟨between, known, _⟩ := (like.beneath below).exists_node
    exact (like.alike id node between below found known).trans
      (next.alike _ between image (like.beneath below) known there)

end

variable [LawfulSource σ] [LawfulSource τ] (like : Likeness earlier later top place)
include like

/-- The nearest collection or iteration above a node is the image of the nearest one above what the
node is the image of. -/
theorem repeatedAbove? (before : Upright earlier) (after : Upright later) {outer image : Node}
    (found : node? earlier top = some outer) (there : node? later (place top) = some image)
    (repeated : outer.kind.isRepeated = true) (same : image.kind.isRepeated = true) {id : NodeId}
    (beneath : Beneath earlier id top) : ∀ node copy, node? earlier id = some node →
      node? later (place id) = some copy → ∃ near far,
        NodeSource.repeatedAbove? earlier node = some near ∧
        NodeSource.repeatedAbove? later copy = some far ∧
        Among earlier near.id top ∧ far.id = place near.id := by
  induction beneath using Relation.TransGen.head_induction_on with
  | single part =>
    intro node copy present shown
    obtain ⟨_, again, within, _⟩ := like.part _ _ .refl part
    cases shown.symm.trans again
    obtain ⟨_, again, contained, _⟩ := part
    cases present.symm.trans again
    refine ⟨outer, image, before.enclosingAbove?_parent contained found repeated,
      after.enclosingAbove?_parent within there same, ?_, ?_⟩
    · rw [LawfulSource.id_of_node? _ _ _ found]
      exact .refl
    · rw [LawfulSource.id_of_node? _ _ _ found, LawfulSource.id_of_node? _ _ _ there]
  | head part rest ih =>
    rename_i inner middle
    have below : Beneath earlier middle top := rest
    intro node copy present shown
    obtain ⟨_, again, within, _⟩ := like.part _ _ below.among part
    cases shown.symm.trans again
    obtain ⟨_, again, contained, _⟩ := part
    cases present.symm.trans again
    obtain ⟨around, known, _⟩ := below.exists_node
    obtain ⟨far, seen, _⟩ := (like.beneath below).exists_node
    have kinds := (like.alike _ _ _ below known seen).repeated
    cases own : around.kind.isRepeated with
    | true =>
      refine ⟨around, far, before.enclosingAbove?_parent contained known own,
        after.enclosingAbove?_parent within seen (kinds.trans own), ?_, ?_⟩
      · rw [LawfulSource.id_of_node? _ _ _ known]
        exact below.among
      · rw [LawfulSource.id_of_node? _ _ _ known, LawfulSource.id_of_node? _ _ _ seen]
    | false =>
      simp only [NodeSource.repeatedAbove?]
      rw [before.enclosingAbove?_up contained known own,
        after.enclosingAbove?_up within seen (kinds.trans own)]
      exact ih around far known seen

/-- A node belongs to the top itself exactly if its image belongs to the image of the top. -/
theorem repeatedAbove?_iff (before : Upright earlier) (after : Upright later) {outer image : Node}
    (found : node? earlier top = some outer) (there : node? later (place top) = some image)
    (repeated : outer.kind.isRepeated = true) (same : image.kind.isRepeated = true) {id : NodeId}
    (beneath : Beneath earlier id top) {node copy : Node} (present : node? earlier id = some node)
    (shown : node? later (place id) = some copy) :
    (NodeSource.repeatedAbove? later copy).map Node.id = some (place top) ↔
      (NodeSource.repeatedAbove? earlier node).map Node.id = some top := by
  obtain ⟨near, far, above, around, among, image⟩ :=
    like.repeatedAbove? before after found there repeated same beneath node copy present shown
  rw [above, around, Option.map_some, Option.map_some, image, Option.some_inj, Option.some_inj]
  exact ⟨like.apart _ _ among .refl, congrArg place⟩

end Likeness

/-- What stands in a nested collection belongs to it or to one further in. -/
theorem Upright.repeatedAbove?_ne [LawfulSource σ] {nodes : σ} (upright : Upright nodes)
    {id nested collection : NodeId} {node top : Node} (found : node? nodes id = some node)
    (present : node? nodes nested = some top) (repeated : top.kind.isRepeated = true)
    (beneath : Beneath nodes id nested) (inside : Beneath nodes nested collection) :
    (repeatedAbove? nodes node).map Node.id ≠ some collection := by
  obtain ⟨near, _, encloses, _, among, _⟩ := (Likeness.refl nodes nested).repeatedAbove? upright
    upright present present repeated repeated beneath node node found found
  rw [encloses]
  rintro ⟨⟩
  exact upright.acyclic _ (Beneath.inside (Relation.TransGen.trans_right among inside))

end NodeSource

end FormFlow
