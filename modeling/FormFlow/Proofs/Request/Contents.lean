import FormFlow.Proofs.Form.Likeness
import FormFlow.Proofs.Request.Binding
import FormFlow.Proofs.Request.Mirror

/-!
# What stands in a collection

A call adds nothing to a node that is there, but for iterations to collections and pseudo-nodes to
steps (`RequestScope.Settled.part_of_materialize`). What stands beneath a collection is therefore
settled once the collection is there (`RequestScope.run_beneath_iff`), and it is held by one store.
It is what a template lists, whenever the template is read (`RequestScope.run_mem_template`).
-/

set_option autoImplicit false

namespace FormFlow

open NodeSource

/-- A node is held by its holder. -/
theorem Layered.node?_holder {layers : Layered} {id : NodeId} {node : Node}
    (found : layers.node? id = some node) : (layers.holder id).node? id = some node := by
  rcases node?_eq_some_iff.1 found with own | ⟨absent, lower⟩
  · rw [holder, if_pos (by rw [NodeStore.contains, own]; rfl)]
    exact own
  · rw [holder, if_neg (by rw [NodeStore.contains, absent]; simp)]
    exact lower

namespace RequestScope

/-- A call adds to a node that is no step nothing but iterations. -/
theorem Settled.part_of_materialize {request : RequestScope} (grounded : Grounded request.wired)
    (settled : Settled request) {collection : NodeId} {index : Nat} {inner outer : NodeId}
    {top : Node} (found : node? request.layers outer = some top)
    (noStep : top.kind.isStep = false)
    (part : PartOf (request.materialize collection index).1.layers inner outer) :
    PartOf request.layers inner outer := by
  obtain ⟨later, shown⟩ := settled.materialize grounded collection index
  obtain ⟨node, there, contained, single⟩ := part
  have plain : node.kind.pseudo? = none :=
    later.placed.pseudo?_of_contained there contained (shown.node _ _ found) noStep
  rcases settled.materialize_cases grounded collection index with
    same | ⟨after, template, scheme, complete, state, iterations, made, done⟩
  · rw [same] at there
    exact ⟨node, there, contained, single⟩
  · rw [done] at there
    rcases made.old_or_copy grounded.coherent settled.anchored settled.placed grounded.upright
      there plain with old | ⟨new, _⟩
    · exact ⟨node, old, contained, single⟩
    -- What is new stands in something new, or it is the iteration.
    rcases List.mem_cons.1 new with rfl | copied
    · cases single
    · obtain ⟨before, rest, split⟩ := List.append_of_mem copied
      obtain ⟨parent, within, place⟩ := copyNode_hangs made.iterable.listed scheme _ _ before node
        rest split
      cases contained.symm.trans within
      have low := settled.anchored.lt_nextId grounded.coherent ⟨top, found⟩
      have high : request.overlay.nodes.nextId ≤ outer.val := by
        rcases place with rfl | earlier
        · exact Nat.le_refl _
        · obtain ⟨other, member, rfl⟩ := List.mem_map.1 earlier
          have inside : other ∈ copiesOf template scheme index request.overlay.nodes := by
            rw [split]
            exact List.mem_append_left _ member
          exact Nat.le_of_lt (copies_high inside)
      omega

section

variable {wired : WiredForm} (grounded : Grounded wired) (started : Settled (start wired))
include grounded started

theorem run_part (calls more : List (NodeId × Nat)) {inner outer : NodeId} {top : Node}
    (found : node? (run wired calls).layers outer = some top) (noStep : top.kind.isStep = false)
    (part : PartOf (run wired (calls ++ more)).layers inner outer) :
    PartOf (run wired calls).layers inner outer := by
  induction more using List.reverseRecOn with
  | nil => rwa [List.append_nil] at part
  | append_singleton more call ih =>
    rw [← List.append_assoc, run_concat] at part
    have known := (run_shows grounded started calls more).node _ _ found
    exact ih ((settled_run grounded started (calls ++ more)).part_of_materialize
      ((wired_run wired _).symm ▸ grounded) known noStep part)

/-- What stands beneath a node that is no scope is settled when the node is there. -/
theorem run_beneath_iff (calls more : List (NodeId × Nat)) {id top : NodeId} {outer : Node}
    (found : node? (run wired calls).layers top = some outer)
    (noScope : outer.kind.isScope = false) :
    Beneath (run wired (calls ++ more)).layers id top ↔
      Beneath (run wired calls).layers id top := by
  have shown := run_shows grounded started calls more
  have placed := (settled_run grounded started calls).placed
  refine ⟨fun beneath => ?_, Relation.TransGen.mono (fun _ _ => PartOf.transfer shown) _ _⟩
  induction beneath using Relation.TransGen.head_induction_on with
  | single part =>
    exact .single (run_part grounded started calls more found
      (Bool.or_eq_false_iff.1 noScope).2 part)
  | head part _ ih =>
    have below : Beneath _ _ top := ih
    obtain ⟨middle, there, _⟩ := below.exists_node
    have single := placed.isScope_of_among found noScope below.among middle there
    exact .head (run_part grounded started calls more there
      (Bool.or_eq_false_iff.1 single).2 part) ih

/-! ## Templates -/

/-- The store that holds a collection leads from what it holds to what stands in that, up to
iterations. -/
theorem run_leads (calls : List (NodeId × Nat)) {collection inner outer : NodeId}
    {top node : Node} (held : ((run wired calls).layers.holder collection).node? outer = some top)
    (noScope : top.kind.isScope = false) (part : PartOf (run wired calls).layers inner outer)
    (found : node? (run wired calls).layers inner = some node) :
    ((run wired calls).layers.holder collection).node? inner = some node ∧
      inner ∈ ((run wired calls).layers.holder collection).children outer := by
  have settled := settled_run grounded started calls
  have base : (run wired calls).wired = wired := wired_run wired calls
  have anchored := settled.anchored
  have coherent : (run wired calls).wired.form.nodes.Coherent := base.symm ▸ grounded.coherent
  have holding : ((run wired calls).layers.holder collection).Coherent :=
    Template.coherent_holder coherent anchored _
  obtain ⟨_, again, contained, single⟩ := part
  cases again.symm.trans found
  suffices kept : ((run wired calls).layers.holder collection).node? inner = some node from
    ⟨kept, (NodeStore.mem_children_iff holding).2 ⟨node, kept, contained⟩⟩
  by_cases upper : (run wired calls).layers.overlay.contains collection = true
  · rw [Layered.holder, if_pos upper] at held ⊢
    rcases Layered.node?_eq_some_iff.1 found with own | ⟨_, lower⟩
    · exact own
    · -- A node of the form stands in nodes of the form.
      change (run wired calls).wired.form.nodes.node? inner = some node at lower
      rw [base] at lower anchored
      obtain ⟨around, there⟩ := grounded.upright.exists_parent lower contained
      obtain ⟨member, rfl⟩ := (NodeStore.node?_eq_some_iff anchored.coherent).1 held
      have low := NodeStore.id_lt_nextId grounded.coherent there
      have high := anchored.high top member
      omega
  · rw [Layered.holder, if_neg upper] at held ⊢
    change (run wired calls).wired.form.nodes.node? outer = some top at held
    change (run wired calls).wired.form.nodes.node? inner = some node
    rw [base] at held ⊢
    have first : PartOf (run wired []).layers inner outer :=
      run_part grounded started [] calls held (Bool.or_eq_false_iff.1 noScope).2
        ⟨node, found, contained, single⟩
    obtain ⟨other, there, _⟩ := first
    have same := (run_shows grounded started [] calls).node _ _ there
    cases found.symm.trans same
    exact there

/-- A traversal of a template reaches whatever stands beneath the collection. -/
theorem run_reaches (calls : List (NodeId × Nat)) {collection : NodeId} {top : Node}
    (found : node? (run wired calls).layers collection = some top)
    (noScope : top.kind.isScope = false) {reached : List NodeId}
    (traverses : Template.Traverses (run wired calls).layers collection reached) {id : NodeId}
    (beneath : Beneath (run wired calls).layers id collection) :
    id ∈ reached ∧ ∃ node, ((run wired calls).layers.holder collection).node? id = some node ∧
      node.kind.isIteration = false := by
  have placed := (settled_run grounded started calls).placed
  have held : ∀ id node, ((run wired calls).layers.holder collection).node? id = some node →
      node? (run wired calls).layers id = some node := fun _ _ =>
    Layered.node?_of_holder ((wired_run wired calls).symm ▸ grounded.coherent)
      (settled_run grounded started calls).anchored
  induction beneath using Relation.TransGen.head_induction_on with
  | single part =>
    have ⟨node, there, _, single⟩ := part
    obtain ⟨kept, child⟩ :=
      run_leads grounded started calls (Layered.node?_holder found) noScope part there
    exact ⟨traverses.spans.mem_of_root child, node, kept, single⟩
  | head part rest ih =>
    obtain ⟨known, around, kept, single⟩ := ih
    have ⟨node, there, _, other⟩ := part
    have inner := placed.isScope_of_among found noScope (Beneath.among rest) around
      (held _ _ kept)
    obtain ⟨below, child⟩ := run_leads grounded started calls kept inner part there
    refine ⟨traverses.spans.mem_of_next known ?_, node, below, other⟩
    rw [Template.onward, kept]
    simpa [single] using child

/-- **The template of a collection lists what stands beneath the collection.** -/
theorem run_mem_template (calls : List (NodeId × Nat)) {collection id : NodeId}
    {template : Template}
    (read : Template.read (run wired calls).layers wired.scopes collection = .ok template) :
    id ∈ Template.ids template.nodes ↔ Beneath (run wired calls).layers id collection := by
  have settled := settled_run grounded started calls
  have coherent : (run wired calls).wired.form.nodes.Coherent :=
    (wired_run wired calls).symm ▸ grounded.coherent
  obtain ⟨top, definition, present, isCollection, closed, owned, isStep, rfl, code, listed⟩ :=
    Template.read_spec coherent settled.anchored.coherent read
  have iterable : Iterable (run wired calls).layers template :=
    ⟨⟨top, definition, present, isCollection, closed⟩, owned, listed⟩
  have noScope : top.kind.isScope = false := by
    rw [isCollection]
    rfl
  constructor
  · intro member
    obtain ⟨entry, known, rfl⟩ := List.mem_map.1 member
    refine iterable.induction (P := fun entry =>
      Beneath (run wired calls).layers entry.node.id template.collection) ?_ entry known
    intro entry known parent contained place
    have part : PartOf (run wired calls).layers entry.node.id parent :=
      ⟨entry.node, iterable.found coherent settled.anchored known, contained,
        listed.copied entry known⟩
    rcases place with rfl | ⟨outer, _, rfl, beneath⟩
    · exact .single part
    · exact .head part beneath
  · intro beneath
    obtain ⟨reached, traverses, entries⟩ :=
      Template.exists_entries coherent settled.anchored settled.placed.upright read
    obtain ⟨known, node, held, single⟩ :=
      run_reaches grounded started calls present noScope traverses beneath
    rw [entries]
    exact Template.mem_ids_entries known held single

end

end RequestScope

end FormFlow
