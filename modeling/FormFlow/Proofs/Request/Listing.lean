import FormFlow.Proofs.Form.Preorder
import FormFlow.Proofs.Request.Copies
import Mathlib.Data.List.Nodup

/-!
# How a template is listed

Reading a template is a traversal that does not go into iterations (`Template.onward`). It never
fails, and it lists what it reaches (`Template.Traverses`): every node below the collection that
stands in none of its iterations, each once.

The codes of the fields that belong to the collection itself can be read off the whole subtree
(`Template.exists_traverses`): no field below an iteration belongs to the collection.
-/

set_option autoImplicit false

namespace FormFlow

open NodeSource

/-! ## What is around a listed node -/

/-- What stands around a node below one that satisfies a test is that node or is listed too. -/
theorem Spans.encloses {σ : Type} [NodeSource σ] [LawfulSource σ] {nodes : σ}
    {next : NodeId → List NodeId} (upright : Upright nodes) (down : Downward nodes next)
    {test : NodeKind → Bool} {id : NodeId} {outer : Node} (found : node? nodes id = some outer)
    (passes : test outer.kind = true) {listed : List NodeId}
    (spans : Spans next (next id) listed) :
    ∀ other ∈ listed, ∃ node around, node? nodes other = some node ∧
      enclosingAbove? nodes node test = some around ∧ around.id ∈ id :: listed := by
  refine spans.induction ?_ ?_
  · intro child member
    obtain ⟨node, there, contained⟩ := down.inside id child member
    refine ⟨node, outer, there, upright.enclosingAbove?_parent contained found passes, ?_⟩
    rw [LawfulSource.id_of_node? _ _ _ found]
    exact List.mem_cons_self ..
  · rintro other member ⟨inner, around, present, encloses, known⟩ child leads
    obtain ⟨node, there, contained⟩ := down.inside other child leads
    cases repeated : test inner.kind with
    | true =>
      refine ⟨node, inner, there, upright.enclosingAbove?_parent contained present repeated, ?_⟩
      rw [LawfulSource.id_of_node? _ _ _ present]
      exact List.mem_cons_of_mem _ member
    | false =>
      refine ⟨node, around, there, ?_, known⟩
      rw [upright.enclosingAbove?_up contained present repeated]
      exact encloses

namespace Layered

/-- The code of a field whose nearest collection or iteration is a given collection. -/
def ownCode? (layers : Layered) (collection id : NodeId) : Option String := do
  let node ← layers.node? id
  let field ← node.kind.field?
  let outer ← repeatedAbove? layers node
  if outer.id = collection then some field.code else none

/-- The codes of the fields that belong to a collection and to no template nested in it, in
pre-order. -/
def ownCodes (layers : Layered) (collection : NodeId) : List String :=
  ((layers.holder collection).subtree collection).filterMap (layers.ownCode? collection)

/-- A field that belongs to something else has no code of the collection's own. -/
theorem ownCode?_eq_none {layers : Layered} {collection id : NodeId} {node outer : Node}
    (found : NodeSource.node? layers id = some node)
    (encloses : enclosingAbove? layers node NodeKind.isRepeated = some outer)
    (apart : outer.id ≠ collection) : layers.ownCode? collection id = none := by
  have known : layers.node? id = some node := found
  have nearest : repeatedAbove? layers node = some outer := encloses
  simp only [ownCode?]
  rw [known]
  simp only [Option.bind_eq_bind, Option.bind_some]
  rw [nearest]
  simp [apart]

/-- No field below an iteration that stands below a collection belongs to the collection. -/
theorem ownCode?_of_iteration {layers : Layered} {collection : NodeId} (upright : Upright layers)
    {next : NodeId → List NodeId} (down : Downward layers next) {below part : List NodeId}
    (distinct : (collection :: below).Nodup) {id : NodeId} {outer : Node} (member : id ∈ below)
    (within : part ⊆ below) (inner : Spans next (next id) part)
    (found : NodeSource.node? layers id = some outer)
    (isIteration : outer.kind.isIteration = true) :
    ∀ other ∈ part, layers.ownCode? collection other = none := by
  have repeated : outer.kind.isRepeated = true := by
    rw [NodeKind.isRepeated, isIteration, Bool.or_true]
  intro other known
  obtain ⟨node, around, present, encloses, near⟩ :=
    inner.encloses upright down found repeated other known
  -- The nearest collection or iteration is listed, and the collection itself is not.
  refine ownCode?_eq_none present encloses ?_
  rintro rfl
  refine (List.nodup_cons.1 distinct).1 ?_
  rcases List.mem_cons.1 near with same | later
  · exact same ▸ member
  · exact within later

end Layered

namespace Template

/-- What a traversal of a template goes on with. -/
def onward (holder : NodeStore) (id : NodeId) : List NodeId :=
  if (holder.node? id).any fun node => node.kind.isIteration then [] else holder.children id

theorem mem_children_of_onward {holder : NodeStore} {id child : NodeId}
    (member : child ∈ onward holder id) : child ∈ holder.children id := by
  rw [onward] at member
  split at member
  · cases member
  · exact member

theorem downward_onward {σ : Type} [NodeSource σ] {nodes : σ} {holder : NodeStore}
    (down : Downward nodes holder.children) : Downward nodes (onward holder) := by
  refine ⟨fun id child member => down.inside id child (mem_children_of_onward member), fun id => ?_⟩
  rw [onward]
  split
  · exact .nil
  · exact down.distinct id

/-- A node as part of a template, unless it is an iteration. -/
def part? (layers : Layered) (holder : NodeStore) (collection id : NodeId) :
    Option TemplateNode := do
  let node ← holder.node? id
  if node.kind.isIteration then none
  else some ⟨node, decide ((repeatedAbove? layers node).map Node.id = some collection)⟩

variable {layers : Layered} {holder : NodeStore} {collection : NodeId}

/-- With enough steps a stack is unfolded to the template nodes among what is reached. -/
theorem unfold_eq {roots listed : List NodeId} (spans : Spans (onward holder) roots listed)
    (present : ∀ id ∈ listed, ∃ node, holder.node? id = some node) (fuel : Nat)
    {stack : List NodeId} {entries : List TemplateNode}
    (rest : unfold layers holder collection fuel stack = .ok entries) :
    unfold layers holder collection (listed.length + fuel) (roots ++ stack) =
      .ok (listed.filterMap (part? layers holder collection) ++ entries) := by
  induction spans generalizing fuel stack entries with
  | nil => simpa using rest
  | @cons id others below later inner _ ihBelow ihOthers =>
    have steps : (id :: (below ++ later)).length + fuel =
        below.length + (later.length + fuel) + 1 := by
      simp only [List.length_cons, List.length_append]
      omega
    obtain ⟨node, found⟩ := present id (List.mem_cons_self ..)
    have got : holder.get id = .ok node := NodeSource.get_eq_ok found
    have after := ihOthers (fun other member =>
      present other (List.mem_cons_of_mem _ (List.mem_append_right _ member))) fuel rest
    rw [steps, List.cons_append, unfold, got]
    dsimp only [bind, Except.bind]
    by_cases isIteration : node.kind.isIteration = true
    · have closed : below = [] := by
        rw [onward, found] at inner
        simp only [Option.any_some, isIteration, if_true] at inner
        cases inner
        rfl
      subst closed
      rw [if_pos isIteration, List.length_nil, Nat.zero_add, after, List.filterMap_cons]
      simp [part?, found, isIteration]
    · have same : onward holder id = holder.children id := by
        rw [onward, found]
        simp [isIteration]
      rw [same] at ihBelow
      rw [if_neg isIteration, ihBelow (fun other member =>
        present other (List.mem_cons_of_mem _ (List.mem_append_left _ member))) _ after]
      have listed : part? layers holder collection id =
          some ⟨node, decide ((repeatedAbove? layers node).map Node.id = some collection)⟩ := by
        simp [part?, found, isIteration]
      simp [listed, pure, Except.pure]

/-- What the traversal of a template goes through: everything below the collection that is in none
of its iterations. -/
structure Traverses (layers : Layered) (collection : NodeId) (listed : List NodeId) : Prop where
  spans : Spans (onward (layers.holder collection)) ((layers.holder collection).children collection)
    listed
  present : ∀ id ∈ listed, ∃ node, (layers.holder collection).node? id = some node
  distinct : listed.Nodup
  enough : listed.length ≤ (layers.holder collection).containment.length

/-- What is listed of a template. -/
def entries (layers : Layered) (collection : NodeId) (listed : List NodeId) : List TemplateNode :=
  listed.filterMap (part? layers (layers.holder collection) collection)

theorem Traverses.unfold_eq {listed : List NodeId}
    (traverses : Traverses layers collection listed) :
    unfold layers (layers.holder collection) collection
        ((layers.holder collection).containment.length + 1)
        ((layers.holder collection).children collection) =
      .ok (entries layers collection listed) := by
  have ended : ∀ fuel, unfold layers (layers.holder collection) collection fuel [] = .ok [] := by
    intro fuel
    cases fuel <;> rfl
  have enough := traverses.enough
  have steps : (layers.holder collection).containment.length + 1 =
      listed.length + ((layers.holder collection).containment.length + 1 - listed.length) := by
    omega
  have unfolded := Template.unfold_eq traverses.spans traverses.present
    ((layers.holder collection).containment.length + 1 - listed.length) (ended _)
  rw [List.append_nil, List.append_nil, ← steps] at unfolded
  exact unfolded

/-- The fields that belong to the collection are the direct ones of the listing. -/
theorem fieldCodes_entries {listed : List NodeId}
    (held : ∀ id node, (layers.holder collection).node? id = some node →
      layers.node? id = some node)
    (present : ∀ id ∈ listed, ∃ node, (layers.holder collection).node? id = some node) :
    Renaming.fieldCodes ((entries layers collection listed).filter TemplateNode.direct) =
      listed.filterMap (layers.ownCode? collection) := by
  rw [Renaming.fieldCodes, entries, List.filterMap_filter, List.filterMap_filterMap]
  refine List.filterMap_congr fun id member => ?_
  obtain ⟨node, found⟩ := present id member
  simp only [Layered.ownCode?, part?]
  rw [found, held id node found]
  simp only [Option.bind_eq_bind, Option.bind_some]
  cases isField : node.kind.field? with
  | none =>
    by_cases isIteration : node.kind.isIteration = true
    · simp [isIteration]
    · simp [isIteration, isField]
  | some field =>
    have other : node.kind.isIteration = false := by
      rw [NodeKind.field?_eq_some_iff.1 isField]
      rfl
    rw [if_neg (by simp [other])]
    cases repeatedAbove? layers node with
    | none => simp
    | some outer => by_cases own : outer.id = collection <;> simp [own, isField]

/-- What is reached is listed, unless it is an iteration. -/
theorem mem_ids_entries {listed : List NodeId} {id : NodeId} {node : Node} (member : id ∈ listed)
    (held : (layers.holder collection).node? id = some node)
    (single : node.kind.isIteration = false) : id ∈ ids (entries layers collection listed) := by
  have listing : part? layers (layers.holder collection) collection id =
      some ⟨node, decide ((repeatedAbove? layers node).map Node.id = some collection)⟩ := by
    simp [part?, held, single]
  exact List.mem_map.2
    ⟨_, List.mem_filterMap.2 ⟨id, member, listing⟩, NodeStore.id_eq_of_node? held⟩

/-- The nodes of a listing are distinct. -/
theorem nodup_ids_entries {listed : List NodeId} (distinct : listed.Nodup) :
    (ids (entries layers collection listed)).Nodup := by
  rw [ids, entries, List.map_filterMap]
  refine List.Nodup.filterMap ?_ distinct
  have named : ∀ id other, other ∈ (part? layers (layers.holder collection) collection id).map
      (fun entry => entry.node.id) → other = id := by
    intro id other member
    obtain ⟨entry, listed, rfl⟩ := Option.map_eq_some_iff.1 member
    simp only [part?, Option.bind_eq_bind, Option.bind_eq_some_iff] at listed
    obtain ⟨node, found, same⟩ := listed
    split at same
    · cases same
    · cases same
      exact NodeStore.id_eq_of_node? found
  intro one two other inOne inTwo
  rw [← named one other inOne, named two other inTwo]

theorem read_of_absent (scopes : ScopeTree) (absent : layers.node? collection = none) :
    read layers scopes collection = .error (.structural (.nodeNotFound collection)) := by
  have got : NodeSource.get layers collection = .error (.nodeNotFound collection) :=
    NodeSource.get_eq_error absent
  rw [read, got]
  rfl

theorem read_of_found (scopes : ScopeTree) {node : Node}
    (found : layers.node? collection = some node) :
    read layers scopes collection = match node.kind.collection? with
      | none => .error (.notACollection collection)
      | some definition =>
        if inOpenTemplate layers node then .error (.openTemplate collection)
        else match (owningStep? layers collection).filter scopes.isStep with
          | none => .error (.wiring (.unknownStep collection))
          | some step => do
            let nodes ← (unfold layers (layers.holder collection) collection
              ((layers.holder collection).containment.length + 1)
              ((layers.holder collection).children collection)).mapError RequestError.structural
            return ⟨collection, definition.code, step, nodes⟩ := by
  have got : NodeSource.get layers collection = .ok node := NodeSource.get_eq_ok found
  rw [read, got]
  rfl

/-- A collection in no open template that belongs to a step of the tree is read. -/
theorem read_eq_ok {scopes : ScopeTree} {node : Node} {definition : Collection} {step : NodeId}
    {listed : List NodeId} (found : layers.node? collection = some node)
    (isCollection : node.kind = .collection definition)
    (closed : inOpenTemplate layers node = false)
    (owned : owningStep? layers collection = some step) (isStep : scopes.isStep step = true)
    (traverses : Traverses layers collection listed) :
    read layers scopes collection =
      .ok ⟨collection, definition.code, step, entries layers collection listed⟩ := by
  have known : (owningStep? layers collection).filter scopes.isStep = some step := by
    rw [owned, Option.filter_some, if_pos isStep]
  rw [read_of_found scopes found, isCollection]
  dsimp only [NodeKind.collection?]
  rw [if_neg (by simp [closed]), known]
  dsimp only
  rw [traverses.unfold_eq]
  rfl

section

variable {base overlay : NodeStore} (coherent : base.Coherent) (anchored : base.Anchored overlay)
include coherent anchored

theorem coherent_holder (id : NodeId) : (Layered.holder ⟨base, overlay⟩ id).Coherent := by
  simp only [Layered.holder]
  split
  · exact anchored.coherent
  · exact coherent

/-- **The template of a collection is listed**, and the codes of its own fields are those that the
subtree of the collection shows. -/
theorem exists_traverses (upright : Upright (⟨base, overlay⟩ : Layered)) {top : Node}
    (found : Layered.node? ⟨base, overlay⟩ collection = some top)
    (isCollection : top.kind.isCollection = true) :
    ∃ listed, Traverses ⟨base, overlay⟩ collection listed ∧
      Renaming.fieldCodes
          ((entries ⟨base, overlay⟩ collection listed).filter TemplateNode.direct) =
        Layered.ownCodes ⟨base, overlay⟩ collection := by
  have held : ∀ id node, (Layered.holder ⟨base, overlay⟩ collection).node? id = some node →
      Layered.node? ⟨base, overlay⟩ id = some node :=
    fun _ _ => Layered.node?_of_holder coherent anchored
  have holding := coherent_holder coherent anchored collection
  obtain ⟨path, rooted⟩ := upright collection top found
  have down : Downward (⟨base, overlay⟩ : Layered) (Layered.holder ⟨base, overlay⟩
    collection).children := NodeStore.downward_children holding.placed held
  obtain ⟨below, spans, distinct, enough⟩ :=
    NodeStore.exists_below holding.placed held rooted.ascends
  -- The traversal leaves out what stands below iterations, and there are no own fields there.
  obtain ⟨kept, spansKept, same⟩ : ∃ kept,
      Spans (onward (Layered.holder ⟨base, overlay⟩ collection))
        ((Layered.holder ⟨base, overlay⟩ collection).children collection) kept ∧
      kept.filterMap (Layered.ownCode? ⟨base, overlay⟩ collection) =
        below.filterMap (Layered.ownCode? ⟨base, overlay⟩ collection) := by
    refine spans.prune fun id member part within inner => ?_
    rw [onward]
    cases there : (Layered.holder ⟨base, overlay⟩ collection).node? id with
    | none => exact .inl rfl
    | some outer =>
      cases isIteration : outer.kind.isIteration with
      | true =>
        exact .inr ⟨by simp [isIteration], Layered.ownCode?_of_iteration upright down distinct
          member within inner (held id outer there) isIteration⟩
      | false => exact .inl (by simp [isIteration])
  have inStore : ∀ id ∈ kept, ∃ parent,
      id ∈ (Layered.holder ⟨base, overlay⟩ collection).children parent :=
    spansKept.induction (fun id member => ⟨collection, member⟩)
      fun id _ _ child leads => ⟨id, mem_children_of_onward leads⟩
  have present : ∀ id ∈ kept, ∃ node,
      (Layered.holder ⟨base, overlay⟩ collection).node? id = some node := by
    intro id member
    obtain ⟨parent, child⟩ := inStore id member
    obtain ⟨node, there, _⟩ := (NodeStore.mem_children_iff holding).1 child
    exact ⟨node, there⟩
  have distinctKept : kept.Nodup := spansKept.nodup (downward_onward down)
    (down.distinct collection) (Spans.beside_next down rooted.ascends)
  refine ⟨kept, ⟨spansKept, present, distinctKept,
    NodeStore.length_le_containment distinctKept inStore⟩, ?_⟩
  have top : Layered.ownCode? ⟨base, overlay⟩ collection collection = none := by
    obtain ⟨definition, shape⟩ := NodeKind.isCollection_iff.1 isCollection
    simp [Layered.ownCode?, found, shape, NodeKind.field?]
  rw [fieldCodes_entries held present, same, Layered.ownCodes,
    NodeStore.subtree_eq spans enough, List.filterMap_cons_none top]

/-- What a template that was read lists. -/
theorem exists_entries (upright : Upright (⟨base, overlay⟩ : Layered)) {scopes : ScopeTree}
    {template : Template}
    (read : Template.read (⟨base, overlay⟩ : Layered) scopes collection = .ok template) :
    ∃ listed, Traverses ⟨base, overlay⟩ collection listed ∧
      template.nodes = entries ⟨base, overlay⟩ collection listed := by
  obtain ⟨top, definition, present, isCollection, closed, owned, isStep, _⟩ :=
    read_spec coherent anchored.coherent read
  obtain ⟨listed, traverses, _⟩ := exists_traverses coherent anchored upright present
    (by rw [isCollection]; rfl)
  refine ⟨listed, traverses, ?_⟩
  have again := read_eq_ok present isCollection closed owned isStep traverses
  rw [read] at again
  exact congrArg Template.nodes (Except.ok.inj again)

end

end Template

end FormFlow
