import FormFlow.Proofs.Request.Listing
import Mathlib.Data.List.Nodup

/-!
# Copies mirror their template

Distinct nodes of a template have distinct copies (`RequestScope.nodup_copies`), so all of them can
be inserted (`RequestScope.insertAll_succeeds`). What stands around a copy is the copy of what
stands around the node that was copied, or it stands around the iteration as the other stands
around the collection (`RequestScope.Assembled.copy_encloses`).
-/

set_option autoImplicit false

namespace FormFlow

open NodeSource

/-- A copy is a field if what is copied is one. -/
theorem NodeKind.isField_copy (kind : NodeKind) (scheme : Renaming) (direct : Bool)
    (map : NodeId → NodeId) :
    (scheme.apply direct (kind.remapIds map)).isField = kind.isField := by
  cases kind with
  | field definition => cases direct <;> rfl
  | collection definition => cases direct <;> rfl
  | reference expression =>
    unfold remapIds Renaming.apply
    dsimp only
    split <;> rfl
  | _ => rfl

/-- A copy repeats what it contains if what is copied does. -/
theorem NodeKind.isRepeated_copy (kind : NodeKind) (scheme : Renaming) (direct : Bool)
    (map : NodeId → NodeId) :
    (scheme.apply direct (kind.remapIds map)).isRepeated = kind.isRepeated := by
  cases kind with
  | field definition => cases direct <;> rfl
  | collection definition => cases direct <;> rfl
  | reference expression =>
    unfold remapIds Renaming.apply
    dsimp only
    split <;> rfl
  | _ => rfl

namespace RequestScope

/-! ## The identifiers of copies -/

theorem map_fst_copyIds (entries : List TemplateNode) (first : Nat) :
    (copyIds entries first).map Prod.fst = Template.ids entries := by
  rw [copyIds, List.map_map, Template.ids]
  change entries.zipIdx.map ((fun entry : TemplateNode => entry.node.id) ∘ Prod.fst) = _
  rw [← List.map_map, List.zipIdx_map_fst]

theorem nodup_snd_copyIds (entries : List TemplateNode) (first : Nat) :
    ((copyIds entries first).map Prod.snd).Nodup := by
  have numbers : (copyIds entries first).map Prod.snd =
      (List.range' 0 entries.length).map fun offset => (⟨first + offset⟩ : NodeId) := by
    rw [copyIds, List.map_map, ← List.zipIdx_map_snd, List.map_map]
    rfl
  rw [numbers]
  refine List.Nodup.map ?_ List.nodup_range'
  intro one other same
  have equal := congrArg NodeId.val same
  dsimp only at equal
  omega

/-- What is not copied stands for itself. -/
theorem copyOf_of_not_mem {copies : List (NodeId × NodeId)} {id : NodeId}
    (absent : id ∉ copies.map Prod.fst) : copyOf copies id = id := by
  have unknown : copies.lookup id = none := by
    rw [List.lookup_eq_none_iff]
    intro pair member
    rw [bne_iff_ne]
    rintro rfl
    exact absent (List.mem_map_of_mem member)
  rw [copyOf, unknown]
  rfl

/-- The copies of distinct nodes are numbered one after the other. -/
theorem map_copyOf {entries : List TemplateNode} (distinct : (Template.ids entries).Nodup)
    (first : Nat) : (Template.ids entries).map (copyOf (copyIds entries first)) =
      (copyIds entries first).map Prod.snd := by
  have keys : ((copyIds entries first).map Prod.fst).Nodup := by
    rw [map_fst_copyIds]
    exact distinct
  rw [← map_fst_copyIds entries first, List.map_map]
  refine List.map_congr_left fun pair member => ?_
  have found : (copyIds entries first).lookup pair.1 = some pair.2 :=
    (lookup_eq_some_iff_mem keys).2 member
  change (List.lookup pair.1 (copyIds entries first)).getD pair.1 = pair.2
  rw [found]
  rfl

/-- Distinct nodes of a template have distinct copies. -/
theorem copyOf_inj {entries : List TemplateNode} (distinct : (Template.ids entries).Nodup)
    {first : Nat} {one other : NodeId} (inOne : one ∈ Template.ids entries)
    (inOther : other ∈ Template.ids entries)
    (same : copyOf (copyIds entries first) one = copyOf (copyIds entries first) other) :
    one = other := by
  have nodup : ((Template.ids entries).map (copyOf (copyIds entries first))).Nodup := by
    rw [map_copyOf distinct]
    exact nodup_snd_copyIds entries first
  exact List.inj_on_of_nodup_map nodup inOne inOther same

/-- The identifiers of the copies in the order of the template. -/
theorem map_id_copiesOf {template : Template} (distinct : (Template.ids template.nodes).Nodup)
    (scheme : Renaming) (index : Nat) (store : NodeStore) :
    (copiesOf template scheme index store).map Node.id = (copyIds template.nodes
      (store.push (iterationNode template index store)).nextId).map Prod.snd := by
  rw [← map_copyOf distinct, copiesOf, Template.ids, List.map_map, List.map_map]
  rfl

theorem nodup_copies {template : Template} (distinct : (Template.ids template.nodes).Nodup)
    (scheme : Renaming) (index : Nat) (store : NodeStore) :
    ((copiesOf template scheme index store).map Node.id).Nodup := by
  rw [map_id_copiesOf distinct]
  exact nodup_snd_copyIds ..

/-! ## Insertion -/

/-- Nodes that are new, distinct and no pseudo-nodes can be inserted one after the other. -/
theorem insertAll_succeeds {nodes : List Node} {store : NodeStore}
    (fresh : ∀ node ∈ nodes, store.contains node.id = false)
    (distinct : (nodes.map Node.id).Nodup) (plain : ∀ node ∈ nodes, node.kind.pseudo? = none) :
    ∃ complete, insertAll nodes store = (complete, none) := by
  induction nodes generalizing store with
  | nil => exact ⟨store, rfl⟩
  | cons node rest ih =>
    obtain ⟨apart, distinctRest⟩ := List.nodup_cons.1 distinct
    have absent := fresh node (List.mem_cons_self ..)
    have free : store.conflict? node = none := by
      refine NodeStore.conflict?_eq_none_iff.2 ⟨absent, fun identity own => ?_⟩
      rw [Node.identity?, plain node (List.mem_cons_self ..)] at own
      cases own
    have freshRest : ∀ other ∈ rest, (store.push node).contains other.id = false := by
      intro other member
      rw [NodeStore.contains, NodeStore.node?_push absent, if_neg]
      · exact fresh other (List.mem_cons_of_mem _ member)
      · intro same
        exact apart (same ▸ List.mem_map_of_mem member)
    obtain ⟨complete, run⟩ := ih freshRest distinctRest
      fun other member => plain other (List.mem_cons_of_mem _ member)
    refine ⟨complete, ?_⟩
    rw [insertAll, NodeStore.addNode_eq_ok_iff.2 ⟨free, rfl⟩]
    exact run

/-! ## Where copies stand -/

/-- The copy of a node of a template, which is inserted behind the iteration. -/
def copyFor (template : Template) (scheme : Renaming) (index : Nat) (store : NodeStore)
    (entry : TemplateNode) : Node :=
  copyNode template scheme
    (copyIds template.nodes (store.push (iterationNode template index store)).nextId)
    ⟨store.nextId⟩ entry

theorem copyFor_mem {template : Template} {entry : TemplateNode} (member : entry ∈ template.nodes)
    (scheme : Renaming) (index : Nat) (store : NodeStore) :
    copyFor template scheme index store entry ∈ newNodes template scheme index store :=
  List.mem_cons_of_mem _ (List.mem_map_of_mem member)

/-- What is new is the iteration or a copy. -/
theorem eq_or_copyFor {template : Template} {scheme : Renaming} {index : Nat} {store : NodeStore}
    {node : Node} (member : node ∈ newNodes template scheme index store) :
    node = iterationNode template index store ∨
      ∃ entry ∈ template.nodes, node = copyFor template scheme index store entry := by
  refine (List.mem_cons.1 member).imp_right fun copied => ?_
  obtain ⟨entry, known, rfl⟩ := List.mem_map.1 copied
  exact ⟨entry, known, rfl⟩

variable {wired : WiredForm} {overlay : Overlay}

/-- A node of a template is seen. -/
theorem Iterable.found {template : Template}
    (iterable : Iterable (layersOver wired overlay) template)
    (coherent : wired.form.nodes.Coherent) (anchored : wired.form.nodes.Anchored overlay.nodes)
    {entry : TemplateNode} (member : entry ∈ template.nodes) :
    node? (layersOver wired overlay) entry.node.id = some entry.node :=
  Layered.node?_of_holder coherent anchored (iterable.listed.present entry member)

/-- The nodes of a template stand in the collection or in another node of the template. -/
theorem Iterable.induction {layers : Layered} {template : Template}
    (iterable : Iterable layers template) {P : TemplateNode → Prop}
    (up : ∀ entry ∈ template.nodes, ∀ parent, entry.node.parent = some parent →
      (parent = template.collection ∨
        ∃ outer ∈ template.nodes, outer.node.id = parent ∧ P outer) → P entry) :
    ∀ entry ∈ template.nodes, P entry := by
  have along : ∀ node ∈ template.nodes.map TemplateNode.node, ∃ entry ∈ template.nodes,
      entry.node = node ∧ P entry := by
    refine iterable.listed.hangs.induction ?_
    intro node member parent contained place
    obtain ⟨entry, known, rfl⟩ := List.mem_map.1 member
    refine ⟨entry, known, rfl, up entry known parent contained (place.imp_right ?_)⟩
    rintro ⟨_, _, named, outer, inside, rfl, holds⟩
    exact ⟨outer, inside, named, holds⟩
  intro entry member
  obtain ⟨same, known, node, holds⟩ := along entry.node (List.mem_map_of_mem member)
  have direct : same.direct = entry.direct := by
    rw [iterable.listed.direct same known, iterable.listed.direct entry member, node]
  obtain ⟨_, _⟩ := same
  obtain ⟨_, _⟩ := entry
  cases node
  cases direct
  exact holds

/-- A node of a template stands in the collection or in another node of the template. -/
theorem Iterable.exists_parent {layers : Layered} {template : Template}
    (iterable : Iterable layers template) : ∀ entry ∈ template.nodes,
      ∃ parent, entry.node.parent = some parent ∧
        (parent = template.collection ∨ parent ∈ Template.ids template.nodes) := by
  refine iterable.induction ?_
  intro entry _ parent contained place
  refine ⟨parent, contained, place.imp_right ?_⟩
  rintro ⟨outer, inside, rfl, _⟩
  exact List.mem_map_of_mem inside

namespace Assembled

variable {after : Overlay} {template : Template} {scheme : Renaming} {index : Nat}
  {complete : NodeStore} {state : Synthesis.State Layered}
  (made : Assembled wired overlay after template scheme index complete state)
  (coherent : wired.form.nodes.Coherent) (anchored : wired.form.nodes.Anchored overlay.nodes)
include made coherent anchored

/-- What stands around the collection stands around the iteration too. -/
theorem enclosing?_iteration (placed : WellPlaced (layersOver wired overlay))
    (lower : Upright wired.form.nodes) {test : NodeKind → Bool}
    (single : ∀ kind, kind.isRepeated = true → test kind = false) :
    enclosing? (⟨wired.form.nodes, complete⟩ : Layered)
        (iterationNode template index overlay.nodes).id test =
      enclosing? (layersOver wired overlay) template.collection test := by
  have upright := (made.wellPlaced coherent anchored placed lower).upright
  have shown := made.shows_complete coherent anchored
  obtain ⟨top, definition, present, isCollection, _⟩ := made.iterable.collection
  have fails := single top.kind (by rw [isCollection]; rfl)
  have contained : (iterationNode template index overlay.nodes).parent =
      some template.collection := rfl
  rw [upright.enclosing?_above (made.node?_of_new (List.mem_cons_self ..)) (single _ rfl),
    enclosingAbove?_of_parent _ contained, upright.enclosing?_above (shown.node _ _ present) fails,
    placed.upright.enclosing?_above present fails,
    shown.enclosingAbove?_eq placed.upright present]

/-- **What stands around a copy is the copy of what stands around the node that was copied**,
unless that is the collection or stands around it: then it is the iteration or stands around
that. -/
theorem copy_encloses (placed : WellPlaced (layersOver wired overlay))
    (lower : Upright wired.form.nodes) {test : NodeKind → Bool}
    (same : ∀ kind direct map, test (scheme.apply direct (kind.remapIds map)) = test kind) :
    ∀ entry ∈ template.nodes,
      (∃ outer ∈ template.nodes,
        enclosingAbove? (layersOver wired overlay) entry.node test = some outer.node ∧
        enclosingAbove? (⟨wired.form.nodes, complete⟩ : Layered)
          (copyFor template scheme index overlay.nodes entry) test =
            some (copyFor template scheme index overlay.nodes outer)) ∨
      enclosingAbove? (layersOver wired overlay) entry.node test =
          enclosing? (layersOver wired overlay) template.collection test ∧
        enclosingAbove? (⟨wired.form.nodes, complete⟩ : Layered)
          (copyFor template scheme index overlay.nodes entry) test =
            enclosing? (⟨wired.form.nodes, complete⟩ : Layered)
              (iterationNode template index overlay.nodes).id test := by
  have upright := (made.wellPlaced coherent anchored placed lower).upright
  refine made.iterable.induction ?_
  intro entry member parent contained place
  by_cases top : parent = template.collection
  · refine .inr ⟨enclosingAbove?_of_parent _ (top ▸ contained) test, ?_⟩
    refine enclosingAbove?_of_parent _ ?_ test
    rw [copyFor, copyNode, contained, top]
    simp [iterationNode]
  · obtain ⟨outer, inside, named, around⟩ := place.resolve_left top
    have found := made.iterable.found coherent anchored inside
    rw [named] at found
    have copied : (copyFor template scheme index overlay.nodes entry).parent =
        some (copyFor template scheme index overlay.nodes outer).id := by
      rw [copyFor, copyNode, contained]
      simp [top, copyFor, copyNode, named]
    have there := made.node?_of_new (copyFor_mem inside scheme index overlay.nodes)
    have kinds : test (copyFor template scheme index overlay.nodes outer).kind =
        test outer.node.kind := same ..
    cases passes : test outer.node.kind with
    | true =>
      exact .inl ⟨outer, inside, placed.upright.enclosingAbove?_parent contained found passes,
        upright.enclosingAbove?_parent copied there (kinds.trans passes)⟩
    | false =>
      rw [placed.upright.enclosingAbove?_up contained found passes,
        upright.enclosingAbove?_up copied there (kinds.trans passes)]
      exact around

end Assembled

end RequestScope

end FormFlow
