import FormFlow.Proofs.Request.Contents

/-!
# Nested collections of a request

An iteration of a collection holds copies of the collections nested in it, and these can be
iterated in turn. Below a copied collection stands the likeness of what stands below the collection
of the form (`RequestScope.Unrolled.likeness`), however deep the copy was made and whatever else was
asked for in between: each iteration on the way is a likeness of what it copies
(`RequestScope.Copied.likeness`).
-/

set_option autoImplicit false

namespace FormFlow

open NodeSource

/-- What is copied into an iteration from a nested template is alike. -/
theorem NodeKind.alike_copy (kind : NodeKind) (scheme : Renaming) (map : NodeId → NodeId) :
    kind.Alike (scheme.apply false (kind.remapIds map)) := by
  refine ⟨kind.isRepeated_copy scheme false map, ?_⟩
  cases kind with
  | reference expression =>
    unfold remapIds Renaming.apply
    dsimp only
    split <;> rfl
  | _ => rfl

namespace RequestScope

/-- What is seen of an iteration: each node of its template has a copy, in which nothing stands but
the copies of what stands in the node. -/
structure Copied (layers : Layered) (template : Template) (scheme : Renaming)
    (copies : List (NodeId × NodeId)) (iteration : NodeId) : Prop where
  found : ∀ entry ∈ template.nodes, node? layers entry.node.id = some entry.node
  content : ∀ entry ∈ template.nodes, entry.node.kind.IsContent
  direct : ∀ entry ∈ template.nodes, entry.direct =
    decide ((repeatedAbove? layers entry.node).map Node.id = some template.collection)
  named : ∀ entry ∈ template.nodes, copyOf copies entry.node.id ∈ copies.map Prod.snd
  copy : ∀ entry ∈ template.nodes, node? layers (copyOf copies entry.node.id) =
    some (copyNode template scheme copies iteration entry)
  only : ∀ entry ∈ template.nodes, ∀ inner, PartOf layers inner (copyOf copies entry.node.id) →
    ∃ other ∈ template.nodes, copyOf copies other.node.id = inner ∧
      other.node.parent = some entry.node.id
  apart : ∀ one ∈ Template.ids template.nodes, ∀ other ∈ Template.ids template.nodes,
    copyOf copies one = copyOf copies other → one = other

/-- The copies in an iteration are named in the order of the template. -/
theorem zip_copies {template : Template} (distinct : (Template.ids template.nodes).Nodup)
    (scheme : Renaming) (index : Nat) (store : NodeStore) :
    (Template.ids template.nodes).zip ((copiesOf template scheme index store).map Node.id) =
      copyIds template.nodes (store.push (iterationNode template index store)).nextId := by
  rw [map_id_copiesOf distinct, ← map_fst_copyIds template.nodes, ← List.unzip_fst,
    ← List.unzip_snd, List.zip_unzip]

/-- In a copy stand the copies of what stands in the node that was copied, and nothing else. -/
theorem Assembled.exists_copied {wired : WiredForm} {overlay after : Overlay} {template : Template}
    {scheme : Renaming} {index : Nat} {complete : NodeStore} {state : Synthesis.State Layered}
    (made : Assembled wired overlay after template scheme index complete state)
    (coherent : wired.form.nodes.Coherent) (anchored : wired.form.nodes.Anchored overlay.nodes)
    (placed : WellPlaced (layersOver wired overlay)) (lower : Upright wired.form.nodes)
    (distinct : (Template.ids template.nodes).Nodup) {entry : TemplateNode}
    (member : entry ∈ template.nodes) {inner : NodeId}
    (part : PartOf (layersOver wired after) inner
      (copyFor template scheme index overlay.nodes entry).id) :
    ∃ other ∈ template.nodes, (copyFor template scheme index overlay.nodes other).id = inner ∧
      other.node.parent = some entry.node.id := by
  obtain ⟨node, there, contained, single⟩ := part
  have copied := copyFor_mem member scheme index overlay.nodes
  have high : overlay.nodes.nextId <
      (copyFor template scheme index overlay.nodes entry).id.val :=
    copies_high (List.mem_map_of_mem member)
  have known := (made.supplied coherent anchored).1.node _ _ (made.node?_of_new copied)
  have content := made.isContent coherent anchored placed (List.mem_map_of_mem member)
  have plain := (made.wellPlaced_after coherent anchored placed lower).pseudo?_of_contained there
    contained known (Bool.or_eq_false_iff.1 content.scope).2
  rcases made.old_or_copy coherent anchored placed lower there plain with old | ⟨new, named, _⟩
  · obtain ⟨outer, present⟩ := placed.upright.exists_parent old contained
    have low := anchored.lt_nextId coherent ⟨outer, present⟩
    omega
  · rcases eq_or_copyFor new with rfl | ⟨other, inside, rfl⟩
    · cases single
    refine ⟨other, inside, named, ?_⟩
    obtain ⟨parent, within, place⟩ := made.iterable.exists_parent other inside
    rw [copyFor, copyNode, within] at contained
    have same := Option.some.inj contained
    dsimp only at same
    by_cases top : parent = template.collection
    · rw [if_pos top] at same
      rw [← same] at high
      exact absurd high (Nat.lt_irrefl _)
    · rw [if_neg top] at same
      rw [within, copyOf_inj distinct (place.resolve_left top) (List.mem_map_of_mem member) same]

/-- A call that makes an iteration copies the template. -/
theorem Settled.copied {request : RequestScope} (grounded : Grounded request.wired)
    (settled : Settled request) {collection : NodeId} {index : Nat} {template : Template}
    {made : Iteration} (fresh : request.iteration? collection index = none)
    (read : Template.read request.layers request.wired.scopes collection = .ok template)
    (succeeded : (request.materialize collection index).2 = .ok made) :
    made.renamed = (Renaming.ofTemplate template index).fields ∧
      Copied (request.materialize collection index).1.layers template
        (.ofTemplate template index) ((Template.ids template.nodes).zip made.nodes)
        ⟨request.overlay.nodes.nextId⟩ := by
  have coherent := grounded.coherent
  have anchored := settled.anchored
  have placed := settled.placed
  obtain ⟨attempt, done⟩ := materialize_of_ok fresh succeeded
  have seen : (request.materialize collection index).1.layers = layersOver request.wired
      (build request.wired request.overlay collection index).overlay := congrArg layers done
  obtain ⟨⟨complete, state, finished, _⟩, recorded, _⟩ :=
    build_made coherent anchored read attempt
  obtain ⟨reached, traverses, entries⟩ :=
    Template.exists_entries coherent anchored placed.upright read
  have distinct : (Template.ids template.nodes).Nodup := by
    rw [entries]
    exact Template.nodup_ids_entries traverses.distinct
  refine ⟨recorded.renamed, ?_⟩
  rw [recorded.nodes, zip_copies distinct, seen]
  have shown := finished.shows_after coherent anchored
  have iterable := finished.iterable
  obtain ⟨top, definition, present, isCollection, _⟩ := iterable.collection
  have held : ∀ entry ∈ template.nodes, node? request.layers entry.node.id = some entry.node :=
    fun entry member => iterable.found coherent anchored member
  refine
    { found := fun entry member => shown.node _ _ (held entry member)
      content := iterable.listed.isContent placed
        (fun _ _ => Layered.node?_of_holder coherent anchored) present (by rw [isCollection]; rfl)
      direct := ?_
      named := ?_
      copy := ?_
      only := ?_
      apart := fun one inOne other inOther same => copyOf_inj distinct inOne inOther same }
  · intro entry member
    rw [iterable.listed.direct entry member,
      shown.repeatedAbove?_eq placed.upright (held entry member)]
  · intro entry member
    rw [← map_copyOf distinct]
    exact List.mem_map_of_mem (List.mem_map_of_mem member)
  · intro entry member
    exact (finished.supplied coherent anchored).1.node _ _
      (finished.node?_of_new (copyFor_mem member _ index request.overlay.nodes))
  · intro entry member inner part
    exact finished.exists_copied coherent anchored placed grounded.upright distinct member part

namespace Copied

variable {layers : Layered} {template : Template} {scheme : Renaming}
  {copies : List (NodeId × NodeId)} {iteration : NodeId}
  (copied : Copied layers template scheme copies iteration)
include copied

/-- An iteration looks the same later on. -/
theorem later {after : Layered} (upright : Upright layers) (shown : Shows layers after)
    (kept : ∀ inner outer top, node? layers outer = some top → top.kind.isStep = false →
      PartOf after inner outer → PartOf layers inner outer) :
    Copied after template scheme copies iteration where
  found := fun entry member => shown.node _ _ (copied.found entry member)
  content := copied.content
  direct := by
    intro entry member
    rw [shown.repeatedAbove?_eq upright (copied.found entry member)]
    exact copied.direct entry member
  named := copied.named
  copy := fun entry member => shown.node _ _ (copied.copy entry member)
  only := by
    intro entry member inner part
    have scope := ((copied.content entry member).copy scheme entry.direct (copyOf copies)).scope
    exact copied.only entry member inner (kept _ _ _ (copied.copy entry member)
      (Bool.or_eq_false_iff.1 scope).2 part)
  apart := copied.apart

/-- **What was copied from a nested template is a likeness of it.** -/
theorem likeness (upright : Upright layers)
    (listed : ∀ id, id ∈ Template.ids template.nodes ↔ Beneath layers id template.collection)
    {nested : NodeId} {top : Node} (found : node? layers nested = some top)
    (repeated : top.kind.isRepeated = true)
    (beneath : Beneath layers nested template.collection) :
    Likeness layers layers nested (copyOf copies) := by
  have apart : ∀ id, Among layers id nested → id ≠ template.collection := by
    rintro _ among rfl
    exact upright.acyclic _ (Beneath.inside (Relation.TransGen.trans_right among beneath))
  have within : ∀ id, Among layers id nested → ∃ entry ∈ template.nodes, entry.node.id = id :=
    fun id among =>
      List.mem_map.1 ((listed id).2 (Relation.TransGen.trans_right among beneath))
  refine
    { part := ?_
      only := ?_
      apart := ?_
      alike := ?_ }
  · intro inner outer among part
    obtain ⟨entry, member, rfl⟩ := within outer among
    obtain ⟨other, inside, rfl⟩ := within inner (.head part among)
    obtain ⟨node, present, contained, _⟩ := part
    cases (copied.found other inside).symm.trans present
    refine ⟨_, copied.copy other inside, ?_,
      ((copied.content other inside).copy scheme other.direct (copyOf copies)).iteration⟩
    rw [copyNode, contained]
    simp [apart _ among]
  · intro inner outer among part
    obtain ⟨entry, member, rfl⟩ := within outer among
    obtain ⟨other, inside, same, contained⟩ := copied.only entry member inner part
    exact ⟨other.node.id, ⟨other.node, copied.found other inside, contained,
      (copied.content other inside).iteration⟩, same⟩
  · intro one other inOne inOther same
    obtain ⟨first, member, rfl⟩ := within one inOne
    obtain ⟨second, inside, rfl⟩ := within other inOther
    exact copied.apart _ (List.mem_map_of_mem member) _ (List.mem_map_of_mem inside) same
  · intro id node image below present shown
    obtain ⟨entry, member, rfl⟩ := within id below.among
    cases (copied.found entry member).symm.trans present
    cases (copied.copy entry member).symm.trans shown
    have nestedOne : entry.direct = false := by
      rw [copied.direct entry member]
      exact decide_eq_false (upright.repeatedAbove?_ne present found repeated below beneath)
    rw [copyNode, nestedOne]
    exact entry.node.kind.alike_copy scheme (copyOf copies)

end Copied

/-! ## Iterations in iterations -/

/-- One of the calls makes an iteration of a collection, from the template that it reads. -/
structure Makes (wired : WiredForm) (calls before : List (NodeId × Nat)) (collection : NodeId)
    (index : Nat) (template : Template) (made : Iteration) : Prop where
  call : ∃ after, calls = before ++ (collection, index) :: after
  fresh : (run wired before).iteration? collection index = none
  read : Template.read (run wired before).layers wired.scopes collection = .ok template
  succeeded : ((run wired before).materialize collection index).2 = .ok made

/-- Collections of the form, innermost first, that were iterated one in the other: the outermost
belongs to no other collection, and of each further one the copy in the iteration before was
iterated. What stands in all of them is copied by each iteration, and `place` finds its last
copy. -/
inductive Unrolled (wired : WiredForm) (calls : List (NodeId × Nat)) :
    List (NodeId × Iteration) → (NodeId → NodeId) → Prop where
  | whole : Unrolled wired calls [] id
  | into {chain : List (NodeId × Iteration)} {place : NodeId → NodeId} {collection : NodeId}
      {node : Node} {index : Nat} {before : List (NodeId × Nat)} {template : Template}
      {made : Iteration} (outer : Unrolled wired calls chain place)
      (found : node? wired.form.nodes collection = some node)
      (isCollection : node.kind.isCollection = true)
      (nearest : (repeatedAbove? wired.form.nodes node).map Node.id = chain.head?.map Prod.fst)
      (makes : Makes wired calls before (place collection) index template made) :
      Unrolled wired calls ((collection, made) :: chain)
        (copyOf ((Template.ids template.nodes).zip made.nodes) ∘ place)

section

variable {wired : WiredForm} (grounded : Grounded wired) (started : Settled (start wired))
include grounded started

/-- What is seen at the end of an iteration that one of the calls made. -/
theorem Makes.copied {calls before : List (NodeId × Nat)} {collection : NodeId} {index : Nat}
    {template : Template} {made : Iteration}
    (makes : Makes wired calls before collection index template made) :
    template.collection = collection ∧
      made.renamed = (Renaming.ofTemplate template index).fields ∧
      (∃ iteration, Copied (run wired calls).layers template (.ofTemplate template index)
        ((Template.ids template.nodes).zip made.nodes) iteration) ∧
      ∀ id, id ∈ Template.ids template.nodes ↔
        Beneath (run wired calls).layers id template.collection := by
  obtain ⟨⟨after, rfl⟩, fresh, read, succeeded⟩ := makes
  have settled := settled_run grounded started before
  have ground : Grounded (run wired before).wired := (wired_run wired before).symm ▸ grounded
  have scopes : (run wired before).wired.scopes = wired.scopes := by rw [wired_run]
  obtain ⟨renamed, copied⟩ :=
    settled.copied ground fresh (by rw [scopes]; exact read) succeeded
  obtain ⟨top, definition, present, isCollection, _, _, _, same, _⟩ :=
    Template.read_spec ground.coherent settled.anchored.coherent read
  have noScope : top.kind.isScope = false := by
    rw [isCollection]
    rfl
  refine ⟨same, renamed, ⟨⟨(run wired before).overlay.nodes.nextId⟩, ?_⟩, fun id => ?_⟩
  · have made : (run wired (before ++ [(collection, index)])).layers =
        ((run wired before).materialize collection index).1.layers := by rw [run_concat]
    rw [← made] at copied
    rw [← List.singleton_append, ← List.append_assoc]
    exact copied.later (settled_run grounded started _).placed.upright
      (run_shows grounded started _ after) fun _ _ _ => run_part grounded started _ after
  · rw [run_mem_template grounded started before read, same]
    exact (run_beneath_iff grounded started before _ present noScope).symm

/-- What stands beneath a node of the form stands there throughout. -/
theorem run_likeness (calls : List (NodeId × Nat)) {nested : NodeId} {node : Node}
    (found : node? wired.form.nodes nested = some node) (noScope : node.kind.isScope = false) :
    Likeness wired.form.nodes (run wired calls).layers nested id := by
  have first : ∀ id, node? (run wired []).layers id = node? wired.form.nodes id := node?_start
  have parts : PartOf (run wired []).layers = PartOf wired.form.nodes := by
    funext inner outer
    simp only [PartOf, first]
  have shown := run_shows grounded started [] calls
  rw [List.nil_append] at shown
  refine
    { part := ?_
      only := ?_
      apart := fun _ _ _ _ same => same
      alike := ?_ }
  · intro inner outer _ part
    rw [← parts] at part
    exact part.transfer shown
  · intro inner outer among part
    obtain ⟨top, present⟩ : ∃ top, node? wired.form.nodes outer = some top := by
      rcases among_iff.1 among with rfl | beneath
      · exact ⟨node, found⟩
      · exact beneath.exists_node.imp fun _ => And.left
    rw [← first] at present found
    rw [Among, ← parts] at among
    have single := started.placed.isScope_of_among found noScope among top present
    have kept := run_part grounded started [] calls present
      (Bool.or_eq_false_iff.1 single).2 part
    rw [parts] at kept
    exact ⟨inner, kept, rfl⟩
  · intro id node image _ present there
    rw [← first] at present
    cases (shown.node _ _ present).symm.trans there
    exact .refl _

variable (single : Uniterated wired.form.nodes)
include single

omit started in
/-- A node of the form stands beneath the nearest collection around it. -/
theorem beneath_of_repeatedAbove? {id collection : NodeId} {node : Node}
    (found : node? wired.form.nodes id = some node)
    (nearest : (repeatedAbove? wired.form.nodes node).map Node.id = some collection) :
    Beneath wired.form.nodes id collection ∧
      ∃ outer, node? wired.form.nodes collection = some outer ∧ outer.kind.isRepeated = true := by
  obtain ⟨outer, encloses, rfl⟩ := Option.map_eq_some_iff.1 nearest
  exact ⟨(beneath_iff single).2 (grounded.upright.inside_of_encloses found encloses),
    outer, node?_of_enclosingAbove? encloses⟩

/-- **Below a collection whose copy is in the innermost iteration stands the likeness of what stands
below the collection in the form.** -/
theorem Unrolled.likeness {calls : List (NodeId × Nat)} {chain : List (NodeId × Iteration)}
    {place : NodeId → NodeId}
    (unrolled : Unrolled wired calls chain place) {nested : NodeId} {node : Node}
    (found : node? wired.form.nodes nested = some node) (repeated : node.kind.isRepeated = true)
    (nearest : (repeatedAbove? wired.form.nodes node).map Node.id = chain.head?.map Prod.fst) :
    Likeness wired.form.nodes (run wired calls).layers nested place ∧
      ∃ image, node? (run wired calls).layers (place nested) = some image ∧
        image.kind.isRepeated = true := by
  induction unrolled generalizing nested node with
  | whole =>
    have like := run_likeness grounded started calls found (NodeKind.of_isRepeated repeated).1
    exact ⟨like, node, (run_shows grounded started [] calls).node _ _ found, repeated⟩
  | @into chain place collection outer index before template made unrolled present _ around makes
      ih =>
    obtain ⟨inside, _, again, outerRepeated⟩ :=
      beneath_of_repeatedAbove? grounded single found nearest
    cases present.symm.trans again
    obtain ⟨like, _⟩ := ih present outerRepeated around
    obtain ⟨same, _, ⟨iteration, copied⟩, listed⟩ := makes.copied grounded started
    have below := like.beneath inside
    obtain ⟨copy, shown, _⟩ := below.exists_node
    have copyRepeated : copy.kind.isRepeated = true :=
      (like.alike _ _ _ inside found shown).repeated.trans repeated
    rw [← same] at below
    have upright := (settled_run grounded started calls).placed.upright
    refine ⟨(like.restrict inside.among).trans
      (copied.likeness upright listed shown copyRepeated below), ?_⟩
    obtain ⟨entry, member, named⟩ := List.mem_map.1 ((listed _).2 below)
    have seen := copied.found entry member
    rw [named] at seen
    cases shown.symm.trans seen
    have image := copied.copy entry member
    rw [named] at image
    exact ⟨_, image, (NodeKind.isRepeated_copy _ _ _ _).trans copyRepeated⟩

end

end RequestScope

end FormFlow
