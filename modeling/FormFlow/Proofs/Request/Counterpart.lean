import FormFlow.Proofs.Request.Standing

/-!
# Calls in another order

Two requests in which the same iterations of collections of the form were made, in different
orders, hold the same copies under different identifiers. `RequestScope.counterpart` tells the node
of the one for the node of the other: iterations by collection and index, copies by their place in
the template, and pseudo-nodes by their identity. It renumbers everything but the pseudo-nodes
(`RequestScope.Rearranged.renumbering`), if no node of the requests has a number that the form links
to without having the node (`RequestScope.Unlinked`).
-/

set_option autoImplicit false

namespace FormFlow

open NodeSource

namespace NodeKind.Renumbered

/-- New codes do not depend on numbers. -/
theorem apply {place : NodeId → NodeId} {kind other : NodeKind}
    (renumbered : Renumbered place kind other) (scheme : Renaming) (direct : Bool) :
    Renumbered place (scheme.apply direct kind) (scheme.apply direct other) := by
  cases renumbered with
  | collection definition =>
    cases direct with
    | true =>
      exact .collection { definition with code := Renaming.join scheme.opening definition.code }
    | false => exact .collection definition
  | field definition =>
    cases direct with
    | true =>
      exact .field { definition with
        code := (scheme.fields.lookup definition.code).getD definition.code }
    | false => exact .field definition
  | reference expression =>
    unfold Renaming.apply
    dsimp only
    split <;> exact .reference _
  | journey code => exact .journey code
  | step path => exact .step path
  | block variant => exact .block variant
  | function name arguments others => exact .function name arguments others
  | literal value => exact .literal value
  | transition trigger effects others => exact .transition trigger effects others
  | iteration collection index => exact .iteration collection index

end NodeKind.Renumbered

/-- What is listed of a template depends on the store that holds it, and on the collections around
its nodes. -/
theorem Template.unfold_congr {one other : Layered} {holder : NodeStore}
    (same : ∀ id node, holder.node? id = some node →
      repeatedAbove? one node = repeatedAbove? other node) (collection : NodeId) (fuel : Nat)
    (stack : List NodeId) :
    unfold one holder collection fuel stack = unfold other holder collection fuel stack := by
  induction fuel generalizing stack with
  | zero => cases stack <;> rfl
  | succ fuel ih =>
    cases stack with
    | nil => rfl
    | cons id stack =>
      rw [unfold, unfold]
      cases found : holder.get id with
      | error error => rfl
      | ok node =>
        have around := same id node (NodeSource.node?_of_get found)
        simp only [bind, Except.bind, ih, around]

namespace RequestScope

/-! ## Iterations of collections of the form -/

/-- What is seen of an iteration: the iteration in its collection, and the copies in it, for which
`copies` has the identifiers. -/
structure Instantiates (layers : Layered) (record : Iteration) (template : Template)
    (copies : List (NodeId × NodeId)) : Prop where
  collection : template.collection = record.collection
  step : record.step = template.step
  nodes : record.nodes = (Template.ids template.nodes).map (copyOf copies)
  renamed : record.renamed = (Renaming.ofTemplate template record.index).fields
  top : node? layers record.node = some ⟨record.node, some template.collection,
    .iteration template.collection record.index⟩
  copy : ∀ entry ∈ template.nodes, node? layers (copyOf copies entry.node.id) =
    some (copyNode template (.ofTemplate template record.index) copies record.node entry)
  others : ∀ id ∉ Template.ids template.nodes, copyOf copies id = id
  content : ∀ entry ∈ template.nodes, entry.node.kind.IsContent
  parent : ∀ entry ∈ template.nodes, ∃ parent, entry.node.parent = some parent ∧
    (parent = template.collection ∨ parent ∈ Template.ids template.nodes)

namespace Instantiates

variable {layers : Layered} {record : Iteration} {template : Template}
  {copies : List (NodeId × NodeId)} (seen : Instantiates layers record template copies)
include seen

theorem batch_eq : batch record =
    record.node :: (Template.ids template.nodes).map (copyOf copies) := by
  rw [batch, seen.nodes]

/-- The iteration and the copies are no pseudo-nodes. -/
theorem found {id : NodeId} (member : id ∈ batch record) :
    ∃ node, node? layers id = some node ∧ node.kind.pseudo? = none := by
  rw [seen.batch_eq] at member
  rcases List.mem_cons.1 member with rfl | copy
  · exact ⟨_, seen.top, rfl⟩
  · obtain ⟨_, inside, rfl⟩ := List.mem_map.1 copy
    obtain ⟨entry, known, rfl⟩ := List.mem_map.1 inside
    exact ⟨_, seen.copy entry known, ((seen.content entry known).copy _ _ _).pseudo⟩

end Instantiates

section

variable {wired : WiredForm} (grounded : Grounded wired) (started : Settled (start wired))
include grounded started

/-- The number of a node of the form is below those of a request. -/
theorem run_node?_low (calls : List (NodeId × Nat)) {id : NodeId} (low : id.val < wired.nodeMark) :
    (run wired calls).overlay.nodes.node? id = none := by
  cases own : (run wired calls).overlay.nodes.node? id with
  | none => rfl
  | some node =>
    have anchored := (settled_run grounded started calls).anchored
    rw [wired_run] at anchored
    obtain ⟨member, rfl⟩ := (NodeStore.node?_eq_some_iff anchored.coherent).1 own
    have high := anchored.high node member
    exact absurd low (Nat.not_lt.2 high)

/-- **The template of a collection of the form is read as in the beginning.** -/
theorem run_read (calls : List (NodeId × Nat)) {collection : NodeId} {top : Node}
    (found : node? wired.form.nodes collection = some top) :
    Template.read (run wired calls).layers wired.scopes collection =
      Template.read (start wired).layers wired.scopes collection := by
  have before : node? (start wired).layers collection = some top := found
  have shown : Shows (start wired).layers (run wired calls).layers :=
    run_shows grounded started [] calls
  have upright := started.placed.upright
  have holders : ∀ calls, (run wired calls).layers.holder collection = wired.form.nodes := by
    intro calls
    have low : collection.val < wired.nodeMark := NodeStore.id_lt_nextId grounded.coherent found
    have absent := run_node?_low grounded started calls low
    rw [Layered.holder, layers_run_eq, NodeStore.contains]
    dsimp only
    rw [absent]
    rfl
  have first : (start wired).layers.holder collection = wired.form.nodes := holders []
  have around : ∀ id node, wired.form.nodes.node? id = some node →
      repeatedAbove? (run wired calls).layers node = repeatedAbove? (start wired).layers node :=
    fun _ _ known => shown.repeatedAbove?_eq upright known
  simp only [Template.read]
  rw [NodeSource.get_eq_ok before, NodeSource.get_eq_ok (shown.node _ _ before),
    shown.owningStep?_eq upright before, holders calls, first]
  simp only [Except.mapError, bind, Except.bind, shown.inOpenTemplate_eq upright before,
    Template.unfold_congr around]

/-- An iteration is seen as it was made. -/
theorem TurnOf.instantiates {calls before : List (NodeId × Nat)} {after : Overlay}
    {template : Template} {complete : NodeStore} {state : Synthesis.State Layered}
    {record : Iteration} (turn : TurnOf wired calls before after template complete state record) :
    ∃ copies, Instantiates (run wired calls).layers record template copies := by
  have ground := grounded_run grounded before
  have settled := settled_run grounded started before
  have coherent := ground.coherent
  have anchored := settled.anchored
  have made := turn.turn.made
  have recorded := turn.turn.recorded
  have shown := (turn.turn.shows_complete ground settled).trans (turn.shown grounded started)
  obtain ⟨_, traverses, entries⟩ :=
    Template.exists_entries coherent anchored settled.placed.upright turn.turn.read
  have distinct : (Template.ids template.nodes).Nodup := by
    rw [entries]
    exact Template.nodup_ids_entries traverses.distinct
  obtain ⟨top, definition, present, isCollection, _⟩ := made.iterable.collection
  refine ⟨copyIds template.nodes ((run wired before).overlay.nodes.push (iterationNode template
    record.index (run wired before).overlay.nodes)).nextId, ?_⟩
  exact
    { collection := recorded.collection.symm
      step := recorded.step
      nodes := by rw [recorded.nodes, map_id_copiesOf distinct, map_copyOf distinct]
      renamed := recorded.renamed
      top := by
        have seen := shown.node _ _ (made.node?_of_new (List.mem_cons_self ..))
        rw [recorded.node]
        exact seen
      copy := by
        intro entry member
        rw [recorded.node]
        exact shown.node _ _ (made.node?_of_new (copyFor_mem member _ _ _))
      others := fun id absent => copyOf_of_not_mem (by rwa [map_fst_copyIds])
      content := made.iterable.listed.isContent settled.placed
        (fun _ _ => Layered.node?_of_holder coherent anchored) present (by rw [isCollection]; rfl)
      parent := made.iterable.exists_parent }

/-- An iteration of a collection of the form is one of the template that is read in the beginning,
which consists of nodes of the form. -/
theorem exists_instance {calls : List (NodeId × Nat)} {record : Iteration}
    (member : record ∈ (run wired calls).iterations) {top : Node}
    (base : node? wired.form.nodes record.collection = some top) :
    ∃ template copies,
      Template.read (start wired).layers wired.scopes record.collection = .ok template ∧
      Instantiates (run wired calls).layers record template copies ∧
      ∀ entry ∈ template.nodes, node? wired.form.nodes entry.node.id = some entry.node := by
  obtain ⟨before, after, template, complete, state, turn⟩ := exists_turn grounded started member
  obtain ⟨copies, seen⟩ := turn.instantiates grounded started
  have read := turn.turn.read
  rw [wired_run, seen.collection, run_read grounded started before base] at read
  obtain ⟨_, _, _, _, _, _, _, _, _, listed⟩ :=
    Template.read_spec grounded.coherent started.anchored.coherent read
  refine ⟨template, copies, read, seen, fun entry inside => ?_⟩
  rw [← node?_start]
  exact Layered.node?_of_holder grounded.coherent started.anchored (listed.present entry inside)

end

end RequestScope

/-! ## Counterparts -/

/-- The identity of a pseudo-node under new identifiers: an item goes by what it was made for. -/
def Pseudo.identityIn {σ : Type} [NodeSource σ] (nodes : σ) (place : NodeId → NodeId)
    (definition : Pseudo) : PseudoKey :=
  if definition.kind = .item then
    { definition.toPseudoKey with
      key := ((definition.origin.bind (node? nodes)).bind fun outer =>
        Item.keyOfKind? (place outer.id) (outer.kind.remapIds place)).getD definition.key }
  else definition.toPseudoKey

namespace RequestScope

/-- The iterations of a request and their copies, with those of another request: iterations go by
collection and index, and copies by their place in the iteration. -/
def places (one other : RequestScope) : List (NodeId × NodeId) :=
  one.iterations.flatMap fun record =>
    match other.iteration? record.collection record.index with
    | some image => (batch record).zip (batch image)
    | none => []

/-- The node of another request that stands for a node of a request. Nodes of the form stand for
themselves. -/
def counterpart (one other : RequestScope) (id : NodeId) : NodeId :=
  match (one.overlay.nodes.node? id).bind fun node => node.kind.pseudo? with
  | some definition =>
    (other.layers.pseudo? (definition.identityIn one.layers (copyOf (places one other)))).getD id
  | none => copyOf (places one other) id

/-- No node of a request has a number that a collection or a field of the form links to, as a source,
a formatter or a default value. All numbers of nodes of the form are smaller, so this is about links
to nodes that are missing. -/
def Unlinked (form : Form) (request : RequestScope) : Prop :=
  ∀ node ∈ form.nodes.nodes, ∀ id ∈ node.kind.followedIds,
    id ∉ request.overlay.nodes.nodes.map Node.id

/-- Two orders of the same calls in which all of them succeed. The calls are for collections of the
form, and none is made twice. -/
structure Reorders (form : Form) (wired : WiredForm) (calls reordered : List (NodeId × Nat)) :
    Prop where
  base : ∀ call ∈ calls, form.nodes.contains call.1 = true
  distinct : calls.Nodup
  perm : calls.Perm reordered
  first : Succeeds wired calls
  second : Succeeds wired reordered

theorem Reorders.symm {form : Form} {wired : WiredForm} {calls reordered : List (NodeId × Nat)}
    (reorders : Reorders form wired calls reordered) : Reorders form wired reordered calls where
  base := fun call member => reorders.base call (reorders.perm.mem_iff.2 member)
  distinct := reorders.perm.nodup_iff.1 reorders.distinct
  perm := reorders.perm.symm
  first := reorders.second
  second := reorders.first

/-- Two requests over a wired plain form that differ in the order of their calls. -/
structure Rearranged (form : Form) (config : WiringConfig) (wired : WiredForm)
    (calls reordered : List (NodeId × Nat)) : Prop extends Reorders form wired calls reordered where
  registered : WiredForm.Registered form config wired
  coherent : form.nodes.Coherent
  plain : form.Plain
  clear : Unlinked form (run wired calls)
  clearAgain : Unlinked form (run wired reordered)

/-- One iteration, as two requests have it. -/
structure Twins (one other : RequestScope) (record image : Iteration) (template : Template)
    (first second : List (NodeId × NodeId)) : Prop where
  known : record ∈ one.iterations
  paired : other.iteration? record.collection record.index = some image
  base : ∃ top, node? one.wired.form.nodes template.collection = some top
  form : ∀ entry ∈ template.nodes, node? one.wired.form.nodes entry.node.id = some entry.node
  made : Instantiates one.layers record template first
  again : Instantiates other.layers image template second

namespace Twins

variable {one other : RequestScope} {record image : Iteration} {template : Template}
  {first second : List (NodeId × NodeId)}
  (twins : Twins one other record image template first second)
include twins

theorem image_known : image ∈ other.iterations ∧ image.collection = record.collection ∧
    image.index = record.index := by
  have key := List.find?_some twins.paired
  simp only [Bool.and_eq_true, decide_eq_true_eq] at key
  exact ⟨List.mem_of_find?_eq_some twins.paired, key⟩

theorem zip_batch : (batch record).zip (batch image) = (record.node, image.node) ::
    (Template.ids template.nodes).map fun id => (copyOf first id, copyOf second id) := by
  rw [twins.made.batch_eq, twins.again.batch_eq, List.zip_cons_cons, List.zip_map']

theorem mem_places {pair : NodeId × NodeId} (member : pair ∈ (batch record).zip (batch image)) :
    pair ∈ places one other := by
  refine List.mem_flatMap.2 ⟨record, twins.known, ?_⟩
  rw [twins.paired]
  exact member

end Twins

namespace Rearranged

variable {form : Form} {config : WiringConfig} {wired : WiredForm}
  {calls reordered : List (NodeId × Nat)}
  (rearranged : Rearranged form config wired calls reordered)
include rearranged

theorem symm : Rearranged form config wired reordered calls where
  toReorders := rearranged.toReorders.symm
  registered := rearranged.registered
  coherent := rearranged.coherent
  plain := rearranged.plain
  clear := rearranged.clearAgain
  clearAgain := rearranged.clear

theorem grounded : Grounded wired :=
  grounded_of_registered rearranged.registered rearranged.coherent rearranged.plain

theorem started : Settled (start wired) :=
  settled_start rearranged.registered rearranged.coherent rearranged.plain

theorem settled : Settled (run wired calls) :=
  settled_run rearranged.grounded rearranged.started calls

theorem anchored : wired.form.nodes.Anchored (run wired calls).overlay.nodes := by
  have anchored := rearranged.settled.anchored
  rwa [wired_run] at anchored

/-- A node of the form is one of the wired form. -/
theorem node?_of_contains {id : NodeId} (known : form.nodes.contains id = true) :
    ∃ node, node? wired.form.nodes id = some node := by
  obtain ⟨node, found⟩ := Option.isSome_iff_exists.1 known
  exact ⟨node, (rearranged.registered.grows rearranged.coherent).shows.node id node found⟩

theorem low_of_mem {node : Node} (member : node ∈ form.nodes.nodes) :
    node.id.val < wired.nodeMark := by
  have known : form.nodes.contains node.id = true := by
    rw [NodeStore.contains, NodeStore.node?_of_mem rearranged.coherent member]
    rfl
  obtain ⟨other, found⟩ := rearranged.node?_of_contains known
  exact NodeStore.id_lt_nextId rearranged.grounded.coherent found

/-- **Every iteration of a request is one of the other request.** -/
theorem exists_twins {record : Iteration} (member : record ∈ (run wired calls).iterations) :
    ∃ image template first second,
      Twins (run wired calls) (run wired reordered) record image template first second := by
  have grounded := rearranged.grounded
  have started := rearranged.started
  have asked := rearranged.first.asked grounded started rearranged.distinct
  have again := rearranged.second.asked grounded started rearranged.symm.distinct
  have call : (record.collection, record.index) ∈ calls := by
    rw [← asked]
    exact List.mem_map_of_mem member
  obtain ⟨image, paired⟩ : ∃ image,
      (run wired reordered).iteration? record.collection record.index = some image := by
    have reached := rearranged.perm.mem_iff.1 call
    rw [← again] at reached
    obtain ⟨other, inside, same⟩ := List.mem_map.1 reached
    obtain ⟨collection, index⟩ := Prod.mk.inj same
    refine Option.isSome_iff_exists.1 (List.find?_isSome.2 ⟨other, inside, ?_⟩)
    simp [collection, index]
  have key := List.find?_some paired
  simp only [Bool.and_eq_true, decide_eq_true_eq] at key
  obtain ⟨top, base⟩ := rearranged.node?_of_contains (rearranged.base _ call)
  obtain ⟨template, first, read, made, inForm⟩ := exists_instance grounded started member base
  obtain ⟨again, second, reread, remade, _⟩ :=
    exists_instance grounded started (List.mem_of_find?_eq_some paired)
      (key.1.symm ▸ base : node? wired.form.nodes image.collection = some top)
  rw [key.1, read] at reread
  cases reread
  refine ⟨image, template, first, second, member, paired, ?_, ?_, made, remade⟩
  · rw [wired_run, made.collection]
    exact ⟨top, base⟩
  · rw [wired_run]
    exact inForm

theorem map_fst_places : (places (run wired calls) (run wired reordered)).map Prod.fst =
    (run wired calls).iterations.flatMap batch := by
  rw [places, List.map_flatMap]
  refine List.flatMap_congr fun record member => ?_
  obtain ⟨image, template, first, second, twins⟩ := rearranged.exists_twins member
  rw [twins.paired]
  dsimp only
  rw [twins.zip_batch, twins.made.batch_eq, List.map_cons, List.map_map]
  rfl

theorem nodup_places :
    ((places (run wired calls) (run wired reordered)).map Prod.fst).Nodup := by
  rw [rearranged.map_fst_places]
  exact (run_batches rearranged.grounded rearranged.started calls).nodup
    rearranged.anchored.coherent.nodup

/-- What is no node of the request has no other counterpart than itself. -/
theorem counterpart_of_absent {id : NodeId}
    (absent : id ∉ (run wired calls).overlay.nodes.nodes.map Node.id) :
    counterpart (run wired calls) (run wired reordered) id = id := by
  have own : (run wired calls).overlay.nodes.node? id = none := by
    refine Option.eq_none_iff_forall_ne_some.2 fun node found => absent ?_
    obtain ⟨member, rfl⟩ := (NodeStore.node?_eq_some_iff rearranged.anchored.coherent).1 found
    exact List.mem_map_of_mem member
  rw [counterpart, own]
  refine copyOf_of_not_mem fun key => absent ?_
  rw [rearranged.map_fst_places] at key
  exact (run_batches rearranged.grounded rearranged.started calls).subset key

/-- What stands in the form stands for itself. -/
theorem counterpart_low {id : NodeId} (low : id.val < wired.nodeMark) :
    counterpart (run wired calls) (run wired reordered) id = id := by
  refine rearranged.counterpart_of_absent fun member => ?_
  obtain ⟨node, known, rfl⟩ := List.mem_map.1 member
  exact absurd low (Nat.not_lt.2 (rearranged.anchored.high node known))

/-- The iteration and the copies have the counterparts with which they are paired. -/
theorem counterpart_of_mem {record image : Iteration} {template : Template}
    {first second : List (NodeId × NodeId)}
    (twins : Twins (run wired calls) (run wired reordered) record image template first second)
    {id other : NodeId} (member : (id, other) ∈ (batch record).zip (batch image)) :
    counterpart (run wired calls) (run wired reordered) id = other := by
  have paired : (places (run wired calls) (run wired reordered)).lookup id = some other :=
    (lookup_eq_some_iff_mem rearranged.nodup_places).2 (twins.mem_places member)
  have plain : ((run wired calls).overlay.nodes.node? id).bind
      (fun node => node.kind.pseudo?) = none := by
    cases own : (run wired calls).overlay.nodes.node? id with
    | none => rfl
    | some node =>
      obtain ⟨found, there, plain⟩ := twins.made.found (List.of_mem_zip member).1
      cases there.symm.trans (Layered.node?_eq_some_iff.2 (.inl own))
      exact plain
  rw [counterpart, plain]
  change copyOf (places _ _) id = other
  rw [copyOf, paired]
  rfl

section

variable {record image : Iteration} {template : Template} {first second : List (NodeId × NodeId)}
  (twins : Twins (run wired calls) (run wired reordered) record image template first second)
include twins

theorem counterpart_node :
    counterpart (run wired calls) (run wired reordered) record.node = image.node := by
  refine rearranged.counterpart_of_mem twins ?_
  rw [twins.zip_batch]
  exact List.mem_cons_self ..

/-- The counterpart of the copy of a node is its copy, and nodes of the form stay. -/
theorem counterpart_copyOf {id : NodeId} (known : id ∈ Template.ids template.nodes ∨
      id ∉ (run wired calls).overlay.nodes.nodes.map Node.id) :
    counterpart (run wired calls) (run wired reordered) (copyOf first id) = copyOf second id := by
  by_cases inside : id ∈ Template.ids template.nodes
  · refine rearranged.counterpart_of_mem twins ?_
    rw [twins.zip_batch]
    exact List.mem_cons_of_mem _ (List.mem_map_of_mem inside)
  · rw [twins.made.others id inside, twins.again.others id inside]
    exact rearranged.counterpart_of_absent (known.resolve_left inside)

theorem map_counterpart :
    (batch record).map (counterpart (run wired calls) (run wired reordered)) = batch image := by
  rw [twins.made.batch_eq, twins.again.batch_eq, List.map_cons, List.map_map,
    rearranged.counterpart_node twins]
  exact congrArg _ (List.map_congr_left fun id inside =>
    rearranged.counterpart_copyOf twins (.inl inside))

end

/-- **Nodes other than pseudo-nodes are renumbered by their counterparts.** -/
theorem renumbering : Renumbering (run wired calls).layers (run wired reordered).layers
    (counterpart (run wired calls) (run wired reordered)) := by
  have grounded := rearranged.grounded
  have started := rearranged.started
  have fixed : ∀ id node, node? wired.form.nodes id = some node →
      counterpart (run wired calls) (run wired reordered) id = id :=
    fun id node found => rearranged.counterpart_low (NodeStore.id_lt_nextId grounded.coherent found)
  have clear : ∀ id node, node? wired.form.nodes id = some node → node.kind.pseudo? = none →
      ∀ link ∈ node.kind.followedIds,
        link ∉ (run wired calls).overlay.nodes.nodes.map Node.id := by
    intro id node found plain link followed
    have own := rearranged.registered.mem_form rearranged.coherent found plain
    exact rearranged.clear node (List.mem_of_find?_eq_some own) link followed
  refine ⟨fun id node found plain => ?_,
    fun _ _ _ _ => run_plain_parent rearranged.registered rearranged.coherent rearranged.plain _⟩
  rcases run_node_cases grounded started calls found plain with lower | ⟨record, known, inside⟩
  · refine ⟨node, ?_, ?_, ?_, ?_⟩
    · rw [fixed id node lower]
      exact (shows_form grounded started reordered).node id node lower
    · rw [LawfulSource.id_of_node? _ _ _ lower, fixed id node lower]
    · cases contained : node.parent with
      | none => rfl
      | some parent =>
        obtain ⟨outer, present⟩ := grounded.upright.exists_parent lower contained
        rw [Option.map_some, fixed parent outer present]
    · exact .ofFixed plain fun link followed =>
        rearranged.counterpart_of_absent (clear id node lower plain link followed)
  · obtain ⟨image, template, first, second, twins⟩ := rearranged.exists_twins known
    obtain ⟨_, _, index⟩ := twins.image_known
    have top := rearranged.counterpart_node twins
    rw [twins.made.batch_eq] at inside
    have base := twins.base
    have inForm := twins.form
    rw [wired_run] at base inForm
    rcases List.mem_cons.1 inside with rfl | copy
    · obtain ⟨outer, present⟩ := base
      have stays := fixed _ outer present
      have iteration : NodeKind.Renumbered (counterpart (run wired calls) (run wired reordered))
        _ _ := .iteration template.collection record.index
      rw [stays] at iteration
      cases twins.made.top.symm.trans found
      refine ⟨_, top ▸ twins.again.top, rfl, ?_, ?_⟩
      · rw [Option.map_some, stays]
      · rw [index]
        exact iteration
    · obtain ⟨_, listed, rfl⟩ := List.mem_map.1 copy
      obtain ⟨entry, member, rfl⟩ := List.mem_map.1 listed
      have placed := rearranged.counterpart_copyOf twins (.inl listed)
      cases (twins.made.copy entry member).symm.trans found
      refine ⟨_, placed ▸ twins.again.copy entry member, placed.symm, ?_, ?_⟩
      · obtain ⟨parent, contained, place⟩ := twins.made.parent entry member
        simp only [copyNode, contained, Option.map_some]
        split
        · rw [top]
        · rename_i inner
          rw [rearranged.counterpart_copyOf twins (.inl (place.resolve_left inner))]
      · have original := twins.made.content entry member
        simp only [copyNode, index]
        refine .apply (.ofRemap original.pseudo fun link followed => ?_) _ _
        exact rearranged.counterpart_copyOf twins
          (.inr (clear _ _ (inForm entry member) original.pseudo link followed))

end Rearranged

end RequestScope

end FormFlow
