import FormFlow.Proofs.Form.Parts
import FormFlow.Proofs.Request.Counterpart
import FormFlow.Proofs.Request.Unrolled

/-!
# An iteration is a clone

An iteration is made by cloning what stands below its collection. `RequestScope.Clones` says what
that means without a word about how a template is read or renamed: the nodes below the collection
are given in pre-order, and the clones in the same order behind the iteration. A clone stands where
the clone of the other node's parent is, links to the clone of whatever is cloned, and has a new
code or key at most where an iteration may rename (`NodeKind.Cloned`).

Every call that makes an iteration clones (`RequestScope.materialize_clones`).
-/

set_option autoImplicit false

namespace FormFlow

open NodeSource

/-! ## Kinds -/

/-- A kind and its clone: `place` finds the clones of links. Codes of fields and collections may be
new in a template's `own` nodes, and so may the keys of references to answers and submitted
values. -/
inductive NodeKind.Cloned (place : NodeId → NodeId) (own : Prop) : NodeKind → NodeKind → Prop where
  | block (variant : String) : Cloned place own (.block variant) (.block variant)
  | collection (definition : Collection) (code : String) (kept : own ∨ code = definition.code) :
    Cloned place own (.collection definition) (.collection ⟨code, definition.source.map place⟩)
  | field (definition : Field) (code : String) (kept : own ∨ code = definition.code) :
    Cloned place own (.field definition) (.field ⟨code, definition.variant,
      definition.formatters.map place, definition.defaultValue.map place⟩)
  | reference (expression : Reference) :
    Cloned place own (.reference expression) (.reference expression)
  | keyed (space : Namespace) (renamed : space = .answers ∨ space = .post) (old key : String)
      (nested : List String) : Cloned place own (.reference ⟨space.text :: old :: nested⟩)
        (.reference ⟨space.text :: key :: nested⟩)
  | function (name : String) (arguments : List NodeId) :
    Cloned place own (.function name arguments) (.function name (arguments.map place))
  | literal (value : Json) : Cloned place own (.literal value) (.literal value)
  | transition (definition : Transition) : Cloned place own (.transition definition)
      (.transition ⟨definition.trigger, definition.effects.map place⟩)

theorem NodeKind.Cloned.linkedIds {place : NodeId → NodeId} {own : Prop} {kind copy : NodeKind}
    (cloned : kind.Cloned place own copy) : copy.linkedIds = kind.linkedIds.map place := by
  cases cloned with
  | collection definition code _ =>
    cases found : definition.source <;> simp [NodeKind.linkedIds, found]
  | field definition code _ =>
    cases found : definition.defaultValue <;> simp [NodeKind.linkedIds, found]
  | _ => rfl

/-- The copy of a reference in another namespace, or without a key, is the same. -/
theorem Renaming.cloned_reference (scheme : Renaming) (direct : Bool) (place : NodeId → NodeId)
    (own : Prop) (expression : Reference) : (NodeKind.reference expression).Cloned place own
      (scheme.apply direct (.reference expression)) := by
  obtain ⟨path⟩ := expression
  rw [apply]
  split
  · rename_i within
    match path, within with
    | [], _ => exact .reference _
    | [first], _ => exact .reference _
    | first :: old :: nested, within =>
      obtain ⟨space, renamed, rfl⟩ : ∃ space : Namespace,
          (space = .answers ∨ space = .post) ∧ first = space.text := by
        rw [Bool.or_eq_true] at within
        rcases within with isAnswer | isPost
        · exact ⟨.answers, .inl rfl, by simpa [Reference.isIn] using isAnswer⟩
        · exact ⟨.post, .inr rfl, by simpa [Reference.isIn] using isPost⟩
      exact .keyed space renamed old _ nested
  · exact .reference _

theorem NodeKind.IsContent.cloned {kind : NodeKind} (content : kind.IsContent) (scheme : Renaming)
    (direct : Bool) (place : NodeId → NodeId) {own : Prop} (isOwn : direct = true → own) :
    kind.Cloned place own (scheme.apply direct (kind.remapIds place)) := by
  cases kind with
  | journey code => cases content.scope
  | step path => cases content.scope
  | pseudo definition => cases content.pseudo
  | iteration template index => cases content.iteration
  | block variant => exact .block variant
  | literal value => exact .literal value
  | function name arguments => exact .function name arguments
  | transition definition => exact .transition definition
  | reference expression => exact scheme.cloned_reference direct place own expression
  | field definition =>
    cases direct with
    | true => exact .field definition _ (.inl (isOwn rfl))
    | false => exact .field definition _ (.inr rfl)
  | collection definition =>
    cases direct with
    | true => exact .collection definition _ (.inl (isOwn rfl))
    | false => exact .collection definition _ (.inr rfl)

/-! ## The listing of a template -/

namespace Template

variable {layers : Layered} {collection : NodeId} {listed : List NodeId}

/-- What is listed of a template is what was reached without the iterations. -/
theorem ids_entries (present : ∀ id ∈ listed,
      ∃ node, (layers.holder collection).node? id = some node) :
    ids (entries layers collection listed) = listed.filter fun id =>
      !((layers.holder collection).node? id).any fun node => node.kind.isIteration := by
  rw [ids, entries, List.map_filterMap, ← List.filterMap_eq_filter]
  refine List.filterMap_congr fun id member => ?_
  obtain ⟨node, found⟩ := present id member
  cases isIteration : node.kind.isIteration with
  | true => simp [part?, found, isIteration, Option.guard]
  | false => simp [part?, found, isIteration, Option.guard, NodeStore.id_eq_of_node? found]

/-- **A template is listed in the pre-order of the parts of its collection.** -/
theorem Traverses.spans_parts (holding : (layers.holder collection).Coherent)
    (traverses : Traverses layers collection listed) :
    Spans (layers.holder collection).parts ((layers.holder collection).parts collection)
      (ids (entries layers collection listed)) := by
  rw [ids_entries traverses.present, NodeStore.parts_eq_filter holding]
  refine traverses.spans.keep (fun id _ out => ?_) fun id _ kept => ?_
  · rw [onward, if_pos (by simpa using out)]
  · rw [onward, if_neg (by simpa using kept), NodeStore.parts_eq_filter holding]

/-- The nodes of a template in a given order are those of its listing with their parent. -/
theorem Traverses.filter_parent (holding : (layers.holder collection).Coherent)
    (traverses : Traverses layers collection listed)
    (outside : collection ∉ ids (entries layers collection listed)) (id : NodeId) :
    (ids (entries layers collection listed)).filter (fun other =>
        decide (((layers.holder collection).node? other).bind Node.parent = some id)) =
      if id = collection then (layers.holder collection).parts collection
      else if id ∈ ids (entries layers collection listed) then (layers.holder collection).parts id
      else [] := by
  have above : ∀ id, ∀ child ∈ (layers.holder collection).parts id,
      ((layers.holder collection).node? child).bind Node.parent = some id := by
    intro id child member
    obtain ⟨node, found, contained, _⟩ := (NodeStore.mem_parts_iff holding).1 member
    rw [found, Option.bind_some, contained]
  exact (traverses.spans_parts holding).filter_parent above (above collection)
    (List.nodup_cons.2 ⟨outside, nodup_ids_entries traverses.distinct⟩) id

end Template

/-- When the upper store gets new nodes, the store that holds an older one is the same. -/
theorem Layered.holder_of_append {layers later : Layered} (base : later.base = layers.base)
    {new : List Node} (nodes : later.overlay.nodes = layers.overlay.nodes ++ new) {id : NodeId}
    (elsewhere : ∀ node ∈ new, node.id ≠ id) :
    (later.holder id = later.overlay ∧ layers.holder id = layers.overlay) ∨
      (later.holder id = layers.base ∧ layers.holder id = layers.base) := by
  have absent : new.find? (fun node => node.id = id) = none :=
    List.find?_eq_none.2 fun node member => by simpa using elsewhere node member
  have kept : later.overlay.contains id = layers.overlay.contains id := by
    simp only [NodeStore.contains, NodeStore.node?, nodes, List.find?_append, absent,
      Option.or_none]
  simp only [holder, kept, base]
  split
  · exact .inl ⟨rfl, rfl⟩
  · exact .inr ⟨rfl, rfl⟩

namespace RequestScope

/-! ## What is below a collection stays -/

/-- What a call adds to a node that is no step are iterations. -/
theorem Settled.iteration_of_new {request : RequestScope} (grounded : Grounded request.wired)
    (settled : Settled request) {collection : NodeId} {index : Nat} {id : NodeId} {top node : Node}
    (found : node? request.layers id = some top) (noStep : top.kind.isStep = false)
    (there : node? (request.materialize collection index).1.layers node.id = some node)
    (new : request.overlay.nodes.nextId ≤ node.id.val) (contained : node.parent = some id) :
    node.kind.isIteration = true := by
  by_contra single
  obtain ⟨other, known, _⟩ := settled.part_of_materialize grounded found noStep
    ⟨node, there, contained, Bool.eq_false_iff.2 single⟩
  have low := settled.anchored.lt_nextId grounded.coherent ⟨other, known⟩
  omega

/-- A call appends nodes to those of the request, and leaves the form as it is. -/
theorem Settled.exists_append {request : RequestScope} (grounded : Grounded request.wired)
    (settled : Settled request) (collection : NodeId) (index : Nat) :
    (request.materialize collection index).1.wired = request.wired ∧
    ∃ new, (request.materialize collection index).1.overlay.nodes.nodes =
      request.overlay.nodes.nodes ++ new ∧
        ∀ node ∈ new, request.overlay.nodes.nextId ≤ node.id.val := by
  refine ⟨wired_materialize request collection index, ?_⟩
  rcases settled.materialize_cases grounded collection index with
    same | ⟨after, template, scheme, complete, state, iterations, made, done⟩
  · exact ⟨[], by rw [same, List.append_nil], nofun⟩
  · obtain ⟨new, appended, ids⟩ := made.nodes_after
    refine ⟨new, by rw [done]; exact appended, fun node member => ?_⟩
    exact (made.mem_batch grounded.coherent settled.anchored
      (ids ▸ List.mem_map_of_mem member)).1

/-- **A call adds no parts to a node that is no step.** -/
theorem Settled.parts_of_materialize {request : RequestScope} (grounded : Grounded request.wired)
    (settled : Settled request) {collection : NodeId} {index : Nat} {around id : NodeId}
    {top : Node} (there : request.layers.Has around) (found : node? request.layers id = some top)
    (noStep : top.kind.isStep = false) :
    ((request.materialize collection index).1.layers.holder around).parts id =
      (request.layers.holder around).parts id := by
  obtain ⟨later, -⟩ := settled.materialize grounded collection index
  obtain ⟨form, new, appended, above⟩ := settled.exists_append grounded collection index
  have low := settled.anchored.lt_nextId grounded.coherent there
  have elsewhere : ∀ node ∈ new, node.id ≠ around := by
    rintro node member rfl
    have high := above node member
    omega
  have base : (request.materialize collection index).1.layers.base = request.layers.base :=
    congrArg (fun wired : WiredForm => wired.form.nodes) form
  rcases Layered.holder_of_append base appended elsewhere with ⟨same, own⟩ | ⟨same, own⟩
  · rw [same, own]
    refine NodeStore.parts_of_append appended fun node member contained => ?_
    have seen : node? (request.materialize collection index).1.layers node.id = some node := by
      refine Layered.node?_eq_some_iff.2 (.inl (NodeStore.node?_of_mem later.anchored.coherent ?_))
      rw [appended]
      exact List.mem_append_right _ member
    exact settled.iteration_of_new grounded found noStep seen (above node member) contained
  · rw [same, own]

section

variable {wired : WiredForm} (grounded : Grounded wired) (started : Settled (start wired))
include grounded started

/-- The parts of a node that is no step stay the same. -/
theorem run_parts (calls more : List (NodeId × Nat)) {around id : NodeId} {top : Node}
    (there : (run wired calls).layers.Has around)
    (found : node? (run wired calls).layers id = some top) (noStep : top.kind.isStep = false) :
    ((run wired (calls ++ more)).layers.holder around).parts id =
      ((run wired calls).layers.holder around).parts id := by
  induction more using List.reverseRecOn with
  | nil => rw [List.append_nil]
  | append_singleton more call ih =>
    have shown := run_shows grounded started calls more
    obtain ⟨outer, present⟩ := there
    rw [← List.append_assoc, run_concat, ← ih]
    exact (settled_run grounded started _).parts_of_materialize (grounded_run grounded _)
      ⟨outer, shown.node _ _ present⟩ (shown.node _ _ found) noStep

end

/-! ## What stands below the iteration -/

section

variable {wired : WiredForm} {overlay after : Overlay} {template : Template}

/-- A collection is not in its own template. -/
theorem Iterable.collection_notMem (iterable : Iterable (layersOver wired overlay) template)
    (coherent : wired.form.nodes.Coherent) (anchored : wired.form.nodes.Anchored overlay.nodes)
    (upright : Upright (layersOver wired overlay)) :
    template.collection ∉ Template.ids template.nodes := by
  intro member
  obtain ⟨entry, known, same⟩ := List.mem_map.1 member
  have inside := iterable.inside coherent anchored entry known
  rw [same] at inside
  exact upright.acyclic _ inside

/-- Below the iteration and its copies stand copies only. -/
theorem Assembled.children_of_new {scheme : Renaming} {index : Nat} {complete : NodeStore}
    {state : Synthesis.State Layered}
    (made : Assembled wired overlay after template scheme index complete state)
    (coherent : wired.form.nodes.Coherent) (anchored : wired.form.nodes.Anchored overlay.nodes)
    {id : NodeId} (new : overlay.nodes.nextId ≤ id.val) :
    after.nodes.children id = ((copiesOf template scheme index overlay.nodes).map Node.id).filter
      fun copy => decide ((node? (layersOver wired after) copy).bind Node.parent = some id) := by
  have low : ∀ parent, (layersOver wired overlay).Has parent → parent ≠ id := by
    rintro parent has rfl
    have below := anchored.lt_nextId coherent has
    omega
  obtain ⟨outer, definition, present, isCollection, _⟩ := made.iterable.collection
  obtain ⟨step, stepThere, _⟩ := node?_of_owningStep? present
    (by rw [isCollection]; rfl) made.iterable.step
  obtain ⟨created, added⟩ := made.exists_added
  have nodes : after.nodes.nodes = overlay.nodes.nodes ++
      (newNodes template scheme index overlay.nodes ++ created) := by
    rw [made.store, added.nodes, made.nodes, List.append_assoc]
  have older : overlay.nodes.nodes.filter (fun node => decide (node.parent = some id)) = [] := by
    refine List.filter_eq_nil_iff.2 fun node member contained => ?_
    have below := anchored.parentsBelow coherent node member id (of_decide_eq_true contained)
    omega
  have pseudos : created.filter (fun node => decide (node.parent = some id)) = [] := by
    refine List.filter_eq_nil_iff.2 fun node member contained => ?_
    have within := (added.each node member).2.1
    rw [of_decide_eq_true contained] at within
    exact low _ ⟨step, stepThere⟩ (Option.some.inj within).symm
  have iteration : (iterationNode template index overlay.nodes).parent ≠ some id :=
    fun contained => low _ ⟨outer, present⟩ (Option.some.inj contained)
  rw [NodeStore.children_eq (made.anchored_after coherent anchored).coherent, nodes,
    List.filter_append, List.filter_append, older, pseudos, newNodes,
    List.filter_cons_of_neg (by simpa using iteration), List.nil_append, List.append_nil,
    List.filter_map]
  refine congrArg (List.map _) (List.filter_congr fun copy member => ?_)
  have seen := (made.supplied coherent anchored).1.node _ _
    (made.node?_of_new (List.mem_cons_of_mem _ member))
  rw [Function.comp, seen, Option.bind_some]

end

/-! ## Clones -/

/-- What a call makes of a template. The nodes below the collection are `listed` in pre-order, and
`place` finds their clones. -/
structure Clones (before after : RequestScope) (record : Iteration) (listed : List NodeId)
    (place : NodeId → NodeId) : Prop where
  template : Spans (before.layers.holder record.collection).parts
    ((before.layers.holder record.collection).parts record.collection) listed
  named : record.node = ⟨before.overlay.nodes.nextId⟩
  iteration : after.layers.node? record.node = some ⟨record.node, some record.collection,
    .iteration record.collection record.index⟩
  numbered : record.nodes = (List.range listed.length).map fun offset =>
    ⟨before.overlay.nodes.nextId + 1 + offset⟩
  placed : record.nodes = listed.map place
  elsewhere : ∀ id ∉ listed, place id = id
  clone : ∀ id ∈ listed, ∃ node copy,
    (before.layers.holder record.collection).node? id = some node ∧
    after.layers.node? (place id) = some copy ∧
    (∃ parent, node.parent = some parent ∧ copy.parent =
      some (if parent = record.collection then record.node else place parent)) ∧
    node.kind.Cloned place
      ((repeatedAbove? before.layers node).map Node.id = some record.collection) copy.kind
  children : after.overlay.nodes.children record.node =
    ((before.layers.holder record.collection).parts record.collection).map place
  mirrored : ∀ id ∈ listed, after.overlay.nodes.children (place id) =
    ((before.layers.holder record.collection).parts id).map place
  apart : ∀ id ∈ listed, ∀ copy, after.layers.node? (place id) = some copy →
    ∀ linked ∈ copy.kind.linkedIds, linked ∉ listed
  kept : ∀ id ∈ record.collection :: listed, after.layers.node? id = before.layers.node? id ∧
    (after.layers.holder record.collection).parts id =
      (before.layers.holder record.collection).parts id

theorem map_snd_copyIds (entries : List TemplateNode) (first : Nat) :
    (copyIds entries first).map Prod.snd =
      (List.range entries.length).map fun offset => (⟨first + offset⟩ : NodeId) := by
  rw [copyIds, List.map_map, List.range_eq_range', ← List.zipIdx_map_snd, List.map_map]
  rfl

namespace Instantiates

variable {layers : Layered} {record : Iteration} {template : Template}
  {copies : List (NodeId × NodeId)} (seen : Instantiates layers record template copies)
  (distinct : (batch record).Nodup)
include seen distinct

/-- A copy stands in the iteration if what is copied stands in the collection. -/
theorem parent_eq_iteration {entry : TemplateNode} (member : entry ∈ template.nodes) :
    (copyNode template (.ofTemplate template record.index) copies record.node entry).parent =
      some record.node ↔ entry.node.parent = some template.collection := by
  rw [seen.batch_eq, List.nodup_cons] at distinct
  obtain ⟨parent, contained, place⟩ := seen.parent entry member
  rw [copyNode, contained, Option.map_some, Option.some_inj, Option.some_inj]
  refine ⟨fun same => ?_, fun same => if_pos same⟩
  by_contra nested
  rw [if_neg nested] at same
  exact distinct.1 (same ▸ List.mem_map_of_mem (place.resolve_left nested))

/-- Otherwise a copy stands in the copy of what it was copied in. -/
theorem parent_eq_copy (outside : template.collection ∉ Template.ids template.nodes)
    {entry : TemplateNode} (member : entry ∈ template.nodes) {id : NodeId}
    (inside : id ∈ Template.ids template.nodes) :
    (copyNode template (.ofTemplate template record.index) copies record.node entry).parent =
      some (copyOf copies id) ↔ entry.node.parent = some id := by
  rw [seen.batch_eq, List.nodup_cons] at distinct
  obtain ⟨parent, contained, place⟩ := seen.parent entry member
  rw [copyNode, contained, Option.map_some, Option.some_inj, Option.some_inj]
  have apart : parent = template.collection → parent ≠ id := by
    rintro rfl rfl
    exact outside inside
  by_cases top : parent = template.collection
  · rw [if_pos top]
    refine iff_of_false (fun same => ?_) (apart top)
    exact distinct.1 (same ▸ List.mem_map_of_mem inside)
  · rw [if_neg top]
    exact ⟨List.inj_on_of_nodup_map distinct.2 (place.resolve_left top) inside,
      fun same => congrArg _ same⟩

end Instantiates

section

variable {wired : WiredForm} (grounded : Grounded wired) (started : Settled (start wired))
  {calls before : List (NodeId × Nat)} {after : Overlay} {template : Template}
  {complete : NodeStore} {state : Synthesis.State Layered} {record : Iteration}
include grounded started

/-- What is read of a template in a turn: no node twice, and not the collection. -/
theorem TurnOf.exists_traverses
    (turn : TurnOf wired calls before after template complete state record) :
    template.collection ∉ Template.ids template.nodes ∧ (Template.ids template.nodes).Nodup ∧
    ∃ listed, Template.Traverses (run wired before).layers template.collection listed ∧
      template.nodes = Template.entries (run wired before).layers template.collection listed := by
  have ground := grounded_run grounded before
  have settled := settled_run grounded started before
  obtain ⟨listed, traverses, entries⟩ := Template.exists_entries ground.coherent
    settled.anchored settled.placed.upright turn.turn.read
  refine ⟨turn.turn.made.iterable.collection_notMem ground.coherent settled.anchored
    settled.placed.upright, ?_, listed, traverses, entries⟩
  rw [entries]
  exact Template.nodup_ids_entries traverses.distinct

omit grounded started in
/-- The iteration and the copies are numbered one after the other. -/
theorem TurnOf.numbered (turn : TurnOf wired calls before after template complete state record)
    (distinct : (Template.ids template.nodes).Nodup) :
    record.node = ⟨(run wired before).overlay.nodes.nextId⟩ ∧
    record.nodes = (List.range (Template.ids template.nodes).length).map fun offset =>
      ⟨(run wired before).overlay.nodes.nextId + 1 + offset⟩ := by
  have recorded := turn.turn.recorded
  refine ⟨recorded.node, ?_⟩
  have next : ((run wired before).overlay.nodes.push (iterationNode template record.index
      (run wired before).overlay.nodes)).nextId = (run wired before).overlay.nodes.nextId + 1 :=
    Nat.max_eq_right (Nat.le_succ _)
  rw [recorded.nodes, map_id_copiesOf distinct, map_snd_copyIds, next, Template.ids,
    List.length_map]

omit grounded started in
theorem TurnOf.copies_above
    (turn : TurnOf wired calls before after template complete state record) :
    ∀ id ∈ record.nodes, (run wired before).overlay.nodes.nextId < id.val := by
  intro id member
  rw [turn.turn.recorded.nodes] at member
  obtain ⟨copy, known, rfl⟩ := List.mem_map.1 member
  exact copies_high known

omit grounded started in
theorem TurnOf.nodup_batch (turn : TurnOf wired calls before after template complete state record)
    (distinct : (Template.ids template.nodes).Nodup) : (batch record).Nodup := by
  refine List.nodup_cons.2 ⟨fun member => ?_, ?_⟩
  · have above := turn.copies_above _ member
    rw [turn.turn.recorded.node] at above
    exact Nat.lt_irrefl _ above
  · rw [turn.turn.recorded.nodes]
    exact nodup_copies distinct _ _ _

/-- Copies stand in the iteration and in each other as the nodes of the template in the collection
and in each other. -/
theorem TurnOf.children_eq {copies : List (NodeId × NodeId)}
    (turn : TurnOf wired (before ++ [(record.collection, record.index)]) before
      after template complete state record)
    (seen : Instantiates (run wired (before ++ [(record.collection, record.index)])).layers record
      template copies) {outer parent : NodeId}
    (new : (run wired before).overlay.nodes.nextId ≤ outer.val)
    (same : ∀ entry ∈ template.nodes, (copyNode template (.ofTemplate template record.index) copies
      record.node entry).parent = some outer ↔ entry.node.parent = some parent) :
    (run wired (before ++ [(record.collection, record.index)])).overlay.nodes.children outer =
      (if parent = template.collection then
          ((run wired before).layers.holder template.collection).parts template.collection
        else if parent ∈ Template.ids template.nodes then
          ((run wired before).layers.holder template.collection).parts parent
        else []).map (copyOf copies) := by
  have ground := grounded_run grounded before
  have anchored := (settled_run grounded started before).anchored
  obtain ⟨outside, _, listed, traverses, entries⟩ := turn.exists_traverses grounded started
  have holding : ((run wired before).layers.holder template.collection).Coherent :=
    Template.coherent_holder ground.coherent anchored _
  have layers : (run wired (before ++ [(record.collection, record.index)])).layers =
      layersOver (run wired before).wired after := by
    rw [turn.reached]
    rfl
  rw [entries] at outside
  rw [turn.reached]
  change after.nodes.children outer = _
  rw [turn.turn.made.children_of_new ground.coherent anchored new, ← turn.turn.recorded.nodes,
    seen.nodes, ← layers, List.filter_map, entries, ← traverses.filter_parent holding outside,
    ← entries]
  refine congrArg (List.map _) (List.filter_congr fun id member => ?_)
  obtain ⟨entry, known, rfl⟩ := List.mem_map.1 member
  have original := turn.turn.made.iterable.listed.present entry known
  rw [Function.comp, seen.copy entry known, Option.bind_some, decide_eq_decide, same entry known]
  change _ ↔ (((layersOver (run wired before).wired (run wired before).overlay).holder
    template.collection).node? entry.node.id).bind Node.parent = some parent
  rw [original, Option.bind_some]

/-- **An iteration is a clone of what stands below its collection.** -/
theorem TurnOf.clones (turn : TurnOf wired (before ++ [(record.collection, record.index)]) before
      after template complete state record) :
    ∃ place, Clones (run wired before) (run wired (before ++ [(record.collection, record.index)]))
      record (Template.ids template.nodes) place := by
  obtain ⟨copies, seen⟩ := turn.instantiates grounded started
  obtain ⟨outside, distinct, listed, traverses, entries⟩ := turn.exists_traverses grounded started
  obtain ⟨named, numbered⟩ := turn.numbered distinct
  have ground := grounded_run grounded before
  have settled := settled_run grounded started before
  have anchored := settled.anchored
  have made := turn.turn.made
  have holding := Template.coherent_holder ground.coherent anchored template.collection
  have shown := run_shows grounded started before [(record.collection, record.index)]
  obtain ⟨top, definition, present, isCollection, _⟩ := made.iterable.collection
  have found : ∀ entry ∈ template.nodes, node? (run wired before).layers entry.node.id =
      some entry.node := fun _ => made.iterable.found ground.coherent anchored
  have low : ∀ id ∈ Template.ids template.nodes,
      id.val < (run wired before).overlay.nodes.nextId := by
    intro id member
    obtain ⟨entry, known, rfl⟩ := List.mem_map.1 member
    exact anchored.lt_nextId ground.coherent ⟨entry.node, found entry known⟩
  have high : ∀ id ∈ Template.ids template.nodes,
      (run wired before).overlay.nodes.nextId < (copyOf copies id).val := fun id member =>
    turn.copies_above _ (seen.nodes ▸ List.mem_map_of_mem member)
  have whole := turn.nodup_batch distinct
  refine ⟨copyOf copies, ?_⟩
  refine
    { template := ?_
      named := named
      iteration := seen.collection ▸ seen.top
      numbered := numbered
      placed := seen.nodes
      elsewhere := seen.others
      clone := ?_
      children := ?_
      mirrored := ?_
      apart := ?_
      kept := ?_ }
  · rw [entries, ← seen.collection]
    exact traverses.spans_parts holding
  · intro id member
    obtain ⟨entry, known, rfl⟩ := List.mem_map.1 member
    obtain ⟨parent, contained, _⟩ := seen.parent entry known
    refine ⟨entry.node, _, ?_, seen.copy entry known, ⟨parent, contained, ?_⟩, ?_⟩
    · rw [← seen.collection]
      exact made.iterable.listed.present entry known
    · rw [copyNode, contained, ← seen.collection]
      rfl
    · refine (seen.content entry known).cloned _ _ _ fun isDirect => ?_
      rw [made.iterable.listed.direct entry known, decide_eq_true_eq] at isDirect
      rw [← seen.collection]
      exact isDirect
  · rw [turn.children_eq grounded started seen (named ▸ Nat.le_refl _)
      fun entry => seen.parent_eq_iteration whole, if_pos rfl, seen.collection]
  · intro id member
    have other : id ≠ template.collection := by
      rintro rfl
      exact outside member
    rw [turn.children_eq grounded started seen (Nat.le_of_lt (high id member))
      fun entry known => seen.parent_eq_copy whole outside known member, if_neg other,
      if_pos member, seen.collection]
  · intro id member copy there linked links
    obtain ⟨entry, known, rfl⟩ := List.mem_map.1 member
    cases (seen.copy entry known).symm.trans there
    have cloned : entry.node.kind.Cloned (copyOf copies) True _ :=
      (seen.content entry known).cloned (.ofTemplate template record.index) entry.direct _
        fun _ => trivial
    change linked ∈ (Renaming.apply _ _ _).linkedIds at links
    rw [cloned.linkedIds] at links
    obtain ⟨target, _, rfl⟩ := List.mem_map.1 links
    by_cases inside : target ∈ Template.ids template.nodes
    · intro again
      exact absurd (low _ again) (Nat.lt_asymm (high _ inside))
    · rw [seen.others _ inside]
      exact inside
  · intro id member
    obtain ⟨node, there, noStep⟩ : ∃ node, node? (run wired before).layers id = some node ∧
        node.kind.isStep = false := by
      rcases List.mem_cons.1 member with rfl | inside
      · rw [← seen.collection]
        exact ⟨top, present, by rw [isCollection]; rfl⟩
      · obtain ⟨entry, known, rfl⟩ := List.mem_map.1 inside
        exact ⟨entry.node, found entry known,
          (Bool.or_eq_false_iff.1 (seen.content entry known).scope).2⟩
    refine ⟨(shown.node _ _ there).trans there.symm, ?_⟩
    rw [← seen.collection, run_concat]
    exact settled.parts_of_materialize ground ⟨top, present⟩ there noStep

/-- A call that makes an iteration clones. -/
theorem run_clones (calls : List (NodeId × Nat)) {collection : NodeId} {index : Nat}
    (fresh : (run wired calls).iteration? collection index = none)
    (succeeded : ((run wired calls).materialize collection index).2 = .ok record) :
    record.collection = collection ∧ record.index = index ∧ ∃ listed place,
      Clones (run wired calls) ((run wired calls).materialize collection index).1 record listed
        place := by
  rcases run_cases grounded started calls (collection, index) with
    same | ⟨after, template, complete, state, made, turn, named, done⟩
  · -- Nothing was made, so the iteration would have to be there.
    rw [run_concat] at same
    rcases iterations_of_ok succeeded with found | grown
    · cases fresh.symm.trans found
    · rw [same] at grown
      simp at grown
  · cases succeeded.symm.trans done
    cases named
    obtain ⟨place, clones⟩ := turn.clones grounded started
    rw [run_concat] at clones
    exact ⟨rfl, rfl, Template.ids template.nodes, place, clones⟩

end

/-- **Every call that makes an iteration clones what stands below the collection**, whatever was
asked of the request before. The nodes below the collection, without iterations, are listed in
pre-order, in the store that holds the collection. The iteration has the next identifier of the
request and the clones the following ones, in the order of the list. Each clone stands in the clone
of its original's parent, or in the iteration; links to listed nodes lead to their clones and
others stay as they are; a code or a key may be new, and nothing else. The children of the
iteration and of the clones are the clones of the originals' children, in the same order. The
originals are left as they are, and no clone links to one. -/
theorem materialize_clones {form : Form} {config : WiringConfig} {wired : WiredForm}
    (built : form.Built) (plain : form.Plain) (wiring : WiredForm.wire form config = .ok wired)
    {request : RequestScope} (reached : Reachable wired request) {collection : NodeId} {index : Nat}
    (fresh : request.iteration? collection index = none) {record : Iteration}
    (succeeded : (request.materialize collection index).2 = .ok record) :
    record.collection = collection ∧ record.index = index ∧ ∃ listed place,
      Clones request (request.materialize collection index).1 record listed place := by
  have registered := WiredForm.wire_spec wiring
  obtain ⟨calls, same⟩ := reached.exists_calls
  rw [same] at fresh succeeded ⊢
  rw [materialize_withAnswers] at succeeded ⊢
  obtain ⟨asked, numbered, listed, place, clones⟩ :=
    run_clones (grounded_of_registered registered built.coherent plain)
      (settled_start registered built.coherent plain) calls fresh succeeded
  exact ⟨asked, numbered, listed, place, clones.template, clones.named, clones.iteration,
    clones.numbered, clones.placed, clones.elsewhere, clones.clone, clones.children,
    clones.mirrored, clones.apart, clones.kept⟩

/-! ### Links that stay within the template and links that leave it -/

namespace Stops

/-- The default value stands outside the template, the formatter in it. -/
def form : Form :=
  ⟨"tour", {
    nodes := [
      ⟨⟨0⟩, none, .journey "tour"⟩,
      ⟨⟨1⟩, some ⟨0⟩, .transition ⟨.load, []⟩⟩,
      ⟨⟨2⟩, some ⟨0⟩, .step "/stops"⟩,
      ⟨⟨3⟩, some ⟨2⟩, .literal (.str "unnamed")⟩,
      ⟨⟨4⟩, some ⟨2⟩, .collection ⟨"stop", none⟩⟩,
      ⟨⟨5⟩, some ⟨4⟩, .field ⟨"name", "text", [⟨6⟩], some ⟨3⟩⟩⟩,
      ⟨⟨6⟩, some ⟨5⟩, .function "trim" []⟩,
      ⟨⟨7⟩, some ⟨4⟩, .collection ⟨"note", none⟩⟩,
      ⟨⟨8⟩, some ⟨7⟩, .reference ⟨["answers", "name"]⟩⟩]
    containment := [(⟨0⟩, ⟨1⟩), (⟨0⟩, ⟨2⟩), (⟨2⟩, ⟨3⟩), (⟨2⟩, ⟨4⟩), (⟨4⟩, ⟨5⟩), (⟨5⟩, ⟨6⟩),
      (⟨4⟩, ⟨7⟩), (⟨7⟩, ⟨8⟩)]
    references := [⟨8⟩]
    identities := []
    nextId := 9 }⟩

theorem built : form.Built := by
  have journey := Form.Built.addJourney (.empty "tour")
    (rfl : Form.addJourney _ none "tour" = .ok (_, ⟨0⟩))
  have load := journey.addTransition (rfl : Form.addTransition _ ⟨0⟩ .load = .ok (_, ⟨1⟩))
  have step := load.addStep (rfl : Form.addStep _ ⟨0⟩ "/stops" = .ok (_, ⟨2⟩))
  have literal := step.addLiteral
    (rfl : Form.addLiteral _ ⟨2⟩ (.str "unnamed") = .ok (_, ⟨3⟩))
  have stop := literal.addCollection (rfl : Form.addCollection _ ⟨2⟩ "stop" none = .ok (_, ⟨4⟩))
  have field := stop.addField (rfl : Form.addField _ ⟨4⟩ "name" "text" = .ok (_, ⟨5⟩))
  have formatter := field.addFormatter (rfl : Form.addFormatter _ ⟨5⟩ "trim" = .ok (_, ⟨6⟩))
  have named := formatter.setDefaultValue (rfl : Form.setDefaultValue _ ⟨5⟩ ⟨3⟩ = .ok _)
  have note := named.addCollection (rfl : Form.addCollection _ ⟨4⟩ "note" none = .ok (_, ⟨7⟩))
  exact note.addReference (rfl : Form.addReference _ ⟨7⟩ ["answers", "name"] = .ok (_, ⟨8⟩))

theorem plain : form.Plain :=
  .ofNodes NodeId.val (by decide) (by decide) (by decide) (by decide) (by decide)

def wired : WiredForm := (WiredForm.wire form .default).toOption.getD default

theorem wiring : WiredForm.wire form .default = .ok wired := rfl

def first : Iteration := ((start wired).materialize ⟨4⟩ 0).2.toOption.getD default

/-- The copy of the field has the copied formatter and the default value of the form. -/
theorem first_cloned :
    ((start wired).materialize ⟨4⟩ 0).1.layers.node? ⟨11⟩ =
        some ⟨⟨11⟩, some ⟨10⟩, .field ⟨"stop_0_name", "text", [⟨12⟩], some ⟨3⟩⟩⟩ ∧
      ∃ listed place, Clones (start wired) ((start wired).materialize ⟨4⟩ 0).1 first listed place :=
  ⟨rfl, (materialize_clones built plain wiring .start (rfl : (start wired).iteration? ⟨4⟩ 0 = none)
    (rfl : ((start wired).materialize ⟨4⟩ 0).2 = .ok first)).2.2⟩

end Stops

end RequestScope

end FormFlow
