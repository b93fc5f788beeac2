import FormFlow.Proofs.Form.Growth
import FormFlow.Proofs.Form.Lineage
import FormFlow.Proofs.Request.Template
import FormFlow.Proofs.Wiring.Outcome
import FormFlow.Proofs.Wiring.Synthesis
import FormFlow.Request.Scope

/-!
# How the overlay of a request grows

The attempt to make an iteration inserts the iteration, then the copies of the template, then
pseudo-nodes, and then adds edges. Wherever it stops, the overlay is the old one with nodes and
edges behind it (`RequestScope.build_extends`).

Every node of an overlay stands under a node of the overlay or of the form
(`NodeStore.Anchored`): an iteration under its collection, a copy under the iteration or an
earlier copy, a pseudo-node under the step of the collection.
-/

set_option autoImplicit false

namespace FormFlow

/-! ## Layers -/

namespace Layered

/-- There is a node with an identifier in one of the layers. -/
def Has (layers : Layered) (id : NodeId) : Prop := ∃ node, layers.node? id = some node

/-- What the layers show stays when the upper one grows above the lower one. -/
theorem node?_of_grows {layers : Layered} (base : layers.base.Coherent) {mark : Nat}
    (above : layers.base.nextId ≤ mark) {later : NodeStore}
    (grows : NodeStore.Grows mark layers.overlay later) {id : NodeId} {node : Node}
    (found : layers.node? id = some node) :
    ({ layers with overlay := later } : Layered).node? id = some node := by
  rw [node?_eq_some_iff] at found ⊢
  rcases found with own | ⟨absent, lower⟩
  · exact .inl (grows.node?_of_found own)
  · have low := NodeStore.id_lt_nextId base lower
    refine .inr ⟨?_, lower⟩
    rw [grows.node?_below (by omega)]
    exact absent

theorem has_of_grows {layers : Layered} (base : layers.base.Coherent) {mark : Nat}
    (above : layers.base.nextId ≤ mark) {later : NodeStore}
    (grows : NodeStore.Grows mark layers.overlay later) {id : NodeId} (has : layers.Has id) :
    Has { layers with overlay := later } id := by
  obtain ⟨node, found⟩ := has
  exact ⟨node, node?_of_grows base above grows found⟩

end Layered

/-! ## Anchored stores -/

/-- A store over another, with higher identifiers. Each of its nodes stands under a node of the
lower store or under one that was inserted earlier. -/
structure NodeStore.Anchored (base overlay : NodeStore) : Prop where
  coherent : overlay.Coherent
  above : base.nextId ≤ overlay.nextId
  high : ∀ node ∈ overlay.nodes, base.nextId ≤ node.id.val
  contained : Hangs (fun parent => ∃ outer, base.node? parent = some outer) overlay.nodes

namespace NodeStore

variable {base overlay : NodeStore}

theorem anchored_startingAt (base : NodeStore) : base.Anchored (.startingAt base.nextId) where
  coherent := coherent_startingAt _
  above := Nat.le_refl _
  high := by simp [startingAt]
  contained := by simp [Hangs, startingAt]

theorem Anchored.lt_nextId (anchored : base.Anchored overlay) (coherent : base.Coherent)
    {id : NodeId} (has : Layered.Has ⟨base, overlay⟩ id) : id.val < overlay.nextId := by
  obtain ⟨node, found⟩ := has
  rcases Layered.node?_eq_some_iff.1 found with own | ⟨_, lower⟩
  · exact id_lt_nextId anchored.coherent own
  · exact Nat.lt_of_lt_of_le (id_lt_nextId coherent lower) anchored.above

/-- The lower store is seen through the upper one. -/
theorem Anchored.node?_base (anchored : base.Anchored overlay) (coherent : base.Coherent)
    {id : NodeId} {node : Node} (found : base.node? id = some node) :
    Layered.node? ⟨base, overlay⟩ id = some node := by
  refine Layered.node?_eq_some_iff.2 (.inr ⟨?_, found⟩)
  cases own : overlay.node? id with
  | none => rfl
  | some other =>
    obtain ⟨member, rfl⟩ := (node?_eq_some_iff anchored.coherent).1 own
    have low := id_lt_nextId coherent found
    have high := anchored.high other member
    omega

/-- Nodes of the lower store or of the upper one are there. -/
theorem Anchored.has_iff (anchored : base.Anchored overlay) (coherent : base.Coherent)
    {id : NodeId} : Layered.Has ⟨base, overlay⟩ id ↔
      (∃ node, base.node? id = some node) ∨ id ∈ overlay.nodes.map Node.id := by
  constructor
  · rintro ⟨node, found⟩
    rcases Layered.node?_eq_some_iff.1 found with own | ⟨_, lower⟩
    · obtain ⟨member, rfl⟩ := (node?_eq_some_iff anchored.coherent).1 own
      exact .inr (List.mem_map_of_mem member)
    · exact .inl ⟨node, lower⟩
  · rintro (⟨node, lower⟩ | member)
    · exact ⟨node, anchored.node?_base coherent lower⟩
    · obtain ⟨node, known, rfl⟩ := List.mem_map.1 member
      exact ⟨node, Layered.node?_eq_some_iff.2 (.inl (node?_of_mem anchored.coherent known))⟩

theorem Anchored.parentsBelow (anchored : base.Anchored overlay) (coherent : base.Coherent) :
    overlay.ParentsBelow := by
  intro node member parent contained
  obtain ⟨before, after, split⟩ := List.append_of_mem member
  obtain ⟨other, same, place⟩ := anchored.contained before node after split
  rw [contained] at same
  cases same
  refine anchored.lt_nextId coherent ((anchored.has_iff coherent).2 ?_)
  apply place.imp_right
  intro earlier
  rw [split, List.map_append]
  exact List.mem_append_left _ earlier

/-- A node under one that is there keeps a store anchored. -/
theorem Anchored.push (anchored : base.Anchored overlay) (coherent : base.Coherent)
    {node : Node} {parent : NodeId} (contained : node.parent = some parent)
    (has : Layered.Has ⟨base, overlay⟩ parent) (free : overlay.conflict? node = none)
    (high : base.nextId ≤ node.id.val) : base.Anchored (overlay.push node) := by
  have grows : Grows base.nextId overlay (overlay.push node) := .push .refl free high
  refine ⟨anchored.coherent.push free, Nat.le_trans anchored.above grows.nextId_le, ?_, ?_⟩
  · intro other member
    rcases List.mem_append.1 member with old | new
    · exact anchored.high other old
    · rw [List.mem_singleton.1 new]
      exact high
  · intro before other after split
    change overlay.nodes ++ [node] = before ++ other :: after at split
    rcases after.eq_nil_or_concat with rfl | ⟨middle, last, rfl⟩
    · obtain ⟨rfl, same⟩ := List.append_inj' split rfl
      cases same
      exact ⟨parent, contained, (anchored.has_iff coherent).1 has⟩
    · have same : overlay.nodes = before ++ other :: middle := by
        rw [List.concat_eq_append, ← List.cons_append, ← List.append_assoc] at split
        exact (List.append_inj' split rfl).1
      exact anchored.contained before other middle same

end NodeStore

/-! ## Making pseudo-nodes over a form -/

namespace Layered

/-- A pseudo-node that is looked up is there, or it becomes the last node of the upper store. -/
theorem locate_cases (layers : Layered) (identity : PseudoKey) (origin : Option NodeId) :
    (∃ id, layers.pseudo? identity = some id ∧
        layers.locate identity origin = ⟨layers, id, false⟩) ∨
      layers.base.pseudo? identity = none ∧ layers.overlay.pseudo? identity = none ∧
        layers.locate identity origin = ⟨{ layers with
          overlay := layers.overlay.push
            ⟨⟨layers.overlay.nextId⟩, some identity.scope, .pseudo ⟨identity, origin⟩⟩ },
          ⟨layers.overlay.nextId⟩, true⟩ := by
  obtain ⟨base, overlay⟩ := layers
  unfold locate pseudo?
  dsimp only
  cases lower : base.pseudo? identity with
  | some existing => exact .inl ⟨existing, rfl, rfl⟩
  | none =>
    cases upper : overlay.pseudo? identity with
    | some existing =>
      rw [NodeStore.locate_of_present upper]
      exact .inl ⟨existing, rfl, rfl⟩
    | none =>
      rw [NodeStore.locate_of_absent upper]
      exact .inr ⟨rfl, rfl, rfl⟩

/-- Looking a pseudo-node up over a form leaves the lower store and grows the upper one. -/
theorem locate_anchored {base overlay : NodeStore} (coherent : base.Coherent)
    (anchored : base.Anchored overlay) {identity : PseudoKey}
    (has : Has ⟨base, overlay⟩ identity.scope) (origin : Option NodeId) :
    ∃ later, (locate ⟨base, overlay⟩ identity origin).nodes = ⟨base, later⟩ ∧
      base.Anchored later ∧ NodeStore.Grows overlay.nextId overlay later := by
  rcases locate_cases ⟨base, overlay⟩ identity origin with ⟨_, _, same⟩ | ⟨_, absent, same⟩
  · exact ⟨overlay, by rw [same], anchored, .refl⟩
  · have free := anchored.coherent.conflict?_fresh absent origin
    exact ⟨_, by rw [same], anchored.push coherent rfl has free anchored.above,
      .push .refl free (Nat.le_refl _)⟩

end Layered

namespace Layered

/-- Layers over the same store that were anchored before and have grown since. -/
structure Outgrows (layers later : Layered) : Prop where
  base : later.base = layers.base
  anchored : layers.base.Anchored later.overlay
  grows : NodeStore.Grows layers.overlay.nextId layers.overlay later.overlay

theorem Outgrows.locate {layers later : Layered} (outgrows : layers.Outgrows later)
    (coherent : layers.base.Coherent) (anchored : layers.base.Anchored layers.overlay)
    {identity : PseudoKey} (has : layers.Has identity.scope) (origin : Option NodeId) :
    layers.Outgrows (later.locate identity origin).nodes := by
  obtain ⟨base, overlay⟩ := later
  obtain ⟨rfl, inner, grows⟩ := outgrows
  have present := has_of_grows coherent anchored.above grows has
  obtain ⟨last, same, within, grown⟩ := locate_anchored coherent inner present origin
  rw [same]
  exact ⟨rfl, within, grows.trans (grown.mono grows.nextId_le)⟩

/-- Layers in which the next identifier is free can be extended by any pseudo-node. -/
theorem findOrCreate_eq {layers : Layered} (coherent : layers.overlay.Coherent)
    (identity : PseudoKey) (origin : Option NodeId) :
    layers.findOrCreate identity origin .endless = .ok (layers.locate identity origin) := by
  rw [findOrCreate, locate, coherent.findOrCreate_eq (by nofun)]
  cases layers.base.pseudo? identity <;> rfl

end Layered

namespace Synthesis

instance : LawfulSink Layered where
  eq_locate := by
    intro layers identity origin located found
    change layers.findOrCreate identity origin .endless = _ at found
    change located = layers.locate identity origin
    rw [Layered.findOrCreate] at found
    rw [Layered.locate]
    cases lower : layers.base.pseudo? identity with
    | some existing =>
      rw [lower] at found
      exact (Except.ok.inj found).symm
    | none =>
      rw [lower] at found
      obtain ⟨upper, made, same⟩ := Except.bind_eq_ok_iff.1 found
      have settled : upper = layers.overlay.locate identity origin := LawfulSink.eq_locate made
      rw [← settled]
      exact (Except.ok.inj same).symm

section

variable {layers : Layered} (coherent : layers.base.Coherent)
  (anchored : layers.base.Anchored layers.overlay) {step : NodeId} (has : layers.Has step)
include coherent anchored has

/-- Making pseudo-nodes in a step that is there leaves the lower store and grows the upper one. -/
theorem run_outgrows (fields references repeated : List NodeId) {made : State Layered}
    (ran : run layers step fields references repeated = made) : layers.Outgrows made.nodes := by
  subst ran
  refine run_induction (P := fun (state : State Layered) => layers.Outgrows state.nodes) ?_
    ⟨rfl, anchored, .refl⟩ fields references repeated
  rintro state identity origin rfl outgrows
  exact outgrows.locate coherent anchored has origin

/-- So it does wherever it stops. -/
theorem makeBatch_outgrows (batch : List NodeId) :
    layers.Outgrows (left (makeBatch .endless layers step batch)) := by
  refine makeBatch_induction (P := layers.Outgrows) ?_ ⟨rfl, anchored, .refl⟩ batch
  rintro nodes identity origin located rfl outgrows found
  rw [LawfulSink.eq_locate found]
  exact outgrows.locate coherent anchored has origin

end

end Synthesis

/-! ## Copies of a template -/

namespace RequestScope

/-- The copy of a template node has the number of its first place in the template. -/
theorem copyOf_copyIds {entries : List TemplateNode} {first : Nat} {id : NodeId}
    (member : id ∈ Template.ids entries) :
    ∃ offset, offset < entries.length ∧ copyOf (copyIds entries first) id = ⟨first + offset⟩ := by
  have found : ∀ (entries : List TemplateNode) (start : Nat), id ∈ Template.ids entries →
      ∃ offset, offset < entries.length ∧
        ((entries.zipIdx start).map fun entry =>
          (entry.1.node.id, (⟨first + entry.2⟩ : NodeId))).lookup id =
            some ⟨first + (start + offset)⟩ := by
    intro entries
    induction entries with
    | nil =>
      intro _ member
      cases member
    | cons entry rest ih =>
      intro start member
      by_cases here : id = entry.node.id
      · exact ⟨0, by simp, by simp [List.zipIdx_cons, here]⟩
      · have later : id ∈ Template.ids rest := by
          simpa [Template.ids, here] using member
        obtain ⟨offset, low, known⟩ := ih (start + 1) later
        refine ⟨offset + 1, by simpa using low, ?_⟩
        rw [List.zipIdx_cons, List.map_cons, List.lookup_cons, beq_eq_false_iff_ne.2 here]
        simpa [Nat.add_comm 1, Nat.add_assoc] using known
  obtain ⟨offset, low, known⟩ := found entries 0 member
  refine ⟨offset, low, ?_⟩
  simp only [copyOf, copyIds, Counting.ahead_endless]
  rw [known]
  simp

/-- Nodes that are inserted in order, each under a node that is there or comes earlier, grow an
anchored store however far they come. -/
theorem insertAll_anchored {base : NodeStore} (coherent : base.Coherent) {mark : Nat}
    (above : base.nextId ≤ mark) {nodes : List Node} {store reached : NodeStore}
    {failure : Option StructureError} (anchored : base.Anchored store)
    (high : ∀ node ∈ nodes, mark ≤ node.id.val)
    (hangs : Hangs (Layered.Has ⟨base, store⟩) nodes)
    (run : insertAll nodes store = (reached, failure)) :
    base.Anchored reached ∧ NodeStore.Grows mark store reached ∧
      (failure = none → reached.nodes = store.nodes ++ nodes) := by
  induction nodes generalizing store with
  | nil =>
    cases run
    exact ⟨anchored, .refl, by simp⟩
  | cons node rest ih =>
    rw [insertAll] at run
    cases inserted : store.addNode node .endless with
    | error error =>
      rw [inserted] at run
      cases run
      exact ⟨anchored, .refl, nofun⟩
    | ok extended =>
      rw [inserted] at run
      obtain ⟨free, rfl⟩ := NodeStore.insertNode_eq_ok_iff.1 inserted
      have own := high node (List.mem_cons_self ..)
      obtain ⟨parent, contained, place⟩ := hangs [] node rest rfl
      have has : Layered.Has ⟨base, store⟩ parent := by simpa using place
      have grows : NodeStore.Grows mark store (store.push node) := .push .refl free own
      have next := anchored.push coherent contained has free (Nat.le_trans above own)
      have there : Layered.Has ⟨base, store.push node⟩ node.id :=
        ⟨node, Layered.node?_eq_some_iff.2 (.inl (NodeStore.node?_of_mem next.coherent
          (List.mem_append_right _ (List.mem_singleton_self _))))⟩
      obtain ⟨last, grown, all⟩ := ih next
        (fun other member => high other (List.mem_cons_of_mem _ member)) (by
          intro before other after split
          obtain ⟨outer, inside, known⟩ := hangs (node :: before) other after (by simp [split])
          refine ⟨outer, inside, ?_⟩
          rcases known with old | earlier
          · exact .inl (Layered.has_of_grows coherent above grows old)
          · rcases List.mem_cons.1 earlier with rfl | earlier
            · exact .inl there
            · exact .inr earlier) run
      refine ⟨last, grows.trans grown, fun done => ?_⟩
      rw [all done]
      simp [NodeStore.push]

/-- The copy of a template node stands under the iteration or under an earlier copy. -/
theorem copyNode_hangs {layers : Layered} {holder : NodeStore} {template : Template}
    (listed : Template.Listed layers holder template.collection template.nodes)
    (scheme : Renaming) (copies : List (NodeId × NodeId)) (iteration : NodeId) :
    Hangs (· = iteration) (template.nodes.map (copyNode template scheme copies iteration)) := by
  intro before node after split
  obtain ⟨first, last, entries, rfl, copied⟩ := List.map_eq_append_iff.1 split
  obtain ⟨entry, rest, rfl, rfl, rfl⟩ := List.map_eq_cons_iff.1 copied
  obtain ⟨parent, contained, place⟩ := listed.under first entry rest entries
  refine ⟨_, by rw [copyNode, contained]; rfl, ?_⟩
  dsimp only
  split
  · exact .inl rfl
  · rename_i inner
    have earlier := place.resolve_left inner
    obtain ⟨other, member, rfl⟩ := List.mem_map.1 earlier
    exact .inr (List.mem_map.2 ⟨_, List.mem_map_of_mem member, rfl⟩)

end RequestScope

/-! ## An attempt to make an iteration -/

/-- One overlay is another with nodes and edges behind it. -/
structure Overlay.Extends (before after : Overlay) : Prop where
  nodes : NodeStore.Grows before.nodes.nextId before.nodes after.nodes
  edges : ∃ new, after.graph = { before.graph with edges := before.graph.edges ++ new }

namespace Overlay

theorem Extends.refl (overlay : Overlay) : overlay.Extends overlay := ⟨.refl, [], by simp⟩

theorem Extends.trans {first middle last : Overlay} (one : first.Extends middle)
    (other : middle.Extends last) : first.Extends last := by
  obtain ⟨earlier, edges⟩ := one.edges
  obtain ⟨later, more⟩ := other.edges
  refine ⟨one.nodes.trans (other.nodes.mono one.nodes.nextId_le), earlier ++ later, ?_⟩
  rw [more, edges]
  simp

/-- Cutting an overlay back undoes what was put behind it. -/
theorem Extends.rollBack {base : NodeStore} (coherent : base.Coherent) {before after : Overlay}
    (anchored : base.Anchored before.nodes) (grown : before.Extends after) :
    RequestScope.rollBack before after = before := by
  obtain ⟨new, edges⟩ := grown.edges
  have nodes := grown.nodes.truncate anchored.coherent (anchored.parentsBelow coherent)
  rw [RequestScope.rollBack, nodes, edges, DependencyGraph.truncate_append]

end Overlay

namespace RequestScope

variable {wired : WiredForm} {overlay : Overlay}

/-- Wiring only appends edges, also if it fails. -/
theorem exists_wireNodes {σ : Type} [NodeSource σ] (nodes : σ) (scopes : ScopeTree)
    (config : WiringConfig) (batch : List NodeId) (graph : DependencyGraph) :
    ∃ new, (Pass.wireNodes nodes scopes config batch graph).graph =
      { graph with edges := graph.edges ++ new } := by
  simp only [Pass.wireNodes]
  split
  · exact ⟨[], by simp⟩
  · rename_i groups _
    obtain ⟨new, applied⟩ :=
      Draft.exists_applyTo (groups.flatMap (Pass.groupDraft nodes scopes config)) graph
    exact ⟨new, by rw [PassResult.graph_ofDraft, applied]⟩

theorem connect_extends (overlay : Overlay) (coherent : wired.form.nodes.Coherent)
    (anchored : wired.form.nodes.Anchored overlay.nodes) {template : Template}
    (has : (layersOver wired overlay).Has template.step) (scheme : Renaming) (index : Nat)
    (iteration : NodeId) (copies : List NodeId) :
    overlay.Extends (connect wired template scheme index iteration copies overlay).overlay ∧
      wired.form.nodes.Anchored
        (connect wired template scheme index iteration copies overlay).overlay.nodes := by
  have outgrows := Synthesis.makeBatch_outgrows coherent anchored has (iteration :: copies)
  unfold connect
  dsimp only
  split
  · rename_i stopped ran
    rw [ran] at outgrows
    exact ⟨⟨outgrows.grows, [], by simp [Attempt.failed]⟩, outgrows.anchored⟩
  · rename_i made ran
    rw [ran] at outgrows
    split
    · exact ⟨⟨outgrows.grows, exists_wireNodes ..⟩, outgrows.anchored⟩
    · exact ⟨⟨outgrows.grows, exists_wireNodes ..⟩, outgrows.anchored⟩

/-- The iteration under which a template is copied. -/
def iterationNode (template : Template) (index : Nat) (store : NodeStore) : Node :=
  ⟨⟨store.nextId⟩, some template.collection, .iteration template.collection index⟩

/-- The copies of a template under the iteration that is inserted next. -/
def copiesOf (template : Template) (scheme : Renaming) (index : Nat) (store : NodeStore) :
    List Node :=
  template.nodes.map (copyNode template scheme
    (copyIds template.nodes (store.push (iterationNode template index store)).nextId)
    ⟨store.nextId⟩)

/-- The identifiers of the copies start above that of the iteration. -/
theorem copies_high {template : Template} {scheme : Renaming} {index : Nat} {store : NodeStore}
    {node : Node} (member : node ∈ copiesOf template scheme index store) :
    store.nextId < node.id.val := by
  obtain ⟨entry, known, rfl⟩ := List.mem_map.1 member
  obtain ⟨offset, _, number⟩ := copyOf_copyIds (List.mem_map_of_mem known)
  rw [copyNode, number]
  change store.nextId < max store.nextId (store.nextId + 1) + offset
  omega

/-- An iteration and the copies under it, however many of them are inserted, keep a store
anchored. -/
theorem copies_anchored {base store : NodeStore} (coherent : base.Coherent)
    (anchored : base.Anchored store) {template : Template} {layers : Layered}
    {holder : NodeStore} (collection : Layered.Has ⟨base, store⟩ template.collection)
    (listed : Template.Listed layers holder template.collection template.nodes)
    (scheme : Renaming) (index : Nat)
    (free : store.conflict? (iterationNode template index store) = none) {reached : NodeStore}
    {failure : Option StructureError}
    (run : insertAll (copiesOf template scheme index store)
      (store.push (iterationNode template index store)) = (reached, failure)) :
    base.Anchored reached ∧ NodeStore.Grows store.nextId store reached ∧
      (failure = none → reached.nodes = store.nodes ++
        iterationNode template index store :: copiesOf template scheme index store) := by
  have begun : base.Anchored (store.push (iterationNode template index store)) :=
    anchored.push coherent rfl collection free anchored.above
  have grows : NodeStore.Grows store.nextId store
      (store.push (iterationNode template index store)) := .push .refl free (Nat.le_refl _)
  have there : Layered.Has ⟨base, store.push (iterationNode template index store)⟩
      ⟨store.nextId⟩ :=
    (begun.has_iff coherent).2 (.inr (List.mem_map.2 ⟨_, List.mem_append_right _
      (List.mem_singleton_self _), rfl⟩))
  have hangs : Hangs (Layered.Has ⟨base, store.push (iterationNode template index store)⟩)
      (copiesOf template scheme index store) := by
    intro before node after split
    obtain ⟨parent, contained, place⟩ := copyNode_hangs listed _ _ _ before node after split
    refine ⟨parent, contained, place.imp_left ?_⟩
    rintro rfl
    exact there
  obtain ⟨inner, grown, all⟩ := insertAll_anchored coherent anchored.above begun
    (fun node member => Nat.le_of_lt (copies_high member)) hangs run
  refine ⟨inner, grows.trans grown, fun done => ?_⟩
  rw [all done]
  simp [NodeStore.push]

/-- Inserts the copies behind their iteration and connects them. -/
def insertCopies (wired : WiredForm) (template : Template) (scheme : Renaming) (index : Nat)
    (iteration : NodeId) (overlay : Overlay) (nodes : List Node) (store : NodeStore)
    (counting : Counting) : Attempt :=
  match insertAll nodes store counting with
  | (reached, some error) => .failed { overlay with nodes := reached } (.structural error)
  | (complete, none) =>
    connect wired template scheme index iteration (nodes.map Node.id)
      { overlay with nodes := complete } counting

/-- What becomes of a template if the iteration can be inserted, however identifiers are counted. -/
theorem copyTemplate_eq {template : Template} {index : Nat}
    (free : overlay.nodes.conflict? (iterationNode template index overlay.nodes) = none)
    (scheme : Renaming) (counting : Counting) :
    copyTemplate wired template scheme index overlay counting =
      let store := overlay.nodes.take (iterationNode template index overlay.nodes) counting
      insertCopies wired template scheme index ⟨overlay.nodes.nextId⟩ overlay
        (template.nodes.map (copyNode template scheme
          (copyIds template.nodes store.nextId counting) ⟨overlay.nodes.nextId⟩))
        store counting := by
  have added : overlay.nodes.add (some template.collection) (.iteration template.collection index)
      counting = .ok (overlay.nodes.take (iterationNode template index overlay.nodes) counting,
        ⟨overlay.nodes.nextId⟩) :=
    NodeStore.add_eq_ok_iff.2 ⟨free, rfl, rfl⟩
  rw [copyTemplate, added]
  rfl

/-- If the iteration can be inserted, what becomes of the template is decided by its copies. -/
theorem copyTemplate_of_free {template : Template} {index : Nat}
    (free : overlay.nodes.conflict? (iterationNode template index overlay.nodes) = none)
    (scheme : Renaming) :
    copyTemplate wired template scheme index overlay =
      match insertAll (copiesOf template scheme index overlay.nodes)
        (overlay.nodes.push (iterationNode template index overlay.nodes)) with
      | (reached, some error) => .failed { overlay with nodes := reached } (.structural error)
      | (complete, none) =>
        connect wired template scheme index ⟨overlay.nodes.nextId⟩
          ((copiesOf template scheme index overlay.nodes).map Node.id)
          { overlay with nodes := complete } :=
  copyTemplate_eq free scheme .endless

theorem copyTemplate_of_conflict {template : Template} {index : Nat} {error : StructureError}
    (conflict : overlay.nodes.conflict? (iterationNode template index overlay.nodes) = some error)
    (scheme : Renaming) (counting : Counting) :
    copyTemplate wired template scheme index overlay counting =
      .failed overlay (.structural error) := by
  have inserted : overlay.nodes.add (some template.collection)
      (.iteration template.collection index) counting = .error error := by
    unfold NodeStore.add NodeStore.addNode
    rw [iterationNode] at conflict
    dsimp only
    rw [conflict]
    rfl
  rw [copyTemplate, inserted]

/-- Where the copying and connecting of a template stops, the overlay has only grown. -/
theorem copyTemplate_extends (coherent : wired.form.nodes.Coherent)
    (anchored : wired.form.nodes.Anchored overlay.nodes) {template : Template}
    {holder : NodeStore} (collection : (layersOver wired overlay).Has template.collection)
    (step : (layersOver wired overlay).Has template.step)
    (listed : Template.Listed (layersOver wired overlay) holder template.collection
      template.nodes) (scheme : Renaming) (index : Nat) :
    overlay.Extends (copyTemplate wired template scheme index overlay).overlay ∧
      wired.form.nodes.Anchored
        (copyTemplate wired template scheme index overlay).overlay.nodes := by
  cases free : overlay.nodes.conflict? (iterationNode template index overlay.nodes) with
  | some error =>
    rw [copyTemplate_of_conflict free]
    exact ⟨.refl overlay, anchored⟩
  | none =>
    rw [copyTemplate_of_free free]
    cases run : insertAll (copiesOf template scheme index overlay.nodes)
      (overlay.nodes.push (iterationNode template index overlay.nodes)) with
    | mk reached failure =>
      obtain ⟨inner, grown, -⟩ :=
        copies_anchored coherent anchored collection listed scheme index free run
      have extended : overlay.Extends { overlay with nodes := reached } :=
        ⟨grown, [], by simp⟩
      cases failure with
      | some error => exact ⟨extended, inner⟩
      | none =>
        have present := Layered.has_of_grows coherent anchored.above grown step
        obtain ⟨connected, last⟩ := connect_extends { overlay with nodes := reached } coherent
          inner present scheme index ⟨overlay.nodes.nextId⟩
          ((copiesOf template scheme index overlay.nodes).map Node.id)
        exact ⟨extended.trans connected, last⟩

/-- The attempt to make an iteration only grows the overlay. -/
theorem build_extends (coherent : wired.form.nodes.Coherent)
    (anchored : wired.form.nodes.Anchored overlay.nodes) (collection : NodeId) (index : Nat) :
    overlay.Extends (build wired overlay collection index).overlay ∧
      wired.form.nodes.Anchored (build wired overlay collection index).overlay.nodes := by
  unfold build
  dsimp only
  split
  · exact ⟨.refl overlay, anchored⟩
  · rename_i template read
    obtain ⟨node, definition, present, isCollection, _, owned, _, rfl, _, listed⟩ :=
      Template.read_spec coherent anchored.coherent read
    obtain ⟨step, known, -⟩ :=
      NodeSource.node?_of_owningStep? present (by rw [isCollection]; rfl) owned
    split
    · exact ⟨.refl overlay, anchored⟩
    · exact copyTemplate_extends coherent anchored ⟨node, present⟩
        ⟨step, known⟩ listed _ index

end RequestScope

end FormFlow
