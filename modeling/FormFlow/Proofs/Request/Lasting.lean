import FormFlow.Proofs.Request.Reachable

/-!
# Requests in which identifiers last

The iteration, its copies and the pseudo-nodes for them are counted on from the identifiers of a
request. If no identifier is counted past the last one in a call (`RequestScope.Lasts`), the call
comes to what it comes to without an end of identifiers (`RequestScope.materialize_wrapping`). If
this is so in all calls, the request is in a state that it is in without an end as well
(`RequestScope.Sustained.reachable`).
-/

set_option autoImplicit false

namespace FormFlow

namespace Synthesis

/-- Over a form, too, the way of counting makes no difference if identifiers last. -/
theorem countsAlike_layers (counting other : Counting) :
    CountsAlike (fun layers : Layered => layers.overlay.Lasting) counting other where
  found {layers identity origin located} found lasting := by
    change layers.findOrCreate identity origin counting = _ at found
    change layers.findOrCreate identity origin other = _ ∧ _
    rw [Layered.findOrCreate] at found ⊢
    cases lower : layers.base.pseudo? identity with
    | some existing =>
      rw [lower] at found
      cases found
      exact ⟨rfl, lasting⟩
    | none =>
      rw [lower] at found
      obtain ⟨upper, made, same⟩ := Except.bind_eq_ok_iff.1 found
      cases same
      obtain ⟨again, before⟩ := (countsAlike_store counting other).found made lasting
      exact ⟨Except.bind_eq_ok_iff.2 ⟨upper, again, rfl⟩, before⟩
  failed {layers identity origin error} failed := by
    change layers.findOrCreate identity origin counting = _ at failed
    change layers.findOrCreate identity origin other = _
    rw [Layered.findOrCreate] at failed ⊢
    cases lower : layers.base.pseudo? identity with
    | some existing =>
      rw [lower] at failed
      cases failed
    | none =>
      rw [lower] at failed
      dsimp only at failed ⊢
      cases upper : layers.overlay.findOrCreate identity origin counting with
      | ok located =>
        rw [upper] at failed
        cases failed
      | error stopped =>
        rw [upper] at failed
        cases failed
        have again : layers.overlay.findOrCreate identity origin other = _ :=
          (countsAlike_store counting other).failed upper
        rw [again]
        rfl

end Synthesis

namespace RequestScope

/-! ## An attempt -/

section

variable {wired : WiredForm} {overlay : Overlay} {template : Template} {scheme : Renaming}
  {index : Nat} {counting : Counting} (other : Counting)

theorem insertAll_recounts {nodes : List Node} {store reached : NodeStore}
    {failure : Option StructureError}
    (inserted : insertAll nodes store counting = (reached, failure)) (lasting : reached.Lasting) :
    insertAll nodes store other = (reached, failure) ∧ store.Lasting := by
  induction nodes generalizing store with
  | nil =>
    cases inserted
    exact ⟨rfl, lasting⟩
  | cons node rest ih =>
    rw [insertAll, NodeStore.addNode] at inserted ⊢
    cases free : store.conflict? node with
    | some error =>
      rw [free] at inserted
      cases inserted
      exact ⟨rfl, lasting⟩
    | none =>
      rw [free] at inserted
      obtain ⟨again, before⟩ := ih inserted
      obtain ⟨next, earlier⟩ := before.of_take
      rw [NodeStore.take_eq_push _ next] at again
      dsimp only
      rw [NodeStore.take_eq_push _ next]
      exact ⟨again, earlier⟩

/-- Copies whose identifiers are no further than the last one are numbered without wrapping. -/
theorem copyIds_eq (counting : Counting) {entries : List TemplateNode} {first : Nat}
    (low : first + entries.length ≤ identBound) :
    copyIds entries first counting = copyIds entries first := by
  refine List.map_congr_left fun entry member => ?_
  have offset := List.snd_lt_of_mem_zipIdx member
  rw [counting.ahead_eq (by omega), Counting.ahead_endless]

theorem connect_recounts {iteration : NodeId} {copies : List NodeId}
    (lasting : (connect wired template scheme index iteration copies overlay
      counting).overlay.nodes.Lasting) :
    connect wired template scheme index iteration copies overlay other =
        connect wired template scheme index iteration copies overlay counting ∧
      overlay.nodes.Lasting := by
  have recounts := Synthesis.makeBatch_recounts (Synthesis.countsAlike_layers counting other)
    (layersOver wired overlay) template.step (iteration :: copies)
  have calm : (Synthesis.left (Synthesis.makeBatch counting (layersOver wired overlay)
      template.step (iteration :: copies))).overlay.Lasting := by
    unfold connect at lasting
    dsimp only at lasting
    split at lasting
    · rename_i stopped ran
      rw [ran]
      exact lasting
    · rename_i made ran
      rw [ran]
      split at lasting <;> exact lasting
  obtain ⟨same, before⟩ := recounts calm
  unfold connect
  dsimp only
  rw [same]
  exact ⟨rfl, before⟩

theorem insertCopies_recounts {iteration : NodeId} {nodes : List Node} {store : NodeStore}
    (lasting : (insertCopies wired template scheme index iteration overlay nodes store
      counting).overlay.nodes.Lasting) :
    insertCopies wired template scheme index iteration overlay nodes store other =
        insertCopies wired template scheme index iteration overlay nodes store counting ∧
      store.Lasting := by
  rw [insertCopies] at lasting ⊢
  rw [insertCopies]
  cases inserted : insertAll nodes store counting with
  | mk reached failure =>
    rw [inserted] at lasting
    cases failure with
    | some error =>
      obtain ⟨again, before⟩ := insertAll_recounts other inserted lasting
      rw [again]
      exact ⟨rfl, before⟩
    | none =>
      obtain ⟨connected, complete⟩ := connect_recounts other lasting
      obtain ⟨again, before⟩ := insertAll_recounts other inserted complete
      rw [again]
      exact ⟨connected, before⟩

theorem copyTemplate_recounts
    (low : overlay.nodes.nextId + template.nodes.length < identBound)
    (lasting : (copyTemplate wired template scheme index overlay counting).overlay.nodes.Lasting) :
    copyTemplate wired template scheme index overlay other =
      copyTemplate wired template scheme index overlay counting := by
  cases free : overlay.nodes.conflict? (iterationNode template index overlay.nodes) with
  | some error =>
    rw [copyTemplate_of_conflict free, copyTemplate_of_conflict free]
  | none =>
    rw [copyTemplate_eq free] at lasting ⊢
    rw [copyTemplate_eq free]
    obtain ⟨same, before⟩ := insertCopies_recounts other lasting
    obtain ⟨next, -⟩ := before.of_take
    dsimp only at same ⊢
    rw [← same, NodeStore.take_eq_push _ next, NodeStore.take_eq_push _ next]
    have room : (overlay.nodes.push (iterationNode template index overlay.nodes)).nextId +
        template.nodes.length ≤ identBound := by
      change max overlay.nodes.nextId (overlay.nodes.nextId + 1) + _ ≤ _
      omega
    rw [copyIds_eq other room, copyIds_eq counting room]

/-- How many copies an iteration takes. -/
def copyCount (wired : WiredForm) (overlay : Overlay) (collection : NodeId) (index : Nat) : Nat :=
  match Template.read (layersOver wired overlay) wired.scopes collection with
  | .error _ => 0
  | .ok template =>
    match collision? (layersOver wired overlay) template.step (.ofTemplate template index) with
    | some _ => 0
    | none => template.nodes.length

theorem build_recounts {collection : NodeId}
    (low : overlay.nodes.nextId + copyCount wired overlay collection index < identBound)
    (lasting : (build wired overlay collection index counting).overlay.nodes.Lasting) :
    build wired overlay collection index other = build wired overlay collection index counting := by
  unfold build at lasting ⊢
  unfold copyCount at low
  dsimp only at lasting ⊢
  cases read : Template.read (layersOver wired overlay) wired.scopes collection with
  | error error => rfl
  | ok template =>
    rw [read] at lasting low
    dsimp only at lasting low ⊢
    cases collides : collision? (layersOver wired overlay) template.step
      (.ofTemplate template index) with
    | some code => rfl
    | none =>
      rw [collides] at lasting low
      exact copyTemplate_recounts other low lasting

end

/-! ## A call, and the states of a request -/

/-- In a call no identifier is counted past the last one: neither for the copies nor behind a node
that is inserted. -/
structure Lasts (request : RequestScope) (collection : NodeId) (index : Nat) : Prop where
  copies : request.overlay.nodes.nextId +
    copyCount request.wired request.overlay collection index < identBound
  nodes : (build request.wired request.overlay collection index
    .wrapping).overlay.nodes.Lasting

/-- The states of a request after calls in which identifiers lasted. An iteration that is there
already takes none. -/
inductive Sustained (wired : WiredForm) : RequestScope → Prop where
  | start : Sustained wired (start wired)
  | materialize {request : RequestScope} {collection : NodeId} {index : Nat} :
    Sustained wired request →
    (request.iteration? collection index = none → request.Lasts collection index) →
    Sustained wired (request.materialize collection index .wrapping).1
  | answer {request : RequestScope} (answers : AnswerHistory) :
    Sustained wired request → Sustained wired { request with answers }

/-- If identifiers last in a call, it comes to what it comes to without an end of them. -/
theorem materialize_wrapping {request : RequestScope} {collection : NodeId} {index : Nat}
    (lasts : request.iteration? collection index = none → request.Lasts collection index) :
    request.materialize collection index .wrapping = request.materialize collection index := by
  rw [materialize, materialize]
  cases made : request.iteration? collection index with
  | some found => rfl
  | none =>
    obtain ⟨copies, nodes⟩ := lasts made
    rw [build_recounts .endless copies nodes]

/-- The states of a request in which identifiers lasted are those without an end of them. -/
theorem Sustained.reachable {wired : WiredForm} {request : RequestScope}
    (sustained : Sustained wired request) : Reachable wired request := by
  induction sustained with
  | start => exact .start
  | materialize _ lasts ih =>
    rw [materialize_wrapping lasts]
    exact .materialize _ _ ih
  | answer answers _ ih => exact .answer answers ih

end RequestScope

end FormFlow
