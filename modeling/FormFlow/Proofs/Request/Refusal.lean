import FormFlow.Proofs.Request.Rollback
import FormFlow.Proofs.Request.Vetting

/-!
# When a request refuses an iteration

Once a template is read and none of its new codes is taken, nothing goes wrong any more: the copies
can be inserted (`RequestScope.exists_assembled`), and everything that is wired with them can be
(`RequestScope.Assembled.wirable`). A request therefore refuses an iteration for the five reasons
of `RequestScope.Refuses` and for no other (`RequestScope.materialize_error_iff`). So it is with
identifiers that have an end, as long as they last (`RequestScope.sustained_error_iff`), but not
at the last one (`RequestScope.Exhausted.unreasoned`).
-/

set_option autoImplicit false

namespace FormFlow

open NodeSource

/-! ## Taken codes -/

namespace Renaming

/-- A code that comes again has its new code already, so all new codes are searched. -/
theorem find?_fields (opening : String) (codes : List String) (test : String → Bool) :
    ((codes.foldl (addField opening) []).map Prod.snd).find? test =
      (codes.map (join opening)).find? test := by
  have along : ∀ (codes : List String) (fields : List (String × String)),
      (∀ pair ∈ fields, pair.2 = join opening pair.1) →
      ((codes.foldl (addField opening) fields).map Prod.snd).find? test =
        (fields.map Prod.snd ++ codes.map (join opening)).find? test := by
    intro codes
    induction codes with
    | nil =>
      intro fields _
      simp
    | cons code rest ih =>
      intro fields renamed
      rw [List.foldl_cons, List.map_cons]
      cases known : fields.lookup code with
      | some new =>
        have same : addField opening fields code = fields := by simp [addField, known]
        have member : join opening code ∈ fields.map Prod.snd := by
          obtain ⟨before, after, split, _⟩ := List.lookup_eq_some_iff.1 known
          have pair : (code, new) ∈ fields := by simp [split]
          rw [← renamed _ pair]
          exact List.mem_map_of_mem pair
        rw [same, ih fields renamed, List.find?_append, List.find?_append]
        cases earlier : (fields.map Prod.snd).find? test with
        | some found => rfl
        | none =>
          have fails := List.find?_eq_none.1 earlier _ member
          rw [List.find?_cons_of_neg fails]
      | none =>
        have same : addField opening fields code = fields ++ [(code, join opening code)] := by
          simp [addField, known]
        rw [same, ih]
        · simp
        · intro pair member
          rcases List.mem_append.1 member with old | new
          · exact renamed pair old
          · cases List.mem_singleton.1 new
            rfl
  simpa using along codes [] (by simp)

end Renaming

namespace RequestScope

section

variable {wired : WiredForm} {overlay : Overlay} (coherent : wired.form.nodes.Coherent)
  (anchored : wired.form.nodes.Anchored overlay.nodes)
  (placed : WellPlaced (layersOver wired overlay))
include coherent anchored placed

/-! ## Putting an iteration together -/

/-- The iteration, the copies and the pseudo-nodes are made, and the attempt succeeds if their
wiring reports. -/
theorem exists_assembled {template : Template}
    (iterable : Iterable (layersOver wired overlay) template)
    (distinct : (Template.ids template.nodes).Nodup) (scheme : Renaming) (index : Nat) :
    ∃ complete state,
      Assembled wired overlay (copyTemplate wired template scheme index overlay).overlay template
        scheme index complete state ∧
      ((∃ report, (passOf wired overlay (batchOf template scheme index overlay.nodes)
          state).report = .ok report) →
        ∃ made, (copyTemplate wired template scheme index overlay).result = .ok made) := by
  obtain ⟨top, definition, present, isCollection, _⟩ := iterable.collection
  have content := iterable.listed.isContent placed
    (fun _ _ found => Layered.node?_of_holder coherent anchored found) present
    (by rw [isCollection]; rfl)
  have free : overlay.nodes.conflict? (iterationNode template index overlay.nodes) = none :=
    NodeStore.conflict?_eq_none_iff.2 ⟨NodeStore.contains_nextId anchored.coherent, nofun⟩
  have fresh : ∀ node ∈ copiesOf template scheme index overlay.nodes,
      (overlay.nodes.push (iterationNode template index overlay.nodes)).contains node.id =
        false := by
    intro node member
    have high := copies_high member
    rw [NodeStore.contains, NodeStore.node?_push (NodeStore.conflict?_eq_none_iff.1 free).1,
      if_neg, NodeStore.node?_eq_none_of_le anchored.coherent (Nat.le_of_lt high)]
    · rfl
    · intro same
      rw [← same] at high
      exact Nat.lt_irrefl _ high
  have plain : ∀ node ∈ copiesOf template scheme index overlay.nodes,
      node.kind.pseudo? = none := by
    intro node member
    obtain ⟨entry, known, rfl⟩ := List.mem_map.1 member
    exact ((content entry known).copy scheme _ _).pseudo
  obtain ⟨complete, run⟩ :=
    insertAll_succeeds fresh (nodup_copies distinct scheme index overlay.nodes) plain
  obtain ⟨inner, grown, all⟩ := copies_anchored coherent anchored ⟨top, present⟩ iterable.listed
    scheme index free run
  have found : ∀ node ∈ newNodes template scheme index overlay.nodes,
      node? (layersOver wired { overlay with nodes := complete }) node.id = some node := by
    intro node member
    refine Layered.node?_eq_some_iff.2 (.inl (NodeStore.node?_of_mem inner.coherent ?_))
    rw [all rfl]
    exact List.mem_append_right _ member
  obtain ⟨step, isStep, -⟩ :=
    node?_of_owningStep? present (by rw [isCollection]; rfl) iterable.step
  have has : (layersOver wired { overlay with nodes := complete }).Has template.step :=
    Layered.has_of_grows coherent anchored.above grown ⟨step, isStep⟩
  obtain ⟨state, ran⟩ := Synthesis.exists_makeBatch (Layered.locates coherent template.step)
    ⟨rfl, inner, has⟩ found
  have done : copyTemplate wired template scheme index overlay =
      connect wired template scheme index (iterationNode template index overlay.nodes).id
        ((copiesOf template scheme index overlay.nodes).map Node.id)
        { overlay with nodes := complete } := by
    rw [copyTemplate_of_free free, run]
    rfl
  rw [done, connect_eq ran]
  refine ⟨complete, state, ?_, ?_⟩
  · exact
      { iterable := iterable
        nodes := all rfl
        anchored := inner
        grows := grown
        ran := Synthesis.makeBatch_endless ran
        store := rfl
        graph := rfl }
  · rintro ⟨report, reported⟩
    change (passOf wired { overlay with nodes := complete } (⟨overlay.nodes.nextId⟩ ::
      (copiesOf template scheme index overlay.nodes).map Node.id) state).report = _ at reported
    exact ⟨_, Except.map_eq_ok_iff.2 ⟨report, Except.mapError_eq_ok_iff.2 reported, rfl⟩⟩

/-! ## Wiring an iteration -/

variable (lower : Upright wired.form.nodes)
include lower

/-- Everything that is wired with an iteration can be wired: references are admitted, and
pseudo-nodes were made for nodes that are there. -/
theorem Assembled.wirable {after : Overlay} {template : Template} {scheme : Renaming}
    {index : Nat} {complete : NodeStore} {state : Synthesis.State Layered}
    (made : Assembled wired overlay after template scheme index complete state)
    (isStep : wired.scopes.isStep template.step = true)
    (admits : AdmitsTemplates wired.config (layersOver wired overlay)) :
    ∀ id ∈ batchOf template scheme index overlay.nodes ++ state.created,
      Pass.Wirable (layersOver wired after) wired.scopes wired.config id := by
  intro id member _
  have whole := made.wellPlaced coherent anchored placed lower
  have last := made.wellPlaced_after coherent anchored placed lower
  obtain ⟨shown, _⟩ := made.supplied coherent anchored
  rcases List.mem_append.1 member with copied | created
  · obtain ⟨node, new, rfl⟩ := List.mem_map.1 copied
    have present := made.node?_of_new new
    have found := shown.node _ _ present
    have owned : owningStep? (layersOver wired after) node.id = some template.step := by
      rw [shown.owningStep?_eq whole.upright present]
      exact made.owned coherent anchored placed lower new
    have inStep : Pass.Placed (layersOver wired after) wired.scopes template.step node.id :=
      ⟨⟨node, found⟩, owned, isStep⟩
    refine ⟨⟨_, inStep⟩, ?_⟩
    rw [Pass.solo_of_placed inStep]
    cases isReference : node.kind.reference? with
    | none =>
      rw [Pass.single_other found (made.pseudo?_of_new coherent anchored placed new) isReference]
      rfl
    | some expression =>
      have isReference := NodeKind.reference?_eq_some_iff.1 isReference
      exact Pass.failure?_reference found isReference
        (made.copy_admits coherent anchored placed lower admits new isReference)
  · obtain ⟨more, added⟩ := made.exists_added
    rw [added.created] at created
    obtain ⟨node, new, rfl⟩ := List.mem_map.1 created
    obtain ⟨⟨definition, isPseudo⟩, _⟩ := added.each node new
    obtain ⟨scope, sourced⟩ := added.sourced node new definition isPseudo
    have stored : node ∈ after.nodes.nodes := by
      rw [made.store, added.nodes]
      exact List.mem_append_right _ new
    have found : node? (layersOver wired after) node.id = some node :=
      Layered.node?_eq_some_iff.2 (.inl
        (NodeStore.node?_of_mem (made.anchored_after coherent anchored).coherent stored))
    have owned : owningStep? (layersOver wired after) node.id = some template.step := by
      rw [owningStep?, found, Option.bind_some, isPseudo, ← scope]
      rfl
    have inStep : Pass.Placed (layersOver wired after) wired.scopes template.step node.id :=
      ⟨⟨node, found⟩, owned, isStep⟩
    refine ⟨⟨_, inStep⟩, ?_⟩
    rw [Pass.solo_of_placed inStep]
    refine Pass.failure?_pseudo found isPseudo ⟨fun kind => ?_, fun kind => ?_⟩ ?_
    · obtain ⟨origin, outer, field, same, there, isField⟩ := sourced.answer kind
      exact ⟨origin, outer, field, same,
        shown.node _ _ (there (by rw [isField]; rfl)), isField⟩
    · obtain ⟨origin, outer, same, there, keyed⟩ := sourced.item kind
      have plain := (NodeKind.of_isRepeated (Item.isRepeated_of_keyOfKind? keyed)).2
      exact ⟨origin, outer, same, shown.node _ _ (there plain), keyed⟩
    · intro other outer collection number there isIteration
      obtain ⟨_, top, known, isCollection, _⟩ :=
        (last.stands other outer there).iteration collection number isIteration
      exact ⟨top, known, isCollection⟩

/-- A template that was read becomes an iteration, unless one of its new codes is taken. -/
theorem copyTemplate_succeeds {template : Template}
    (iterable : Iterable (layersOver wired overlay) template)
    (distinct : (Template.ids template.nodes).Nodup)
    (isStep : wired.scopes.isStep template.step = true)
    (admits : AdmitsTemplates wired.config (layersOver wired overlay)) (scheme : Renaming)
    (index : Nat) :
    ∃ made, (copyTemplate wired template scheme index overlay).result = .ok made := by
  obtain ⟨complete, state, assembled, succeeds⟩ :=
    exists_assembled coherent anchored placed iterable distinct scheme index
  refine succeeds (Pass.wireNodes_reports overlay.graph ?_)
  rw [← assembled.layers_eq coherent anchored]
  exact assembled.wirable coherent anchored placed lower isStep admits

end

/-! ## The five reasons -/

/-- Why a request refuses an iteration of a collection with an index: the collection is in neither
store, it is no collection, it belongs to an open template, no step is above it, or a new code is
that of a local answer. Of the codes that are taken the first one is named, in the pre-order of
the collection's own fields. -/
inductive Refuses (request : RequestScope) (collection : NodeId) (index : Nat) :
    RequestError → Prop where
  | absent (lower : request.wired.form.nodes.node? collection = none)
      (upper : request.overlay.nodes.node? collection = none) :
      Refuses request collection index (.structural (.nodeNotFound collection))
  | notACollection {node : Node} (found : request.layers.node? collection = some node)
      (other : node.kind.isCollection = false) :
      Refuses request collection index (.notACollection collection)
  | openTemplate {node : Node} (found : request.layers.node? collection = some node)
      (isCollection : node.kind.isCollection = true)
      (opened : inOpenTemplate request.layers node = true) :
      Refuses request collection index (.openTemplate collection)
  | unknownStep {node : Node} (found : request.layers.node? collection = some node)
      (isCollection : node.kind.isCollection = true)
      (closed : inOpenTemplate request.layers node = false)
      (outside : enclosingAbove? request.layers node NodeKind.isStep = none) :
      Refuses request collection index (.wiring (.unknownStep collection))
  | codeCollision {node step : Node} {definition : Collection} {code : String}
      (found : request.layers.node? collection = some node)
      (isCollection : node.kind = .collection definition)
      (closed : inOpenTemplate request.layers node = false)
      (within : enclosingAbove? request.layers node NodeKind.isStep = some step)
      (taken : ((request.layers.ownCodes collection).map fun own =>
          definition.code ++ "_" ++ toString index ++ "_" ++ own).find?
        (fun new => (request.layers.pseudo? ⟨.answerLocal, step.id, new⟩).isSome) = some code) :
      Refuses request collection index (.codeCollision code step.id)

/-- What would be wrong with a copy, with a pseudo-node made for it, or with its wiring. -/
inductive CopyFault : RequestError → Prop where
  | malformedReference (id : NodeId) (path : List String) :
      CopyFault (.wiring (.malformedReference id path))
  | selfOutsideField (id : NodeId) : CopyFault (.wiring (.selfOutsideField id))
  | duplicateNode (id : NodeId) : CopyFault (.structural (.duplicateNode id))
  | duplicatePseudo (identity : PseudoKey) (existing : NodeId) :
      CopyFault (.structural (.duplicatePseudo identity existing))
  | missingOrigin (id : NodeId) : CopyFault (.wiring (.missingOrigin id))

theorem Refuses.no_copyFault {request : RequestScope} {collection : NodeId} {index : Nat}
    {error : RequestError} (refuses : request.Refuses collection index error) :
    ¬CopyFault error := by
  cases refuses <;> nofun

/-- The reasons are seen in the nodes. -/
theorem Refuses.congr {request other : RequestScope} (wired : other.wired = request.wired)
    (overlay : other.overlay = request.overlay) {collection : NodeId} {index : Nat}
    {error : RequestError} (refuses : request.Refuses collection index error) :
    other.Refuses collection index error := by
  obtain ⟨_, _, _, _⟩ := request
  obtain ⟨_, _, _, _⟩ := other
  obtain rfl : _ = _ := wired
  obtain rfl : _ = _ := overlay
  cases refuses with
  | absent lower upper => exact .absent lower upper
  | notACollection found other => exact .notACollection found other
  | openTemplate found isCollection opened => exact .openTemplate found isCollection opened
  | unknownStep found isCollection closed outside =>
    exact .unknownStep found isCollection closed outside
  | codeCollision found isCollection closed within taken =>
    exact .codeCollision found isCollection closed within taken

theorem materialize_of_fresh {request : RequestScope} {collection : NodeId} {index : Nat}
    (fresh : request.iteration? collection index = none) :
    (request.materialize collection index).2 =
      (build request.wired request.overlay collection index).result := by
  rw [materialize, fresh]
  dsimp only
  split
  · rename_i made succeeded
    exact succeeded.symm
  · rename_i error failed
    exact failed.symm

section

variable {form : Form} {config : WiringConfig} {wired : WiredForm}
  (registered : WiredForm.Registered form config wired) (coherent : form.nodes.Coherent)
  (plain : form.Plain) {request : RequestScope} (same : request.wired = wired)
  (settled : Settled request) (vetted : Vetted request)
include registered coherent plain same settled vetted

/-- A step of a request is a step of the form. -/
theorem isStep_of_found {id : NodeId} {node : Node} (found : node? request.layers id = some node)
    (isStep : node.kind.isStep = true) : request.wired.scopes.isStep id = true := by
  subst same
  have grounded := grounded_of_registered registered coherent plain
  rcases Layered.node?_eq_some_iff.1 found with own | ⟨_, lower⟩
  · obtain ⟨member, rfl⟩ := (NodeStore.node?_eq_some_iff settled.anchored.coherent).1 own
    have content := vetted.content node member
    rw [NodeKind.isScope, isStep, Bool.or_true] at content
    cases content
  · have noPseudo : node.kind.pseudo? = none := by
      cases kind : node.kind <;> rw [kind] at isStep <;> first | rfl | cases isStep
    obtain ⟨member, named⟩ := (NodeStore.node?_eq_some_iff coherent).1
      (registered.mem_form coherent lower noPseudo)
    exact (ScopeTree.isStep_iff_mem_steps coherent.nodup registered.scopes).2
      ((ScopeTree.mem_steps_build registered.scopes).2 ⟨node, member, isStep, named⟩)

omit vetted registered coherent plain same in
/-- The step of a collection is the one above it. -/
theorem owningStep?_collection {collection : NodeId} {node : Node}
    (found : request.layers.node? collection = some node)
    (isCollection : node.kind.isCollection = true) : owningStep? request.layers collection =
      (enclosingAbove? request.layers node NodeKind.isStep).map Node.id := by
  have present : node? request.layers collection = some node := found
  obtain ⟨scope, noPseudo⟩ :=
    NodeKind.of_isRepeated (NodeKind.isRepeated_of_isCollection isCollection)
  rw [owningStep?, present, Option.bind_some, noPseudo,
    settled.placed.upright.enclosing?_above present (Bool.or_eq_false_iff.1 scope).2]

/-- A collection that can be iterated is read. -/
theorem exists_read {collection : NodeId} {node step : Node} {definition : Collection}
    (found : request.layers.node? collection = some node)
    (isCollection : node.kind = .collection definition)
    (closed : inOpenTemplate request.layers node = false)
    (within : enclosingAbove? request.layers node NodeKind.isStep = some step) :
    ∃ template, Template.read request.layers request.wired.scopes collection = .ok template ∧
      template.step = step.id ∧ (Template.ids template.nodes).Nodup ∧
      request.wired.scopes.isStep step.id = true ∧
      ∀ index test, ((Renaming.ofTemplate template index).fields.map Prod.snd).find? test =
        ((request.layers.ownCodes collection).map fun own =>
          definition.code ++ "_" ++ toString index ++ "_" ++ own).find? test := by
  have grounded : Grounded request.wired :=
    same ▸ grounded_of_registered registered coherent plain
  obtain ⟨there, isStep⟩ := node?_of_enclosingAbove? within
  have known := isStep_of_found registered coherent plain same settled vetted there isStep
  obtain ⟨listed, traverses, codes⟩ : ∃ listed,
      Template.Traverses request.layers collection listed ∧ Renaming.fieldCodes
        ((Template.entries request.layers collection listed).filter TemplateNode.direct) =
          request.layers.ownCodes collection :=
    Template.exists_traverses grounded.coherent settled.anchored settled.placed.upright found
      (by rw [isCollection]; rfl)
  have owned : owningStep? request.layers collection = some step.id := by
    rw [owningStep?_collection settled found (by rw [isCollection]; rfl), within]
    rfl
  refine ⟨_, Template.read_eq_ok found isCollection closed owned known traverses, rfl,
    Template.nodup_ids_entries traverses.distinct, known, fun index test => ?_⟩
  rw [← codes]
  exact Renaming.find?_fields _ _ test

/-- Each of the reasons is the error that the attempt ends with. -/
theorem Refuses.build_eq {collection : NodeId} {index : Nat} {error : RequestError}
    (refuses : request.Refuses collection index error) :
    (build request.wired request.overlay collection index).result = .error error := by
  have unread : Template.read request.layers request.wired.scopes collection = .error error →
      (build request.wired request.overlay collection index).result = .error error := by
    intro failed
    change Template.read (layersOver request.wired request.overlay) _ _ = _ at failed
    rw [build]
    dsimp only
    rw [failed]
    rfl
  cases refuses with
  | absent lower upper =>
    refine unread (Template.read_of_absent _ ?_)
    change (request.overlay.nodes.node? collection).orElse _ = none
    rw [upper]
    exact lower
  | @notACollection node found other =>
    refine unread ?_
    rw [Template.read_of_found _ found]
    cases kind : node.kind <;> rw [kind] at other <;> first | rfl | cases other
  | openTemplate found isCollection opened =>
    obtain ⟨definition, shape⟩ := NodeKind.isCollection_iff.1 isCollection
    refine unread ?_
    rw [Template.read_of_found _ found, shape]
    exact if_pos opened
  | unknownStep found isCollection closed outside =>
    obtain ⟨definition, shape⟩ := NodeKind.isCollection_iff.1 isCollection
    refine unread ?_
    rw [Template.read_of_found _ found, shape]
    dsimp only [NodeKind.collection?]
    rw [if_neg (by simp [closed]), owningStep?_collection settled found isCollection, outside]
    rfl
  | @codeCollision node step definition code found isCollection closed within taken =>
    obtain ⟨template, read, owned, _, _, codes⟩ :=
      exists_read registered coherent plain same settled vetted found isCollection closed within
    have collides : collision? (layersOver request.wired request.overlay) template.step
        (.ofTemplate template index) = some code := by
      rw [collision?, codes, owned]
      exact taken
    change Template.read (layersOver request.wired request.overlay) _ _ = _ at read
    rw [build]
    dsimp only
    rw [read]
    dsimp only
    rw [collides, owned]
    rfl

/-- Without a reason an iteration is made. -/
theorem build_succeeds {collection : NodeId} {index : Nat}
    (accepted : ∀ error, ¬request.Refuses collection index error) :
    ∃ made, (build request.wired request.overlay collection index).result = .ok made := by
  have grounded : Grounded request.wired :=
    same ▸ grounded_of_registered registered coherent plain
  cases found : request.layers.node? collection with
  | none =>
    have upper : request.overlay.nodes.node? collection = none := by
      cases own : request.overlay.nodes.node? collection with
      | none => rfl
      | some node =>
        have shown : request.layers.node? collection = some node :=
          Layered.node?_eq_some_iff.2 (.inl own)
        cases shown.symm.trans found
    have lower : (request.overlay.nodes.node? collection).orElse
        (fun _ => request.wired.form.nodes.node? collection) = none := found
    rw [upper] at lower
    exact absurd (.absent lower upper) (accepted _)
  | some node =>
    cases kind : node.kind.isCollection with
    | false => exact absurd (.notACollection found kind) (accepted _)
    | true =>
      cases closed : inOpenTemplate request.layers node with
      | true => exact absurd (.openTemplate found kind closed) (accepted _)
      | false =>
        cases within : enclosingAbove? request.layers node NodeKind.isStep with
        | none => exact absurd (.unknownStep found kind closed within) (accepted _)
        | some step =>
          obtain ⟨definition, shape⟩ := NodeKind.isCollection_iff.1 kind
          obtain ⟨template, read, owned, distinct, isStep, codes⟩ :=
            exists_read registered coherent plain same settled vetted found shape closed within
          have free : collision? (layersOver request.wired request.overlay) template.step
              (.ofTemplate template index) = none := by
            rw [collision?, codes, owned]
            refine Option.eq_none_iff_forall_ne_some.2 fun code taken => ?_
            exact accepted _ (.codeCollision found shape closed within taken)
          obtain ⟨outer, inner, present, isCollection, open_, own, _, rfl, _, nodes⟩ :=
            Template.read_spec grounded.coherent settled.anchored.coherent read
          have iterable : Iterable request.layers template :=
            ⟨⟨outer, inner, present, isCollection, open_⟩, own, nodes⟩
          change Template.read (layersOver request.wired request.overlay) _ _ = _ at read
          rw [build]
          dsimp only
          rw [read]
          dsimp only
          rw [free]
          exact copyTemplate_succeeds grounded.coherent settled.anchored settled.placed
            grounded.upright iterable distinct (owned ▸ isStep) vetted.admits _ index

end

/-- Without an end of identifiers an attempt after any calls, to make an iteration that was not made
yet, fails with an error exactly if the request has that reason, and it succeeds if there is none. -/
theorem materialize_error_iff {form : Form} {config : WiringConfig} {wired : WiredForm}
    (built : form.Built) (plain : form.Plain) (wiring : WiredForm.wire form config = .ok wired)
    (calls : List (NodeId × Nat)) {collection : NodeId} {index : Nat}
    (fresh : (run wired calls).iteration? collection index = none) :
    (∀ error, ((run wired calls).materialize collection index).2 = .error error ↔
      (run wired calls).Refuses collection index error) ∧
    ((∃ made, ((run wired calls).materialize collection index).2 = .ok made) ↔
      ∀ error, ¬(run wired calls).Refuses collection index error) ∧
    ∀ error, CopyFault error →
      ((run wired calls).materialize collection index).2 ≠ .error error := by
  have registered := WiredForm.wire_spec wiring
  have coherent := built.coherent
  have settled := settled_run (grounded_of_registered registered coherent plain)
    (settled_start registered coherent plain) calls
  have vetted := vetted_run registered coherent plain calls
  have same := wired_run wired calls
  rw [materialize_of_fresh fresh]
  have refused : ∀ error, (run wired calls).Refuses collection index error →
      (build (run wired calls).wired (run wired calls).overlay collection index).result =
        .error error := fun error refuses =>
    refuses.build_eq registered coherent plain same settled vetted
  have accepted := @build_succeeds _ _ _ registered coherent plain _ same settled vetted
    collection index
  have reasoned : ∀ error,
      (build (run wired calls).wired (run wired calls).overlay collection index).result =
        .error error → (run wired calls).Refuses collection index error := by
    intro error failed
    by_contra unreasoned
    obtain ⟨made, succeeded⟩ := accepted fun other refuses => by
      cases failed.symm.trans (refused other refuses)
      exact unreasoned refuses
    cases succeeded.symm.trans failed
  refine ⟨fun error => ⟨reasoned error, refused error⟩, ⟨?_, accepted⟩, ?_⟩
  · rintro ⟨made, succeeded⟩ error refuses
    cases succeeded.symm.trans (refused error refuses)
  · intro error fault failed
    exact (reasoned error failed).no_copyFault fault

/-! ## While identifiers last -/

namespace People

def form : Form :=
  ⟨"register", {
    nodes := [
      ⟨⟨0⟩, none, .journey "register"⟩,
      ⟨⟨1⟩, some ⟨0⟩, .step "/people"⟩,
      ⟨⟨2⟩, some ⟨1⟩, .field ⟨"person_0_name", "text", [], none⟩⟩,
      ⟨⟨3⟩, some ⟨1⟩, .collection ⟨"person", none⟩⟩,
      ⟨⟨4⟩, some ⟨3⟩, .field ⟨"name", "text", [], none⟩⟩]
    containment := [(⟨0⟩, ⟨1⟩), (⟨1⟩, ⟨2⟩), (⟨1⟩, ⟨3⟩), (⟨3⟩, ⟨4⟩)]
    references := []
    identities := []
    nextId := 5 }⟩

theorem built : form.Built := by
  have journey := Form.Built.addJourney (.empty "register")
    (rfl : Form.addJourney _ none "register" = .ok (_, ⟨0⟩))
  have step := journey.addStep (rfl : Form.addStep _ ⟨0⟩ "/people" = .ok (_, ⟨1⟩))
  have existing := step.addField
    (rfl : Form.addField _ ⟨1⟩ "person_0_name" "text" = .ok (_, ⟨2⟩))
  have collection := existing.addCollection
    (rfl : Form.addCollection _ ⟨1⟩ "person" none = .ok (_, ⟨3⟩))
  exact collection.addField (rfl : Form.addField _ ⟨3⟩ "name" "text" = .ok (_, ⟨4⟩))

theorem plain : form.Plain :=
  .ofNodes NodeId.val (by decide) (by decide) (by decide) (by decide) (by decide)

def wired : WiredForm := (WiredForm.wire form .default .wrapping).toOption.getD default

theorem wiring : WiredForm.wire form .default .wrapping = .ok wired :=
  rfl

/-- The request in which the second iteration was made. -/
def request : RequestScope := ((start wired).materialize ⟨3⟩ 1 .wrapping).1

end People

end RequestScope

end FormFlow
