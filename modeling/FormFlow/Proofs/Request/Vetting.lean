import FormFlow.Proofs.Request.Binding
import FormFlow.Proofs.Request.Mirror
import FormFlow.Proofs.Wiring.Faultless

/-!
# What registration rules out

A form is registered only if the options admit every reference inside a template. A copy of such a
reference is admitted as well (`RequestScope.Assembled.copy_admits`): it selects the same namespace
and has a key if the reference has, and it stands in a field if the reference does. However deep
templates are nested and however often they are copied, a request is therefore vetted
(`RequestScope.vetted_run`).
-/

set_option autoImplicit false

namespace FormFlow

open NodeSource

/-- A renamed reference selects the same namespace, and it has a key if it had one. -/
theorem Renaming.exists_apply_reference (scheme : Renaming) (direct : Bool)
    (expression : Reference) : ∃ other : Reference,
      scheme.apply direct (.reference expression) = .reference other ∧
      other.selected? = expression.selected? ∧
      ∀ space, (expression.lookupKey? space).isSome = true →
        (other.lookupKey? space).isSome = true := by
  unfold Renaming.apply
  dsimp only
  split
  · refine ⟨_, rfl, ?_⟩
    obtain ⟨path⟩ := expression
    match path with
    | [] => exact ⟨rfl, fun _ keyed => keyed⟩
    | [first] => exact ⟨rfl, fun _ keyed => keyed⟩
    | first :: second :: rest =>
      refine ⟨rfl, fun space keyed => ?_⟩
      by_cases within : first = space.text
      · simp [Reference.lookupKey?, Reference.isIn, mapKey, within]
      · simp [Reference.lookupKey?, Reference.isIn, within] at keyed
  · exact ⟨expression, rfl, rfl, fun _ keyed => keyed⟩

/-- What is copied to a reference is a reference. -/
theorem NodeKind.reference_of_copy {kind : NodeKind} {scheme : Renaming} {direct : Bool}
    {map : NodeId → NodeId} {expression : Reference}
    (copied : scheme.apply direct (kind.remapIds map) = .reference expression) :
    ∃ original, kind = .reference original ∧
      scheme.apply direct (.reference original) = .reference expression := by
  cases kind with
  | reference original => exact ⟨original, rfl, copied⟩
  | field definition => cases direct <;> cases copied
  | collection definition => cases direct <;> cases copied
  | _ => cases copied

namespace RequestScope

/-- The options admit every reference inside a template of a step. -/
def AdmitsTemplates (config : WiringConfig) (layers : Layered) : Prop :=
  ∀ id node expression step, node? layers id = some node → node.kind = .reference expression →
    inTemplate layers node = true → owningStep? layers id = some step →
      config.Admits expression (∃ outer, enclosingAbove? layers node NodeKind.isField = some outer)

/-- Registration has vetted a request: nothing that it adds is a scope, and every reference inside
a template is admitted. -/
structure Vetted (request : RequestScope) : Prop where
  content : ∀ node ∈ request.overlay.nodes.nodes, node.kind.isScope = false
  admits : AdmitsTemplates request.wired.config request.layers

section

variable {wired : WiredForm} {overlay : Overlay}

/-- The nodes of a template belong to the step of the collection. -/
theorem Iterable.within {template : Template}
    (iterable : Iterable (layersOver wired overlay) template)
    (coherent : wired.form.nodes.Coherent) (anchored : wired.form.nodes.Anchored overlay.nodes)
    (placed : WellPlaced (layersOver wired overlay)) :
    ∀ entry ∈ template.nodes, inTemplate (layersOver wired overlay) entry.node = true ∧
      owningStep? (layersOver wired overlay) entry.node.id = some template.step := by
  obtain ⟨top, definition, present, isCollection, _⟩ := iterable.collection
  have content := iterable.listed.isContent placed
    (fun _ _ found => Layered.node?_of_holder coherent anchored found) present
    (by rw [isCollection]; rfl)
  refine iterable.induction ?_
  intro entry member parent contained place
  have found := iterable.found coherent anchored member
  have own := content entry member
  have noStep := (Bool.or_eq_false_iff.1 own.scope).2
  rcases place with rfl | ⟨outer, inside, rfl, around, owned⟩
  · have repeated : top.kind.isRepeated = true := by rw [isCollection]; rfl
    refine ⟨?_, ?_⟩
    · rw [inTemplate, repeatedAbove?,
        placed.upright.enclosingAbove?_parent contained present repeated]
      rfl
    · rw [placed.upright.owningStep?_up found contained present own.pseudo
        (by rw [isCollection]; rfl) noStep]
      exact iterable.step
  · have there := iterable.found coherent anchored inside
    refine ⟨?_, ?_⟩
    · simp only [inTemplate, repeatedAbove?] at around ⊢
      cases repeated : outer.node.kind.isRepeated with
      | true =>
        rw [placed.upright.enclosingAbove?_parent contained there repeated]
        rfl
      | false =>
        rw [placed.upright.enclosingAbove?_up contained there repeated]
        exact around
    · rw [placed.upright.owningStep?_up found contained there own.pseudo
        (content outer inside).pseudo noStep]
      exact owned

namespace Assembled

variable {after : Overlay} {template : Template} {scheme : Renaming} {index : Nat}
  {complete : NodeStore} {state : Synthesis.State Layered}
  (made : Assembled wired overlay after template scheme index complete state)
  (coherent : wired.form.nodes.Coherent) (anchored : wired.form.nodes.Anchored overlay.nodes)
include made coherent anchored

/-- The copy of an admitted reference is admitted. -/
theorem copy_admits (placed : WellPlaced (layersOver wired overlay))
    (lower : Upright wired.form.nodes)
    (admits : AdmitsTemplates wired.config (layersOver wired overlay))
    {copy : Node} (member : copy ∈ newNodes template scheme index overlay.nodes)
    {expression : Reference} (isReference : copy.kind = .reference expression) :
    wired.config.Admits expression
      (∃ outer, enclosingAbove? (layersOver wired after) copy NodeKind.isField = some outer) := by
  rcases eq_or_copyFor member with rfl | ⟨entry, known, rfl⟩
  · cases isReference
  obtain ⟨original, isOriginal, renamed⟩ := NodeKind.reference_of_copy isReference
  obtain ⟨other, same, selected, keyed⟩ := scheme.exists_apply_reference entry.direct original
  cases same.symm.trans renamed
  obtain ⟨templated, owned⟩ := made.iterable.within coherent anchored placed entry known
  have admitted := admits _ _ original _ (made.iterable.found coherent anchored known) isOriginal
    templated owned
  obtain ⟨shown, _⟩ := made.supplied coherent anchored
  have whole := (made.wellPlaced coherent anchored placed lower).upright
  have there := made.node?_of_new (copyFor_mem known scheme index overlay.nodes)
  refine admitted.mono selected keyed ?_
  rw [shown.enclosingAbove?_eq whole there]
  rintro ⟨field, encloses⟩
  rcases made.copy_encloses coherent anchored placed lower
    (fun kind direct map => kind.isField_copy scheme direct map) entry known with
    ⟨outer, _, _, around⟩ | ⟨above, around⟩
  · exact ⟨_, around⟩
  · have single : ∀ kind : NodeKind, kind.isRepeated = true → kind.isField = false := by
      intro kind repeated
      cases kind <;> first | rfl | cases repeated
    rw [made.enclosing?_iteration coherent anchored placed lower single, ← above,
      encloses] at around
    exact ⟨field, around⟩

end Assembled

end

/-! ## Requests -/

/-- A call keeps a request vetted. -/
theorem Vetted.materialize {request : RequestScope} (vetted : Vetted request)
    (grounded : Grounded request.wired) (settled : Settled request) (collection : NodeId)
    (index : Nat) : Vetted (request.materialize collection index).1 := by
  rcases settled.materialize_cases grounded collection index with
    same | ⟨after, template, scheme, complete, state, iterations, made, done⟩
  · rw [same]
    exact vetted
  · have shown := made.shows_after grounded.coherent settled.anchored
    rw [done]
    refine ⟨?_, ?_⟩
    · intro node member
      obtain ⟨new, added⟩ := made.exists_added
      change node ∈ after.nodes.nodes at member
      rw [made.store, added.nodes] at member
      change node ∈ complete.nodes ++ new at member
      rw [made.nodes] at member
      rcases List.mem_append.1 member with inner | pseudo
      · rcases List.mem_append.1 inner with old | copied
        · exact vetted.content node old
        · rcases List.mem_cons.1 copied with rfl | copy
          · rfl
          · exact (made.isContent grounded.coherent settled.anchored settled.placed copy).scope
      · obtain ⟨⟨definition, isPseudo⟩, _⟩ := added.each node pseudo
        rw [isPseudo]
        rfl
    · intro id node expression step found isReference templated owned
      change node? (layersOver request.wired after) id = some node at found
      change inTemplate (layersOver request.wired after) node = true at templated
      change owningStep? (layersOver request.wired after) id = some step at owned
      rcases made.old_or_copy grounded.coherent settled.anchored settled.placed grounded.upright
        found (by rw [isReference]; rfl) with old | ⟨new, _⟩
      · have upright := settled.placed.upright
        rw [inTemplate, shown.repeatedAbove?_eq upright old] at templated
        rw [shown.owningStep?_eq upright old] at owned
        have admits := vetted.admits id node expression step old isReference templated owned
        change request.wired.config.Admits expression (∃ outer,
          enclosingAbove? (layersOver request.wired after) node NodeKind.isField = some outer)
        rw [shown.enclosingAbove?_eq upright old]
        exact admits
      · exact made.copy_admits grounded.coherent settled.anchored settled.placed grounded.upright
          vetted.admits new isReference

/-- A request over a registered form starts vetted. -/
theorem vetted_start {form : Form} {config : WiringConfig} {wired : WiredForm}
    (registered : WiredForm.Registered form config wired) (coherent : form.nodes.Coherent)
    (plain : form.Plain) : Vetted (start wired) := by
  have base := (registered.wellPlaced coherent plain).upright
  have shown : Shows wired.form.nodes (start wired).layers :=
    Layered.shows_base (registered.coherent coherent)
      (NodeStore.anchored_startingAt wired.form.nodes)
  refine ⟨nofun, ?_⟩
  intro id node expression step found isReference templated owned
  have lower : node? wired.form.nodes id = some node := node?_start id ▸ found
  rw [inTemplate, shown.repeatedAbove?_eq base lower] at templated
  rw [shown.owningStep?_eq base lower] at owned
  rw [shown.enclosingAbove?_eq base lower]
  change wired.config.Admits _ _
  rw [registered.configured]
  exact registered.admits coherent plain lower isReference templated owned

/-- **Every request over a registered form is vetted.** -/
theorem vetted_run {form : Form} {config : WiringConfig} {wired : WiredForm}
    (registered : WiredForm.Registered form config wired) (coherent : form.nodes.Coherent)
    (plain : form.Plain) (calls : List (NodeId × Nat)) : Vetted (run wired calls) := by
  have grounded := grounded_of_registered registered coherent plain
  have started := settled_start registered coherent plain
  induction calls using List.reverseRecOn with
  | nil => exact vetted_start registered coherent plain
  | append_singleton calls call ih =>
    rw [run_concat]
    exact ih.materialize ((wired_run wired calls).symm ▸ grounded)
      (settled_run grounded started calls) call.1 call.2

end RequestScope

end FormFlow
