import FormFlow.Proofs.Form.Indexing

/-!
# Forms after any calls

A form can be changed by the calls that build it and by the calls on its store
(`Form.Call`). `Form.Composed` says that a form was empty or read from a text at first and then
went through such calls, of which any may have failed.

The store of a composed form is coherent, and its next identifier is a number that a text can
hold, unless it was raised by the node with the greatest identifier (`Form.Composed.spec`).
-/

set_option autoImplicit false

namespace FormFlow

namespace NodeStore

/-- The next identifier can be written, or it is the one behind a node. -/
def Counted (store : NodeStore) : Prop :=
  store.nextId < identBound ∨ ∃ node ∈ store.nodes, store.nextId = node.id.val + 1

theorem Counted.push {store : NodeStore} (counted : store.Counted) (node : Node) :
    (store.push node).Counted := by
  rcases Nat.le_total store.nextId (node.id.val + 1) with above | below
  · exact .inr ⟨node, List.mem_append_right _ (List.mem_singleton_self node), Nat.max_eq_right above⟩
  · have same : (store.push node).nextId = store.nextId := Nat.max_eq_left below
    rcases counted with low | ⟨other, member, behind⟩
    · exact .inl (same ▸ low)
    · exact .inr ⟨other, List.mem_append_left _ member, same.trans behind⟩

theorem Counted.setKind {store changed : NodeStore} (counted : store.Counted) {id : NodeId}
    {kind : NodeKind} (set : store.setKind id kind = .ok changed) : changed.Counted := by
  rw [NodeStore.setKind] at set
  split at set
  · cases set
    refine counted.imp_right ?_
    rintro ⟨node, member, behind⟩
    refine ⟨_, List.mem_map_of_mem member, behind.trans ?_⟩
    by_cases same : node.id = id
    · rw [if_pos same]
    · rw [if_neg same]
  · cases set

theorem Edited.counted {store later : NodeStore} (edited : store.Edited later)
    (counted : store.Counted) : later.Counted := by
  induction edited with
  | refl => exact counted
  | push _ _ ih => exact ih.push _
  | setKind _ _ _ _ set ih => exact ih.setKind set

theorem Counted.foldl {start : NodeStore} (counted : start.Counted) (nodes : List Node) :
    (nodes.foldl NodeStore.push start).Counted := by
  induction nodes generalizing start with
  | nil => exact counted
  | cons node rest ih => exact ih (counted.push node)

theorem Counted.ofNodes {nodes : List Node} {nextId : Nat} {store : NodeStore}
    (below : nextId < identBound) (read : NodeStore.ofNodes nodes nextId = .ok store) :
    store.Counted := by
  obtain ⟨-, rfl⟩ := ofNodes_eq_ok_iff.1 read
  have folded : (nodes.foldl NodeStore.push empty).Counted :=
    Counted.foldl (.inl (by decide)) nodes
  rcases Nat.le_total (nodes.foldl NodeStore.push empty).nextId nextId with above | under
  · refine .inl ?_
    change max _ nextId < identBound
    rwa [Nat.max_eq_right above]
  · simp only [Counted, Nat.max_eq_left under]
    exact folded

theorem lt_of_natBelow (bound : Nat) (stage : Stage) (document : Document) (value : Nat)
    (read : Reader.natBelow bound stage document = .ok value) : value < bound := by
  unfold Reader.natBelow at read
  split at read
  · split at read
    · cases read
      omega
    · cases read
  · cases read

/-- The next identifier of a store that is read was written, or lies behind a node. -/
theorem counted_of_reader (stage : Stage) (document : Document) (store : NodeStore)
    (read : reader stage document = .ok store) : store.Counted := by
  have numbers := Reader.Shape.gives_field "next_id" (Reader.natBelow identBound)
    (lt_of_natBelow identBound)
  have gives : NodeStore.shape.Gives Counted := by
    apply ((Reader.Shape.gives_nothing _).and numbers).convert
    rintro ⟨nodes, nextId⟩ store ⟨-, below⟩ inserted
    exact .ofNodes below (Except.mapError_eq_ok_iff.1 inserted)
  exact Reader.structured_gives gives read

/-- A call on a store edits it. -/
theorem edited_applyTo (store : NodeStore) (operation : Operation) :
    store.Edited (operation.applyTo store) := by
  rcases applyTo_cases store operation with same | ⟨node, free, same⟩
  · rw [same]
    exact .refl
  · rw [same]
    exact .push .refl free

end NodeStore

namespace Form

/-- A call on a form or on its store, with its arguments. -/
inductive Call where
  | addJourney (parent : Option NodeId) (code : String)
  | addStep (journey : NodeId) (path : String)
  | addBlock (parent : NodeId) (variant : String)
  | addCollection (parent : NodeId) (code : String) (source : Option NodeId)
  | addField (parent : NodeId) (code variant : String)
  | addReference (parent : NodeId) (path : List String)
  | addFunction (parent : NodeId) (name : String) (arguments : List NodeId)
  | addLiteral (parent : NodeId) (value : Json)
  | addFormatter (field : NodeId) (name : String)
  | setDefaultValue (field expression : NodeId)
  | addTransition (scope : NodeId) (trigger : Trigger)
  | addEffect (transition : NodeId) (name : String)
  | onStore (operation : NodeStore.Operation)

/-- The form that a call returns. A call on the store leaves a store in any case. -/
def Call.run (form : Form) : Call → Except StructureError Form
  | .addJourney parent code => Prod.fst <$> form.addJourney parent code
  | .addStep journey path => Prod.fst <$> form.addStep journey path
  | .addBlock parent variant => Prod.fst <$> form.addBlock parent variant
  | .addCollection parent code source => Prod.fst <$> form.addCollection parent code source
  | .addField parent code variant => Prod.fst <$> form.addField parent code variant
  | .addReference parent path => Prod.fst <$> form.addReference parent path
  | .addFunction parent name arguments => Prod.fst <$> form.addFunction parent name arguments
  | .addLiteral parent value => Prod.fst <$> form.addLiteral parent value
  | .addFormatter field name => Prod.fst <$> form.addFormatter field name
  | .setDefaultValue field expression => form.setDefaultValue field expression
  | .addTransition scope trigger => Prod.fst <$> form.addTransition scope trigger
  | .addEffect transition name => Prod.fst <$> form.addEffect transition name
  | .onStore operation => .ok { form with nodes := operation.applyTo form.nodes }

/-- The form after a call, which is the form before it if the call fails. -/
def Call.applyTo (form : Form) (call : Call) : Form := (call.run form).toOption.getD form

/-- A form that was empty or read at first, after any calls. -/
inductive Composed : Form → Prop where
  | empty (code : String) : Composed (.empty code)
  | ofText {text : String} {form : Form} : Form.ofText text = .ok form → Composed form
  | call {form : Form} (call : Call) : Composed form → Composed (call.applyTo form)

theorem Composed.calls {form : Form} (composed : form.Composed) (calls : List Call) :
    (calls.foldl Call.applyTo form).Composed := by
  induction calls generalizing form with
  | nil => exact composed
  | cons call rest ih => exact ih (composed.call call)

/-- A call that adds a node returns the form with the node. -/
theorem exists_of_map_fst {result : Except StructureError Extended} {next : Form}
    (returned : Prod.fst <$> result = .ok next) : ∃ id, result = .ok (next, id) := by
  obtain ⟨⟨_, id⟩, same, rfl⟩ := Except.map_eq_ok_iff.1 returned
  exact ⟨id, same⟩

theorem Call.edited_run {form next : Form} {call : Call} (called : call.run form = .ok next) :
    form.nodes.Edited next.nodes := by
  cases call with
  | addJourney parent code =>
    obtain ⟨id, called⟩ := exists_of_map_fst called
    exact edited_addJourney called
  | addStep journey path =>
    obtain ⟨id, called⟩ := exists_of_map_fst called
    exact edited_insertUnderKind called
  | addBlock parent variant =>
    obtain ⟨id, called⟩ := exists_of_map_fst called
    exact edited_insertUnder called
  | addCollection parent code source =>
    obtain ⟨id, called⟩ := exists_of_map_fst called
    exact edited_addCollection called
  | addField parent code variant =>
    obtain ⟨id, called⟩ := exists_of_map_fst called
    exact edited_insertUnder called
  | addReference parent path =>
    obtain ⟨id, called⟩ := exists_of_map_fst called
    exact edited_insertUnder called
  | addFunction parent name arguments =>
    obtain ⟨id, called⟩ := exists_of_map_fst called
    exact edited_insertUnder called
  | addLiteral parent value =>
    obtain ⟨id, called⟩ := exists_of_map_fst called
    exact edited_insertUnder called
  | addFormatter field name =>
    obtain ⟨id, called⟩ := exists_of_map_fst called
    exact edited_addFormatter called
  | setDefaultValue field expression => exact edited_setDefaultValue called
  | addTransition scope trigger =>
    obtain ⟨id, called⟩ := exists_of_map_fst called
    exact edited_insertUnderKind called
  | addEffect transition name =>
    obtain ⟨id, called⟩ := exists_of_map_fst called
    exact edited_addEffect called
  | onStore operation =>
    cases called
    exact NodeStore.edited_applyTo form.nodes operation

/-- Whether a call fails or not, it does nothing but edit the store. -/
theorem Call.edited_applyTo (form : Form) (call : Call) :
    form.nodes.Edited (call.applyTo form).nodes := by
  rw [applyTo]
  cases called : call.run form with
  | error error => exact .refl
  | ok next => exact edited_run called

theorem Composed.spec {form : Form} (composed : form.Composed) :
    form.nodes.Coherent ∧ form.nodes.Counted := by
  induction composed with
  | empty code => exact ⟨NodeStore.coherent_startingAt 0, .inl (by decide : 0 < identBound)⟩
  | ofText read =>
    exact ⟨nodes_of_ofText NodeStore.coherent_of_reader read,
      nodes_of_ofText NodeStore.counted_of_reader read⟩
  | @call form call _ ih =>
    have edited := call.edited_applyTo form
    exact ⟨edited.coherent ih.1, edited.counted ih.2⟩

end Form

end FormFlow
