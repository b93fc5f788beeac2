import FormFlow.Proofs.Form.Writing

/-!
# Building a form

A form is built from an empty one by calls, any of which may fail (`Form.build`). A log keeps every
call with what it returned. The form is the one that the functions of the calls return
(`Form.Building.form_build`).

A call that succeeds adds at most one node, with the next identifier, and changes at most one other
by linking something to it. `Form.Call.Done` says all that it does, and every call does so
(`Form.Call.done`).
-/

set_option autoImplicit false

namespace FormFlow

/-- A node with its properties changed if it has an identifier. -/
def Node.modifyAt (id : NodeId) (change : NodeKind → NodeKind) (node : Node) : Node :=
  if node.id = id then { node with kind := change node.kind } else node

namespace Form

/-! ## Building -/

/-- Calls in their order, each with what it returned. -/
abbrev Log := List (Call × Except StructureError (Option NodeId))

/-- A form that is being built, and the calls so far. -/
structure Building where
  form : Form
  log : Log

/-- Makes a call on the form. What the call has written stays, also if it fails. -/
def Building.make (building : Building) (call : Call) : Building :=
  let outcome := call.writes.outcome building.form.nodes
  ⟨{ building.form with nodes := outcome.2 }, building.log ++ [(call, outcome.1)]⟩

/-- Makes calls on an empty form. -/
def build (code : String) (calls : List Call) : Building :=
  calls.foldl Building.make ⟨.empty code, []⟩

/-! ## What one call does -/

namespace Call

/-- Whether a call adds a formatter to a field. -/
def formats (field : NodeId) : Call → Bool
  | .addFormatter owner _ => owner = field
  | _ => false

/-- Whether a call adds an effect to a transition. -/
def affects (transition : NodeId) : Call → Bool
  | .addEffect owner _ => owner = transition
  | _ => false

/-- The expression that a call makes the default value of a field. -/
def default? (field : NodeId) : Call → Option NodeId
  | .setDefaultValue owner expression => if owner = field then some expression else none
  | _ => none

/-- The expression that a call makes a default value or a source. -/
def expression? : Call → Option NodeId
  | .addCollection _ _ source => source
  | .setDefaultValue _ expression => some expression
  | _ => none

/-- The node that a call adds under an identifier. -/
def node? (id : NodeId) : Call → Option Node
  | .addJourney parent code => some ⟨id, parent, .journey code⟩
  | .addStep journey path => some ⟨id, some journey, .step path⟩
  | .addBlock parent variant => some ⟨id, some parent, .block variant⟩
  | .addCollection parent code source => some ⟨id, some parent, .collection ⟨code, source⟩⟩
  | .addField parent code variant =>
    some ⟨id, some parent, .field ⟨code, variant, [], none⟩⟩
  | .addReference parent path => some ⟨id, some parent, .reference ⟨path⟩⟩
  | .addFunction parent name arguments => some ⟨id, some parent, .function name arguments⟩
  | .addLiteral parent value => some ⟨id, some parent, .literal value⟩
  | .addFormatter field name => some ⟨id, some field, .function name []⟩
  | .setDefaultValue _ _ => none
  | .addTransition scope trigger => some ⟨id, some scope, .transition ⟨trigger, []⟩⟩
  | .addEffect transition name => some ⟨id, some transition, .function name []⟩
  | .onStore _ => none

/-- What a call makes of a node if the identifier that it gives out is `added`. -/
def relink (added : NodeId) (call : Call) (node : Node) : Node where
  id := node.id
  parent := node.parent
  kind := match node.kind with
    | .field definition => .field { definition with
        formatters := definition.formatters ++ if call.formats node.id then [added] else []
        defaultValue := (call.default? node.id).or definition.defaultValue }
    | .transition definition => .transition { definition with
        effects := definition.effects ++ if call.affects node.id then [added] else [] }
    | kind => kind

section

variable {added : NodeId} {node : Node} {call : Call}

/-- Only fields and transitions have something linked to them. -/
theorem relink_eq_of_kind (noField : node.kind.isField = false)
    (noTransition : node.kind.isTransition = false) : call.relink added node = node := by
  obtain ⟨id, parent, kind⟩ := node
  cases kind with
  | field definition => cases noField
  | transition definition => cases noTransition
  | _ => rfl

/-- Most calls link nothing. -/
theorem relink_eq_of_call (formats : call.formats node.id = false)
    (affects : call.affects node.id = false) (default : call.default? node.id = none) :
    call.relink added node = node := by
  obtain ⟨id, parent, kind⟩ := node
  cases kind with
  | field definition => simp [relink, formats, default]
  | transition definition => simp [relink, affects]
  | _ => rfl

/-- A call that links something to one node leaves the others alone. -/
theorem relink_eq_modifyAt {owner : NodeId} {change : NodeKind → NodeKind}
    (others : ∀ id, owner ≠ id → call.formats id = false ∧ call.affects id = false ∧
      call.default? id = none)
    (owned : node.id = owner → call.relink added node = { node with kind := change node.kind }) :
    call.relink added node = node.modifyAt owner change := by
  rw [Node.modifyAt]
  by_cases here : node.id = owner
  · rw [if_pos here]
    exact owned here
  · rw [if_neg here]
    obtain ⟨formats, affects, default⟩ := others node.id (Ne.symm here)
    exact relink_eq_of_call formats affects default

theorem relink_addFormatter (field : NodeId) (name : String) :
    (addFormatter field name).relink added node = node.modifyAt field (withFormatter added) := by
  refine relink_eq_modifyAt (fun id other => ⟨decide_eq_false other, rfl, rfl⟩) fun here => ?_
  cases kind : node.kind <;> simp [relink, withFormatter, formats, default?, affects, kind, here]

theorem relink_setDefaultValue (field expression : NodeId) :
    (setDefaultValue field expression).relink added node =
      node.modifyAt field (withDefault expression) := by
  refine relink_eq_modifyAt (fun id other => ⟨rfl, rfl, if_neg other⟩) fun here => ?_
  cases kind : node.kind <;> simp [relink, withDefault, formats, default?, affects, kind, here]

theorem relink_addEffect (transition : NodeId) (name : String) :
    (addEffect transition name).relink added node =
      node.modifyAt transition (withEffect added) := by
  refine relink_eq_modifyAt (fun id other => ⟨rfl, decide_eq_false other, rfl⟩) fun here => ?_
  cases kind : node.kind <;> simp [relink, withEffect, formats, default?, affects, kind, here]

end

/-- What a call that succeeds does to a form, and what it returns. -/
structure Done (call : Call) (form next : Form) (result : Option NodeId) : Prop where
  nodes : next.nodes.nodes =
    (form.nodes.nodes ++ (call.node? ⟨form.nodes.nextId⟩).toList).map
      (call.relink ⟨form.nodes.nextId⟩)
  nextId : next.nodes.nextId =
    form.nodes.nextId + (call.node? ⟨form.nodes.nextId⟩).toList.length
  result : result = (call.node? ⟨form.nodes.nextId⟩).map Node.id
  expression : ∀ id, call.expression? = some id → ∃ outer ∈ form.nodes.nodes, outer.id = id

/-- Linking leaves identifiers alone. -/
theorem Done.ids {call : Call} {form next : Form} {result : Option NodeId}
    (done : call.Done form next result) :
    next.nodes.nodes.map Node.id = form.nodes.nodes.map Node.id ++ result.toList := by
  rw [done.nodes, done.result, List.map_map, Option.toList_map, ← List.map_append]
  rfl

section

variable {form next : Form} {id : NodeId} {call : Call}

theorem nodes_of_insert {parent : Option NodeId} {kind : NodeKind}
    (called : form.insert parent kind = .ok (next, id)) :
    id = ⟨form.nodes.nextId⟩ ∧ next.nodes = form.nodes.push ⟨id, parent, kind⟩ := by
  obtain ⟨⟨nodes, other⟩, inserted, same⟩ := Except.bind_eq_ok_iff.1 called
  cases same
  obtain ⟨-, rfl, rfl⟩ := NodeStore.insert_eq_ok_iff.1 inserted
  exact ⟨rfl, rfl⟩

theorem nodes_of_modifyKind (coherent : form.nodes.Coherent) {change : NodeKind → NodeKind}
    (called : form.modifyKind id change = .ok next) :
    next.nodes.nodes = form.nodes.nodes.map (Node.modifyAt id change) ∧
      next.nodes.nextId = form.nodes.nextId := by
  obtain ⟨node, present, -⟩ := Except.bind_eq_ok_iff.1 called
  have found : form.nodes.node? id = some node := NodeSource.node?_of_get present
  cases called.symm.trans (StoreCall.modifyKind_eq found change)
  refine ⟨List.map_congr_left fun other member => ?_, rfl⟩
  rw [Node.modifyAt]
  by_cases here : other.id = id
  · obtain rfl : other = node := Option.some.inj
      ((NodeStore.node?_of_mem coherent member).symm.trans (here ▸ found))
    rfl
  · rw [if_neg here, if_neg here]

/-- A call that inserts a node and changes nothing else. -/
theorem Done.ofInsert {parent : Option NodeId} {kind : NodeKind}
    (called : form.insert parent kind = .ok (next, id))
    (adds : ∀ added, call.node? added = some ⟨added, parent, kind⟩)
    (keeps : ∀ added node, call.relink added node = node)
    (expression : ∀ id, call.expression? = some id →
      ∃ outer ∈ form.nodes.nodes, outer.id = id) : call.Done form next (some id) := by
  obtain ⟨rfl, nodes⟩ := nodes_of_insert called
  refine ⟨?_, ?_, ?_, expression⟩
  · rw [adds, List.map_congr_left fun node _ => keeps _ node, List.map_id', nodes]
    rfl
  · rw [adds, nodes]
    exact Nat.max_eq_right (Nat.le_succ _)
  · rw [adds]
    rfl

/-- A call that inserts a function and links it to the node that it belongs to. -/
theorem Done.ofLinked (coherent : form.nodes.Coherent) {owner : NodeId} {expected name : String}
    {test : NodeKind → Bool} {link : NodeId → NodeKind → NodeKind}
    (called : form.addLinked owner expected test name link = .ok (next, id))
    (adds : ∀ added, call.node? added = some ⟨added, some owner, .function name []⟩)
    (links : ∀ added node, call.relink added node = node.modifyAt owner (link added))
    (expression : call.expression? = none) : call.Done form next (some id) := by
  obtain ⟨_, -, called⟩ := Except.bind_eq_ok_iff.1 called
  obtain ⟨⟨extended, linked⟩, function, called⟩ := Except.bind_eq_ok_iff.1 called
  obtain ⟨changed, modified, same⟩ := Except.bind_eq_ok_iff.1 called
  cases same
  obtain ⟨_, -, inserted⟩ := Except.bind_eq_ok_iff.1 function
  obtain ⟨rfl, pushed⟩ := nodes_of_insert inserted
  obtain ⟨nodes, nextId⟩ :=
    nodes_of_modifyKind ((edited_insertUnder function).coherent coherent) modified
  refine ⟨?_, ?_, ?_, ?_⟩
  · rw [adds, nodes, pushed, List.map_congr_left fun node _ => links _ node]
    rfl
  · rw [adds, nextId, pushed]
    exact Nat.max_eq_right (Nat.le_succ _)
  · rw [adds]
    rfl
  · rw [expression]
    nofun

/-- What every call of a form does. -/
theorem done (own : ∀ operation, call ≠ .onStore operation) (coherent : form.nodes.Coherent)
    {value : Option NodeId} (answered : call.answer form = .ok (next, value)) :
    call.Done form next value := by
  cases call with
  | addJourney parent code =>
    obtain ⟨id, called, rfl⟩ := exists_of_answer answered
    cases parent with
    | none => exact .ofInsert called (fun _ => rfl) (fun _ _ => relink_eq_of_call rfl rfl rfl) nofun
    | some outer =>
      obtain ⟨_, -, inserted⟩ := Except.bind_eq_ok_iff.1 called
      exact .ofInsert inserted (fun _ => rfl) (fun _ _ => relink_eq_of_call rfl rfl rfl) nofun
  | addCollection parent code source =>
    obtain ⟨id, called, rfl⟩ := exists_of_answer answered
    obtain ⟨_, -, called⟩ := Except.bind_eq_ok_iff.1 called
    obtain ⟨_, sourced, inserted⟩ := Except.bind_eq_ok_iff.1 called
    refine .ofInsert inserted (fun _ => rfl) (fun _ _ => relink_eq_of_call rfl rfl rfl) ?_
    rintro id (rfl : source = some id)
    exact exists_of_requireNode sourced
  | addFormatter field name =>
    obtain ⟨id, called, rfl⟩ := exists_of_answer answered
    exact .ofLinked coherent called (fun _ => rfl) (fun _ _ => relink_addFormatter field name) rfl
  | setDefaultValue field expression =>
    obtain ⟨changed, called, same⟩ := Except.map_eq_ok_iff.1 answered
    cases same
    obtain ⟨_, found, called⟩ := Except.bind_eq_ok_iff.1 called
    obtain ⟨_, -, modified⟩ := Except.bind_eq_ok_iff.1 called
    obtain ⟨nodes, nextId⟩ := nodes_of_modifyKind coherent modified
    refine ⟨?_, nextId, rfl, ?_⟩
    · rw [nodes, List.map_congr_left fun node _ => relink_setDefaultValue field expression]
      exact congrArg (List.map _) (List.append_nil _).symm
    · rintro _ ⟨⟩
      exact exists_of_requireNode found
  | addEffect transition name =>
    obtain ⟨id, called, rfl⟩ := exists_of_answer answered
    exact .ofLinked coherent called (fun _ => rfl) (fun _ _ => relink_addEffect transition name) rfl
  | onStore operation => exact absurd rfl (own operation)
  | addStep | addBlock | addField | addReference | addFunction | addLiteral | addTransition =>
    obtain ⟨id, called, rfl⟩ := exists_of_answer answered
    obtain ⟨_, -, inserted⟩ := Except.bind_eq_ok_iff.1 called
    exact .ofInsert inserted (fun _ => rfl) (fun _ _ => relink_eq_of_call rfl rfl rfl) nofun

end

/-! ### Nodes that are new -/

section

variable {id : NodeId} {node : Node} {call : Call} (adds : call.node? id = some node)
include adds

theorem id_of_node? : node.id = id := by
  cases call <;> cases adds <;> rfl

theorem isJourney_of_node? (top : node.parent = none) : node.kind.isJourney = true := by
  cases call <;> cases adds <;> cases top
  rfl

theorem field_of_node? {definition : Field} (kind : node.kind = .field definition) :
    definition.formatters = [] ∧ definition.defaultValue = none := by
  cases call <;> cases adds <;> cases kind
  exact ⟨rfl, rfl⟩

theorem transition_of_node? {definition : Transition} (kind : node.kind = .transition definition) :
    definition.effects = [] := by
  cases call <;> cases adds <;> cases kind
  rfl

theorem source_of_node? {definition : Collection} (kind : node.kind = .collection definition) :
    definition.source = call.expression? := by
  cases call <;> cases adds <;> cases kind
  rfl

end

/-! ### Calls that link -/

/-- The calls of a sort add a function to one node. -/
def Links (sort : Call → Bool) (owner : NodeId) : Prop :=
  ∀ call, sort call = true → ∀ id, ∃ name,
    call.node? id = some ⟨id, some owner, .function name []⟩

theorem links_formats (field : NodeId) : Links (formats field) field := by
  intro call formats id
  cases call with
  | addFormatter owner name =>
    obtain rfl : owner = field := of_decide_eq_true formats
    exact ⟨name, rfl⟩
  | _ => cases formats

theorem links_affects (transition : NodeId) : Links (affects transition) transition := by
  intro call affects id
  cases call with
  | addEffect owner name =>
    obtain rfl : owner = transition := of_decide_eq_true affects
    exact ⟨name, rfl⟩
  | _ => cases affects

theorem expression?_of_default? {call : Call} {field expression : NodeId}
    (sets : call.default? field = some expression) : call.expression? = some expression := by
  cases call with
  | setDefaultValue owner other =>
    by_cases here : owner = field
    · exact (if_pos here).symm.trans sets
    · cases (if_neg here).symm.trans sets
  | _ => cases sets

end Call

/-! ## The form that is built -/

namespace Building

/-- A call that succeeds leaves the form that its function returns, and one that fails leaves the
form as it was. -/
theorem make_eq (building : Building) (call : Call) :
    building.make call = match call.answer building.form with
      | .ok (next, value) => ⟨next, building.log ++ [(call, .ok value)]⟩
      | .error error => ⟨building.form, building.log ++ [(call, .error error)]⟩ := by
  have does := call.does building.form
  rw [make]
  cases answered : call.answer building.form with
  | error error =>
    rw [answered] at does
    rw [show call.writes.outcome building.form.nodes = _ from does]
  | ok pair =>
    obtain ⟨⟨code, nodes⟩, value⟩ := pair
    rw [answered] at does
    obtain ⟨runs, same⟩ := does
    obtain rfl : code = building.form.code := same
    rw [runs]

theorem form_make (building : Building) (call : Call) :
    (building.make call).form = call.applyTo building.form := by
  rw [make_eq, Call.applyTo, ← Call.map_fst_answer]
  cases call.answer building.form <;> rfl

theorem form_build (code : String) (calls : List Call) :
    (build code calls).form = calls.foldl Call.applyTo (.empty code) := by
  induction calls using List.reverseRecOn with
  | nil => rfl
  | append_singleton calls call ih =>
    rw [build, List.foldl_concat, List.foldl_concat, ← ih]
    exact form_make _ call

end Building

end Form

end FormFlow
