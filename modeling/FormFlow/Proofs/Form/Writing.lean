import FormFlow.Proofs.Form.Made

/-!
# Calls that build a form, write by write

A call that builds a form writes into its store, and what was written before the call fails stays
written. Two calls write twice: a formatter and an effect are inserted first and linked afterwards,
by a change of the node that they belong to. `Form.Call.writes` is each call with its writes in
their order, and with what it returns.

Every check of a call comes before its first write, and the node that is changed at the end was
found by a check. So a call does what the function of its name in `FormFlow.Form.Basic` says, and
one that fails leaves the store as it was (`Form.Call.does`).
-/

set_option autoImplicit false

namespace FormFlow

/-- Adds a function call to a node of the kind that is expected, and links it there. Formatters and
effects are added so. -/
def Form.addLinked (form : Form) (owner : NodeId) (expected : String) (test : NodeKind → Bool)
    (name : String) (link : NodeId → NodeKind → NodeKind) : Except StructureError Extended := do
  form.requireKind owner expected test
  let (extended, linked) ← form.addFunction owner name []
  let changed ← extended.modifyKind owner (link linked)
  return (changed, linked)

namespace StoreCall

variable {α β : Type}

/-! ## The calls -/

/-- The node with an identifier, which has to be there. -/
def node (id : NodeId) : StoreCall Node := do
  match (← get).get id with
  | .ok node => return node
  | .error error => throw error

/-- Succeeds if a node exists. -/
def requireNode (id : NodeId) : StoreCall Unit := do
  let _ ← node id

/-- Succeeds if a node exists and is of the kind that is expected. -/
def requireKind (id : NodeId) (expected : String) (test : NodeKind → Bool) : StoreCall Unit := do
  let node ← node id
  if test node.kind then return ()
  else throw (.unexpectedKind id expected node.kind.tag)

/-- Changes the properties of a node. -/
def modifyKind (id : NodeId) (change : NodeKind → NodeKind) : StoreCall Unit := do
  let found ← node id
  modify fun store => { store with
    nodes := store.nodes.map fun node =>
      if node.id = id then { node with kind := change found.kind } else node }

/-- Inserts a node under a parent, which has to exist. -/
def insertUnder (parent : NodeId) (kind : NodeKind) : StoreCall NodeId := do
  requireNode parent
  insert (some parent) kind

/-- Inserts a node under a parent, which has to be of the kind that is expected. -/
def insertUnderKind (parent : NodeId) (expected : String) (test : NodeKind → Bool)
    (kind : NodeKind) : StoreCall NodeId := do
  requireKind parent expected test
  insert (some parent) kind

/-- Adds a repeated block, the items of which an existing expression yields. -/
def addCollection (parent : NodeId) (code : String) (source : Option NodeId) :
    StoreCall NodeId := do
  requireNode parent
  source.forM requireNode
  insert (some parent) (.collection ⟨code, source⟩)

/-- Adds a function call to a node of the kind that is expected, and then links it there. -/
def addLinked (owner : NodeId) (expected : String) (test : NodeKind → Bool) (name : String)
    (link : NodeId → NodeKind → NodeKind) : StoreCall NodeId := do
  requireKind owner expected test
  let linked ← insertUnder owner (.function name [])
  modifyKind owner (link linked)
  return linked

/-- Makes an existing expression the default value of a field. -/
def setDefaultValue (field expression : NodeId) : StoreCall Unit := do
  requireNode expression
  requireKind field "field" NodeKind.isField
  modifyKind field (Form.withDefault expression)

/-! ## What the calls do -/

theorem outcome_node (id : NodeId) (store : NodeStore) :
    outcome (node id) store = (store.get id, store) := by
  rw [node, outcome_bind, outcome_get]
  cases found : store.get id <;> simp [found]

section

variable {form : Form}

theorem outcome_requireNode (id : NodeId) :
    outcome (requireNode id) form.nodes = (form.requireNode id, form.nodes) := by
  rw [requireNode, outcome_bind, outcome_node, Form.requireNode]
  cases form.nodes.get id <;> rfl

theorem outcome_requireKind (id : NodeId) (expected : String) (test : NodeKind → Bool) :
    outcome (requireKind id expected test) form.nodes =
      (form.requireKind id expected test, form.nodes) := by
  rw [requireKind, outcome_bind, outcome_node, Form.requireKind]
  cases form.nodes.get id with
  | error error => rfl
  | ok node =>
    change outcome (if test node.kind then pure () else throw _) form.nodes =
      (if test node.kind then pure () else .error _, form.nodes)
    cases test node.kind <;> rfl

theorem outcome_requireSource (source : Option NodeId) :
    outcome (source.forM requireNode) form.nodes = (source.forM form.requireNode, form.nodes) := by
  cases source with
  | none => rfl
  | some id => exact outcome_requireNode id

end

/-- A call does what a function says that returns the changed form: it returns the same and leaves
the nodes of that form, or it fails with the same error and leaves the store alone. -/
def Does (call : StoreCall α) (form : Form) : Except StructureError (Form × α) → Prop
  | .ok (next, value) => outcome call form.nodes = (.ok value, next.nodes) ∧ next.code = form.code
  | .error error => outcome call form.nodes = (.error error, form.nodes)

namespace Does

variable {form : Form} {call : StoreCall α} {said : Except StructureError (Form × α)}

theorem returned (value : α) : (pure value : StoreCall α).Does form (.ok (form, value)) :=
  ⟨rfl, rfl⟩

/-- What is only checked comes before what is written. -/
theorem after {check : StoreCall Unit} {passed : Except StructureError Unit}
    (checked : outcome check form.nodes = (passed, form.nodes)) (does : call.Does form said) :
    (check >>= fun _ => call).Does form (passed >>= fun _ => said) := by
  have runs := outcome_bind check (fun _ => call) form.nodes
  rw [checked] at runs
  cases passed with
  | error error => exact runs
  | ok value =>
    cases said with
    | error error => exact runs.trans does
    | ok pair => exact ⟨runs.trans does.1, does.2⟩

/-- What follows a write must not fail. -/
theorem andThen {next : α → StoreCall β}
    {follow : Form × α → Except StructureError (Form × β)}
    (does : call.Does form said)
    (goesOn : ∀ changed value, said = .ok (changed, value) →
      ∃ result, follow (changed, value) = .ok result ∧ (next value).Does changed (.ok result)) :
    (call >>= next).Does form (said >>= follow) := by
  have runs := outcome_bind call next form.nodes
  cases returned : said with
  | error error =>
    rw [returned] at does
    rw [does] at runs
    exact runs
  | ok pair =>
    obtain ⟨changed, value⟩ := pair
    obtain ⟨⟨last, result⟩, followed, goes, code⟩ := goesOn changed value returned
    rw [returned] at does
    rw [does.1] at runs
    have same : (.ok (changed, value) >>= follow) = .ok (last, result) := followed
    rw [same]
    exact ⟨runs.trans goes, code.trans does.2⟩

theorem map (change : α → β) (does : call.Does form said) :
    (change <$> call).Does form (Prod.map id change <$> said) := by
  rw [map_eq_pure_bind, map_eq_pure_bind]
  exact does.andThen fun changed value _ => ⟨_, rfl, returned (change value)⟩

/-- A call that fails leaves the store alone. -/
theorem unchanged (does : call.Does form said) {error : StructureError}
    (failed : (outcome call form.nodes).1 = .error error) :
    (outcome call form.nodes).2 = form.nodes := by
  cases said with
  | error error => exact congrArg Prod.snd does
  | ok pair =>
    rw [does.1] at failed
    cases failed

end Does

section

variable {form : Form}

theorem does_insert (parent : Option NodeId) (kind : NodeKind) :
    (insert parent kind).Does form (form.insert parent kind) := by
  have runs := outcome_insert parent kind form.nodes
  rw [Form.insert]
  cases inserted : form.nodes.insert parent kind with
  | error error =>
    rw [inserted] at runs
    exact runs
  | ok pair =>
    rw [inserted] at runs
    exact ⟨runs, rfl⟩

theorem does_insertUnder (parent : NodeId) (kind : NodeKind) :
    (insertUnder parent kind).Does form (form.insertUnder parent kind) :=
  .after (outcome_requireNode parent) (does_insert (some parent) kind)

theorem does_insertUnderKind (parent : NodeId) (expected : String) (test : NodeKind → Bool)
    (kind : NodeKind) : (insertUnderKind parent expected test kind).Does form
      (form.insertUnderKind parent expected test kind) :=
  .after (outcome_requireKind parent expected test) (does_insert (some parent) kind)

theorem does_addCollection (parent : NodeId) (code : String) (source : Option NodeId) :
    (addCollection parent code source).Does form (form.addCollection parent code source) :=
  .after (outcome_requireNode parent)
    (.after (outcome_requireSource source) (does_insert (some parent) _))

/-- A node that is there can be changed. -/
theorem modifyKind_eq {id : NodeId} {node : Node} (found : form.nodes.node? id = some node)
    (change : NodeKind → NodeKind) :
    form.modifyKind id change = .ok { form with nodes := { form.nodes with
      nodes := form.nodes.nodes.map fun other =>
        if other.id = id then { other with kind := change node.kind } else other } } := by
  have contained : form.nodes.contains id = true := Option.isSome_iff_exists.2 ⟨node, found⟩
  refine Except.bind_eq_ok_iff.2 ⟨node, NodeSource.get_eq_ok found, ?_⟩
  rw [Form.setKind, NodeStore.setKind, if_pos contained]
  rfl

theorem does_modifyKind (id : NodeId) (change : NodeKind → NodeKind) :
    (modifyKind id change).Does form ((·, ()) <$> form.modifyKind id change) := by
  have runs : outcome (modifyKind id change) form.nodes = _ := outcome_bind _ _ form.nodes
  rw [outcome_node] at runs
  cases found : form.nodes.node? id with
  | none =>
    have absent : form.nodes.get id = .error (.nodeNotFound id) := NodeSource.get_eq_error found
    rw [absent] at runs
    rw [Form.modifyKind, absent]
    exact runs
  | some node =>
    have present : form.nodes.get id = .ok node := NodeSource.get_eq_ok found
    rw [present] at runs
    rw [modifyKind_eq found]
    exact ⟨runs, rfl⟩

/-- Adding a node takes none away. -/
theorem exists_node?_of_insertUnder {parent id owner : NodeId} {kind : NodeKind} {next : Form}
    {node : Node} (found : form.nodes.node? owner = some node)
    (called : form.insertUnder parent kind = .ok (next, id)) :
    ∃ kept, next.nodes.node? owner = some kept := by
  obtain ⟨_, -, inserted⟩ := Except.bind_eq_ok_iff.1 called
  obtain ⟨⟨nodes, other⟩, inserted, same⟩ := Except.bind_eq_ok_iff.1 inserted
  cases same
  obtain ⟨free, -, rfl⟩ := NodeStore.insert_eq_ok_iff.1 inserted
  rw [NodeStore.node?_push (NodeStore.conflict?_eq_none_iff.1 free).1]
  split
  · exact ⟨_, rfl⟩
  · exact ⟨node, found⟩

/-- The owner was found by the check, so linking cannot fail. -/
theorem does_addLinked (owner : NodeId) (expected : String) (test : NodeKind → Bool)
    (name : String) (link : NodeId → NodeKind → NodeKind) :
    (addLinked owner expected test name link).Does form
      (form.addLinked owner expected test name link) := by
  refine .after (outcome_requireKind owner expected test) ?_
  refine (does_insertUnder owner (.function name [])).andThen fun extended linked called => ?_
  obtain ⟨node, present, -⟩ := Except.bind_eq_ok_iff.1
    (Except.bind_eq_ok_iff.1 called).choose_spec.1
  obtain ⟨kept, found⟩ := exists_node?_of_insertUnder
    (NodeSource.node?_of_get present : form.nodes.node? owner = some node) called
  have modified := modifyKind_eq found (link linked)
  have does : (modifyKind owner (link linked)).Does extended _ := does_modifyKind owner _
  rw [modified] at does
  refine ⟨(_, linked), Except.bind_eq_ok_iff.2 ⟨_, modified, rfl⟩, ?_, does.2⟩
  rw [outcome_bind, does.1]
  rfl

theorem does_setDefaultValue (field expression : NodeId) :
    (setDefaultValue field expression).Does form
      ((·, ()) <$> form.setDefaultValue field expression) := by
  rw [Form.setDefaultValue, map_bind]
  refine .after (outcome_requireNode expression) ?_
  rw [map_bind]
  exact .after (outcome_requireKind field "field" NodeKind.isField) (does_modifyKind field _)

end

end StoreCall

namespace Form

/-- A call with its writes. It returns the identifier of the node that it adds, if it adds one. -/
def Call.writes : Call → StoreCall (Option NodeId)
  | .addJourney none code => some <$> StoreCall.insert none (.journey code)
  | .addJourney (some parent) code =>
    some <$> StoreCall.insertUnderKind parent "journey" NodeKind.isJourney (.journey code)
  | .addStep journey path =>
    some <$> StoreCall.insertUnderKind journey "journey" NodeKind.isJourney (.step path)
  | .addBlock parent variant => some <$> StoreCall.insertUnder parent (.block variant)
  | .addCollection parent code source => some <$> StoreCall.addCollection parent code source
  | .addField parent code variant =>
    some <$> StoreCall.insertUnder parent (.field ⟨code, variant, [], none⟩)
  | .addReference parent path => some <$> StoreCall.insertUnder parent (.reference ⟨path⟩)
  | .addFunction parent name arguments =>
    some <$> StoreCall.insertUnder parent (.function name arguments)
  | .addLiteral parent value => some <$> StoreCall.insertUnder parent (.literal value)
  | .addFormatter field name =>
    some <$> StoreCall.addLinked field "field" NodeKind.isField name withFormatter
  | .setDefaultValue field expression =>
    (fun _ => none) <$> StoreCall.setDefaultValue field expression
  | .addTransition scope trigger =>
    some <$> StoreCall.insertUnderKind scope "step or journey" NodeKind.isScope
      (.transition ⟨trigger, []⟩)
  | .addEffect transition name =>
    some <$> StoreCall.addLinked transition "transition" NodeKind.isTransition name withEffect
  | .onStore operation => do
    modify operation.applyTo
    return none

/-- The form and the identifier that a call returns. -/
def Call.answer (form : Form) : Call → Except StructureError (Form × Option NodeId)
  | .addJourney parent code => Prod.map id some <$> form.addJourney parent code
  | .addStep journey path => Prod.map id some <$> form.addStep journey path
  | .addBlock parent variant => Prod.map id some <$> form.addBlock parent variant
  | .addCollection parent code source =>
    Prod.map id some <$> form.addCollection parent code source
  | .addField parent code variant => Prod.map id some <$> form.addField parent code variant
  | .addReference parent path => Prod.map id some <$> form.addReference parent path
  | .addFunction parent name arguments =>
    Prod.map id some <$> form.addFunction parent name arguments
  | .addLiteral parent value => Prod.map id some <$> form.addLiteral parent value
  | .addFormatter field name => Prod.map id some <$> form.addFormatter field name
  | .setDefaultValue field expression => (·, none) <$> form.setDefaultValue field expression
  | .addTransition scope trigger => Prod.map id some <$> form.addTransition scope trigger
  | .addEffect transition name => Prod.map id some <$> form.addEffect transition name
  | .onStore operation => .ok ({ form with nodes := operation.applyTo form.nodes }, none)

namespace Call

/-- A call, with its writes one after the other, does what its function says. -/
theorem does (form : Form) (call : Call) : call.writes.Does form (call.answer form) := by
  cases call with
  | addJourney parent code =>
    cases parent with
    | none => exact (StoreCall.does_insert none (.journey code)).map some
    | some outer => exact (StoreCall.does_insertUnderKind outer _ _ _).map some
  | addStep journey path => exact (StoreCall.does_insertUnderKind journey _ _ _).map some
  | addBlock parent variant => exact (StoreCall.does_insertUnder parent _).map some
  | addCollection parent code source =>
    exact (StoreCall.does_addCollection parent code source).map some
  | addField parent code variant => exact (StoreCall.does_insertUnder parent _).map some
  | addReference parent path => exact (StoreCall.does_insertUnder parent _).map some
  | addFunction parent name arguments => exact (StoreCall.does_insertUnder parent _).map some
  | addLiteral parent value => exact (StoreCall.does_insertUnder parent _).map some
  | addFormatter field name =>
    exact (StoreCall.does_addLinked field _ _ name withFormatter).map some
  | setDefaultValue field expression =>
    have set : (StoreCall.setDefaultValue field expression).Does form _ :=
      StoreCall.does_setDefaultValue field expression
    have renamed := set.map fun _ => (none : Option NodeId)
    rwa [Functor.map_map] at renamed
  | addTransition scope trigger => exact (StoreCall.does_insertUnderKind scope _ _ _).map some
  | addEffect transition name =>
    exact (StoreCall.does_addLinked transition _ _ name withEffect).map some
  | onStore operation => exact ⟨rfl, rfl⟩

theorem map_fst_answer (form : Form) (call : Call) :
    Prod.fst <$> call.answer form = call.run form := by
  have forgets : ∀ result : Except StructureError Extended,
      Prod.fst <$> Prod.map id some <$> result = Prod.fst <$> result := by
    intro result
    cases result <;> rfl
  cases call with
  | setDefaultValue field expression =>
    rw [answer, run]
    cases form.setDefaultValue field expression <;> rfl
  | onStore operation => rfl
  | _ => exact forgets _

theorem exists_of_answer {result : Except StructureError Extended} {next : Form}
    {value : Option NodeId} (answered : Prod.map id some <$> result = .ok (next, value)) :
    ∃ id, result = .ok (next, id) ∧ value = some id := by
  obtain ⟨⟨_, id⟩, same, pair⟩ := Except.map_eq_ok_iff.1 answered
  cases pair
  exact ⟨id, same, rfl⟩

end Call

end Form

end FormFlow
