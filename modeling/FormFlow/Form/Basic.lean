import FormFlow.Form.Store

/-!
# Forms and their construction

A form is a store of nodes under a code. It is built call by call: each call adds one node
and returns its identifier, after checking that the nodes it names exist and are of the kind
it needs. A call that fails returns no form, so the form it was made on stays as it is.
-/

set_option autoImplicit false

namespace FormFlow

/-- A compiled form. -/
structure Form where
  /-- The code under which the form is registered. -/
  code : String
  nodes : NodeStore
deriving Repr, Inhabited

namespace Form

/-- A form without nodes. -/
def empty (code : String) : Form := ⟨code, .empty⟩

/-- A form after a call, with the node that the call added. -/
abbrev Extended := Form × NodeId

/-- Succeeds if a node exists. -/
def requireNode (form : Form) (id : NodeId) : Except StructureError Unit := do
  let _ ← form.nodes.get id

/-- Succeeds if a node exists and is of the kind that is expected. -/
def requireKind (form : Form) (id : NodeId) (expected : String) (test : NodeKind → Bool) :
    Except StructureError Unit := do
  let node ← form.nodes.get id
  if test node.kind then return ()
  else .error (.unexpectedKind id expected node.kind.tag)

/-- Inserts a node under a parent, which is not checked. -/
def insert (form : Form) (parent : Option NodeId) (kind : NodeKind) :
    Except StructureError Extended := do
  let (nodes, id) ← form.nodes.insert parent kind
  return ({ form with nodes }, id)

/-- Inserts a node under a parent, which has to exist. -/
def insertUnder (form : Form) (parent : NodeId) (kind : NodeKind) :
    Except StructureError Extended := do
  form.requireNode parent
  form.insert (some parent) kind

/-- Inserts a node under a parent, which has to be of the kind that is expected. -/
def insertUnderKind (form : Form) (parent : NodeId) (expected : String)
    (test : NodeKind → Bool) (kind : NodeKind) : Except StructureError Extended := do
  form.requireKind parent expected test
  form.insert (some parent) kind

/-- Replaces the kind of a node. -/
def setKind (form : Form) (id : NodeId) (kind : NodeKind) : Except StructureError Form := do
  let nodes ← form.nodes.setKind id kind
  return { form with nodes }

/-! ## Structure -/

/-- Adds a journey at the top or within a journey. -/
def addJourney (form : Form) (parent : Option NodeId) (code : String) :
    Except StructureError Extended :=
  match parent with
  | some outer => form.insertUnderKind outer "journey" NodeKind.isJourney (.journey code)
  | none => form.insert none (.journey code)

/-- Adds a step to a journey. -/
def addStep (form : Form) (journey : NodeId) (path : String) : Except StructureError Extended :=
  form.insertUnderKind journey "journey" NodeKind.isJourney (.step path)

/-- Adds a block. -/
def addBlock (form : Form) (parent : NodeId) (variant : String) :
    Except StructureError Extended :=
  form.insertUnder parent (.block variant)

/-- Adds a repeated block, the items of which an existing expression yields. -/
def addCollection (form : Form) (parent : NodeId) (code : String) (source : Option NodeId) :
    Except StructureError Extended := do
  form.requireNode parent
  source.forM form.requireNode
  form.insert (some parent) (.collection ⟨code, source⟩)

/-- Adds a field. -/
def addField (form : Form) (parent : NodeId) (code variant : String) :
    Except StructureError Extended :=
  form.insertUnder parent (.field ⟨code, variant, [], none⟩)

/-! ## Expressions -/

/-- Adds a reference. -/
def addReference (form : Form) (parent : NodeId) (path : List String) :
    Except StructureError Extended :=
  form.insertUnder parent (.reference ⟨path⟩)

/-- Adds a function call. -/
def addFunction (form : Form) (parent : NodeId) (name : String) (arguments : List NodeId) :
    Except StructureError Extended :=
  form.insertUnder parent (.function name arguments)

/-- Adds a constant. -/
def addLiteral (form : Form) (parent : NodeId) (value : Json) : Except StructureError Extended :=
  form.insertUnder parent (.literal value)

/-- Appends a formatter to the properties of a field. -/
def withFormatter (formatter : NodeId) : NodeKind → NodeKind
  | .field definition =>
    .field { definition with formatters := definition.formatters ++ [formatter] }
  | other => other

/-- Sets the default value in the properties of a field. -/
def withDefault (expression : NodeId) : NodeKind → NodeKind
  | .field definition => .field { definition with defaultValue := some expression }
  | other => other

/-- Appends an effect to the properties of a transition. -/
def withEffect (effect : NodeId) : NodeKind → NodeKind
  | .transition definition =>
    .transition { definition with effects := definition.effects ++ [effect] }
  | other => other

/-- Changes the properties of a node. -/
def modifyKind (form : Form) (id : NodeId) (change : NodeKind → NodeKind) :
    Except StructureError Form := do
  let node ← form.nodes.get id
  form.setKind id (change node.kind)

/-- Appends a formatter call to a field. -/
def addFormatter (form : Form) (field : NodeId) (name : String) :
    Except StructureError Extended := do
  form.requireKind field "field" NodeKind.isField
  let (extended, formatter) ← form.addFunction field name []
  let linked ← extended.modifyKind field (withFormatter formatter)
  return (linked, formatter)

/-- Makes an existing expression the default value of a field. -/
def setDefaultValue (form : Form) (field expression : NodeId) : Except StructureError Form := do
  form.requireNode expression
  form.requireKind field "field" NodeKind.isField
  form.modifyKind field (withDefault expression)

/-! ## Transitions -/

/-- Adds a transition to a step or journey. -/
def addTransition (form : Form) (scope : NodeId) (trigger : Trigger) :
    Except StructureError Extended :=
  form.insertUnderKind scope "step or journey" NodeKind.isScope (.transition ⟨trigger, []⟩)

/-- Appends an effect call to a transition. -/
def addEffect (form : Form) (transition : NodeId) (name : String) :
    Except StructureError Extended := do
  form.requireKind transition "transition" NodeKind.isTransition
  let (extended, effect) ← form.addFunction transition name []
  let linked ← extended.modifyKind transition (withEffect effect)
  return (linked, effect)

end Form

end FormFlow
