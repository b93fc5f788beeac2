import FormFlow.Form.ScopeTree
import FormFlow.Request.Error
import FormFlow.Request.Layered
import FormFlow.Wiring.Membership

/-!
# Collection templates

What stands below a collection is its template, except for iterations that are there
already. `Template.read` lists the template in pre-order and tells its own nodes from those
of templates nested in it.

An iteration renames the codes of its own fields and collections to
`{collection}_{index}_{code}`. References to answers and submitted values follow the renamed
fields (`Renaming.apply`), unless a template nested in this one declares a field of the same
code, which then stands nearer.
-/

set_option autoImplicit false

namespace FormFlow

/-- A node of a template. -/
structure TemplateNode where
  node : Node
  /-- Whether it belongs to the template itself rather than to one nested in it. -/
  direct : Bool
deriving Repr, Inhabited

/-- A collection template. -/
structure Template where
  collection : NodeId
  code : String
  /-- The step of the collection. -/
  step : NodeId
  /-- The nodes below the collection, in pre-order. -/
  nodes : List TemplateNode
deriving Repr, Inhabited

namespace Template

/-- Takes nodes off a stack, each with its children put back in its place; iterations are
left out with what stands below them. -/
def unfold (layers : Layered) (holder : NodeStore) (collection : NodeId) :
    (fuel : Nat) → List NodeId → Except StructureError (List TemplateNode)
  | 0, _ => .ok []
  | _, [] => .ok []
  | fuel + 1, id :: stack => do
    let node ← holder.get id
    if node.kind.isIteration then unfold layers holder collection fuel stack
    else
      let direct := (NodeSource.repeatedAbove? layers node).map Node.id = some collection
      let rest ← unfold layers holder collection fuel (holder.children id ++ stack)
      return ⟨node, direct⟩ :: rest

/-- Reads the template of a collection that belongs to no open template. -/
def read (layers : Layered) (scopes : ScopeTree) (collection : NodeId) :
    Except RequestError Template := do
  let node ← (NodeSource.get layers collection).mapError RequestError.structural
  match node.kind.collection? with
  | none => .error (.notACollection collection)
  | some definition =>
    if NodeSource.inOpenTemplate layers node then .error (.openTemplate collection)
    else
      match (NodeSource.owningStep? layers collection).filter scopes.isStep with
      | none => .error (.wiring (.unknownStep collection))
      | some step =>
        let holder := layers.holder collection
        let nodes ← (unfold layers holder collection (holder.containment.length + 1)
          (holder.children collection)).mapError RequestError.structural
        return ⟨collection, definition.code, step, nodes⟩

end Template

/-- The new codes of one iteration. -/
structure Renaming where
  /-- What stands in front of the codes. -/
  opening : String
  /-- New codes of the template's own fields, in the order of the template. -/
  fields : List (String × String)
  /-- Codes of fields in nested templates. -/
  shadowed : List String
deriving DecidableEq, Repr, Inhabited

namespace Renaming

/-- A code behind an opening. -/
def join (opening code : String) : String := opening ++ "_" ++ code

/-- What stands in front of the codes of an iteration. -/
def openingOf (code : String) (index : Nat) : String := join code (toString index)

/-- Adds the new code of a field, unless its code has one. -/
def addField (opening : String) (fields : List (String × String)) (code : String) :
    List (String × String) :=
  if (fields.lookup code).isSome then fields else fields ++ [(code, join opening code)]

/-- The codes of the fields among some template nodes. -/
def fieldCodes (nodes : List TemplateNode) : List String :=
  nodes.filterMap fun entry => entry.node.kind.field?.map Field.code

/-- The renaming of an iteration of a template. -/
def ofTemplate (template : Template) (index : Nat) : Renaming :=
  let opening := openingOf template.code index
  { opening := opening
    fields := (fieldCodes (template.nodes.filter TemplateNode.direct)).foldl
      (addField opening) []
    shadowed := fieldCodes (template.nodes.filter fun entry => !entry.direct) }

/-- The new key of a reference. -/
def key (scheme : Renaming) (direct : Bool) (old : String) : String :=
  if !direct && scheme.shadowed.contains old then old
  else (scheme.fields.lookup old).getD old

/-- A path with its second segment changed. -/
def mapKey (change : String → String) : List String → List String
  | first :: second :: rest => first :: change second :: rest
  | short => short

/-- Renames the codes in the copy of a template node. -/
def apply (scheme : Renaming) (direct : Bool) : NodeKind → NodeKind
  | .field definition =>
    if direct then
      .field { definition with
        code := (scheme.fields.lookup definition.code).getD definition.code }
    else .field definition
  | .collection definition =>
    if direct then .collection { definition with code := join scheme.opening definition.code }
    else .collection definition
  | .reference expression =>
    if expression.isIn .answers || expression.isIn .post then
      .reference ⟨mapKey (scheme.key direct) expression.path⟩
    else .reference expression
  | other => other

end Renaming

end FormFlow
