import FormFlow.Form.Node
import FormFlow.Json.Decoder

/-!
# Nodes in JSON

Each value is written field by field in declared order; a field that is absent is left out.
The kind of a node is an object whose first member names the kind. What is written is read
back, and reading also accepts what `FormFlow.Json.Decoder` says of structures: any order of
members, arrays of fields, `null` for an absent field.
-/

set_option autoImplicit false

namespace FormFlow

namespace NodeId

/-- An identifier is written as its number. -/
def toJson (id : NodeId) : Json := .nat id.val

/-- Reads an identifier. -/
def reader : Reader NodeId := fun stage document =>
  NodeId.mk <$> Reader.natBelow identBound stage document

end NodeId

namespace PseudoKind

/-- Every kind by name. -/
def names : List (String × PseudoKind) := all.map fun kind => (kind.text, kind)

/-- Reads a kind of pseudo-node. -/
def reader : Reader PseudoKind := Reader.choice names

end PseudoKind

namespace Trigger

/-- Every trigger by name. -/
def names : List (String × Trigger) := all.map fun trigger => (trigger.text, trigger)

/-- Reads a trigger. -/
def reader : Reader Trigger := Reader.choice names

end Trigger

/-- An identity as JSON. -/
def PseudoKey.toJson (identity : PseudoKey) : Json :=
  .obj [("kind", .str identity.kind.text), ("scope", identity.scope.toJson),
    ("key", .str identity.key)]

/-- The fields of a pseudo-node. -/
def Pseudo.members (definition : Pseudo) : List (String × Json) :=
  [("kind", .str definition.kind.text), ("scope", definition.scope.toJson),
    ("key", .str definition.key)] ++
  Json.member? "origin" (definition.origin.map NodeId.toJson)

/-- A pseudo-node as JSON. -/
def Pseudo.toJson (definition : Pseudo) : Json := .obj definition.members

/-- A list of identifiers as JSON. -/
def identsToJson (ids : List NodeId) : Json := .arr (ids.map NodeId.toJson)

/-- A list of strings as JSON. -/
def textsToJson (texts : List String) : Json := .arr (texts.map Json.str)

namespace NodeKind

/-- The fields of a kind. -/
def members : NodeKind → List (String × Json)
  | .journey code => [("code", .str code)]
  | .step path => [("path", .str path)]
  | .block variant => [("variant", .str variant)]
  | .collection definition =>
    ("code", .str definition.code) ::
      Json.member? "source" (definition.source.map NodeId.toJson)
  | .field definition =>
    [("code", .str definition.code), ("variant", .str definition.variant),
      ("formatters", identsToJson definition.formatters)] ++
    Json.member? "default_value" (definition.defaultValue.map NodeId.toJson)
  | .reference expression => [("path", textsToJson expression.path)]
  | .function name arguments => [("name", .str name), ("arguments", identsToJson arguments)]
  | .literal value => [("value", value)]
  | .transition definition =>
    [("trigger", .str definition.trigger.text), ("effects", identsToJson definition.effects)]
  | .pseudo definition => definition.members
  | .iteration owner index => [("collection", owner.toJson), ("index", .nat index)]

/-- A kind as JSON. -/
def toJson (kind : NodeKind) : Json := .obj (("type", .str kind.tag) :: kind.members)

end NodeKind

/-- A node as JSON. -/
def Node.toJson (node : Node) : Json :=
  .obj ([("id", node.id.toJson)] ++ Json.member? "parent" (node.parent.map NodeId.toJson) ++
    [("kind", node.kind.toJson)])

/-! ## Reading -/

/-- Reads a list of identifiers. -/
def identsReader : Reader (List NodeId) := Reader.list NodeId.reader

/-- Reads an index of an iteration or a formatter. -/
def indexReader : Reader Nat := Reader.natBelow indexBound

open Reader (Shape string)

namespace Pseudo

/-- The shape of a pseudo-node. -/
def shape : Shape Pseudo :=
  (((Shape.field "kind" PseudoKind.reader).and (Shape.field "scope" NodeId.reader)).and
    ((Shape.field "key" string).and (Shape.fieldOpt "origin" NodeId.reader))).map
      fun ((kind, scope), (key, origin)) => ⟨⟨kind, scope, key⟩, origin⟩

end Pseudo

namespace NodeKind

/-- The names of the kinds, in declared order. -/
inductive Tag where
  | journey
  | step
  | block
  | collection
  | field
  | reference
  | function
  | literal
  | transition
  | pseudo
  | iteration
deriving DecidableEq, Repr, Inhabited

/-- Every tag by name. -/
def tags : List (String × Tag) :=
  [("journey", .journey), ("step", .step), ("block", .block), ("collection", .collection),
    ("field", .field), ("reference", .reference), ("function", .function),
    ("literal", .literal), ("transition", .transition), ("pseudo", .pseudo),
    ("iteration", .iteration)]

/-- The shape of the kind with a tag. -/
def shape : Tag → Shape NodeKind
  | .journey => (Shape.field "code" string).map .journey
  | .step => (Shape.field "path" string).map .step
  | .block => (Shape.field "variant" string).map .block
  | .collection =>
    ((Shape.field "code" string).and (Shape.fieldOpt "source" NodeId.reader)).map
      fun (code, source) => .collection ⟨code, source⟩
  | .field =>
    (((Shape.field "code" string).and (Shape.field "variant" string)).and
      ((Shape.fieldOr "formatters" identsReader []).and
        (Shape.fieldOpt "default_value" NodeId.reader))).map
      fun ((code, variant), (formatters, defaultValue)) =>
        .field ⟨code, variant, formatters, defaultValue⟩
  | .reference => (Shape.field "path" (Reader.list string)).map fun path => .reference ⟨path⟩
  | .function =>
    ((Shape.field "name" string).and (Shape.fieldOr "arguments" identsReader [])).map
      fun (name, arguments) => .function name arguments
  | .literal => (Shape.field "value" Reader.json).map .literal
  | .transition =>
    ((Shape.field "trigger" Trigger.reader).and (Shape.fieldOr "effects" identsReader [])).map
      fun (trigger, effects) => .transition ⟨trigger, effects⟩
  | .pseudo => Pseudo.shape.map .pseudo
  | .iteration =>
    ((Shape.field "collection" NodeId.reader).and (Shape.field "index" indexReader)).map
      fun (owner, index) => .iteration owner index

/-- Reads a kind. -/
def reader : Reader NodeKind := Reader.tagged "type" tags fun tag content =>
  content.structured (shape tag)

end NodeKind

namespace Node

/-- The shape of a node. -/
def shape : Shape Node :=
  ((Shape.field "id" NodeId.reader).and
    ((Shape.fieldOpt "parent" NodeId.reader).and (Shape.field "kind" NodeKind.reader))).map
      fun (id, (parent, kind)) => ⟨id, parent, kind⟩

/-- Reads a node. -/
def reader : Reader Node := Reader.structured shape

end Node

end FormFlow
