import FormFlow.Graph.Basic
import FormFlow.Serial.Node

/-!
# Dependency graphs in JSON

A graph is written with the number of its first identifier and its edges. When it is read,
the edges get new identifiers in the order of the text, and a connection that is there
already is left out.
-/

set_option autoImplicit false

namespace FormFlow

open Reader (Shape string)

namespace Role

/-- Every role by name. -/
def names : List (String × Role) := all.map fun role => (role.text, role)

/-- Reads a role. -/
def reader : Reader Role := Reader.choice names

end Role

namespace Namespace

/-- Every namespace by name. -/
def names : List (String × Namespace) := all.map fun space => (space.text, space)

/-- Reads a namespace. -/
def reader : Reader Namespace := Reader.choice names

end Namespace

namespace EdgeMetadata

/-- Metadata as JSON. -/
def toJson (metadata : EdgeMetadata) : Json :=
  .obj (Json.member? "field_code" (metadata.fieldCode.map Json.str) ++
    Json.member? "property" (metadata.property.map Json.str) ++
    Json.member? "reference" (metadata.reference.map fun space => .str space.text))

/-- The shape of metadata. -/
def shape : Shape EdgeMetadata :=
  ((Shape.fieldOpt "field_code" string).and
    ((Shape.fieldOpt "property" string).and (Shape.fieldOpt "reference" Namespace.reader))).map
      fun (fieldCode, (property, reference)) => ⟨fieldCode, property, reference⟩

/-- Reads metadata. -/
def reader : Reader EdgeMetadata := Reader.structured shape

end EdgeMetadata

namespace Edge

/-- An edge as JSON. -/
def toJson (edge : Edge) : Json :=
  .obj [("id", .nat edge.id.val), ("producer", edge.producer.toJson),
    ("consumer", edge.consumer.toJson), ("role", .str edge.role.text),
    ("metadata", edge.metadata.toJson)]

/-- The shape of an edge. -/
def shape : Shape Edge :=
  ((Shape.field "id" (Reader.natBelow identBound)).and
    (((Shape.field "producer" NodeId.reader).and (Shape.field "consumer" NodeId.reader)).and
      ((Shape.field "role" Role.reader).and
        (Shape.fieldOr "metadata" EdgeMetadata.reader .empty)))).map
      fun (id, ((producer, consumer), (role, metadata))) =>
        ⟨⟨id⟩, producer, consumer, role, metadata⟩

/-- Reads an edge. -/
def reader : Reader Edge := Reader.structured shape

end Edge

namespace DependencyGraph

/-- A graph as JSON. -/
def toJson (graph : DependencyGraph) : Json :=
  .obj [("first_edge_id", .nat graph.firstId), ("edges", .arr (graph.edges.map Edge.toJson))]

/-- The shape of a graph. -/
def shape : Shape DependencyGraph :=
  ((Shape.fieldOr "first_edge_id" (Reader.natBelow identBound) 0).and
    (Shape.field "edges" (Reader.list Edge.reader))).map fun (first, edges) => ofEdges edges first

/-- Reads a graph. -/
def reader : Reader DependencyGraph := Reader.structured shape

/-- Reads a graph from its text. -/
def ofText (text : String) : Except ReadError DependencyGraph := Reader.ofText reader text

end DependencyGraph

end FormFlow
