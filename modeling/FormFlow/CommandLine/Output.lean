import FormFlow.Graph.Order
import FormFlow.Request.Scope
import FormFlow.Serial.Form
import FormFlow.Serial.Graph

/-!
# What the commands write

Dependencies and orders of evaluation, as lines for people and as JSON. In JSON the keys of
every object are sorted.
-/

set_option autoImplicit false

namespace FormFlow

namespace CommandLine

/-- A short label for the kind of a node. -/
def kindLabel : NodeKind → String
  | .pseudo definition => definition.kind.text ++ "(" ++ definition.key ++ ")"
  | .field definition => "field " ++ definition.code
  | .reference expression => "ref " ++ String.intercalate "." expression.path
  | .function name _ => "fn " ++ name
  | .collection definition => "collection " ++ definition.code
  | .step path => "step " ++ path
  | other => other.tag

/-- A label for a node: its identifier and its kind. -/
def describe {σ : Type} [NodeSource σ] (nodes : σ) (id : NodeId) : String :=
  match NodeSource.node? nodes id with
  | some node => id.text ++ " " ++ kindLabel node.kind
  | none => id.text ++ " <missing>"

/-- A line of text. -/
def line (text : String) : String := text ++ "\n"

/-- An edge as a line. -/
def edgeLine {σ : Type} [NodeSource σ] (nodes : σ) (edge : Edge) : String :=
  let property :=
    match edge.metadata.property with
    | some name => " [" ++ name ++ "]"
    | none => ""
  line (edge.id.text ++ "  " ++ describe nodes edge.producer ++ " -> " ++
    describe nodes edge.consumer ++ "  " ++ edge.role.label ++ property)

/-- A text filled up with spaces to a width. -/
def padRight (width : Nat) (text : String) : String :=
  text ++ String.ofList (List.replicate (width - text.length) ' ')

/-- The counts of a family as a line. -/
def familyLine (entry : Family × WireStats) : String :=
  line ("  " ++ padRight 7 entry.1.text ++ " producers=" ++ toString entry.2.producers ++
    " consumers=" ++ toString entry.2.consumers)

/-- A wired form as lines. -/
def wireText (wired : WiredForm) : String :=
  line ("form " ++ wired.form.code ++ ": " ++ toString wired.report.steps ++ " step(s), " ++
    toString wired.report.pseudoNodes ++ " pseudo-node(s), " ++ toString wired.graph.size ++
    " edge(s)") ++
  String.join (wired.report.families.map familyLine) ++
  String.join (wired.graph.edges.map (edgeLine wired.form.nodes))

/-- An order of evaluation as lines. -/
def orderText (nodes : NodeStore) (order : List NodeId) : String :=
  String.join (order.map fun id => line (id.text ++ "  " ++ describe nodes id))

/-- What a request added, as lines. -/
def iterateText (request : RequestScope) (name collection : String) (count : Nat) : String :=
  line ("request " ++ name ++ ": " ++ toString count ++ " iteration(s) of '" ++ collection ++
    "', " ++ toString request.overlay.nodes.size ++ " overlay node(s), " ++
    toString request.overlay.graph.size ++ " overlay edge(s)") ++
  String.join (request.overlay.graph.edges.map (edgeLine request.layers))

/-! ## JSON -/

/-- A JSON value as text with a line break. -/
def jsonText (value : Json) : String := line value.normalize.pretty

/-- The report of a pass. -/
def reportJson (report : WiringReport) : Json :=
  .obj [("steps", .nat report.steps), ("pseudo_nodes", .nat report.pseudoNodes),
    ("modules", .obj (report.families.map fun entry =>
      (entry.1.text, .obj [("producers", .nat entry.2.producers),
        ("consumers", .nat entry.2.consumers)])))]

/-- A list of edges. -/
def edgesJson (edges : List Edge) : Json := .arr (edges.map Edge.toJson)

/-- A wired form. -/
def wireJson (wired : WiredForm) (fingerprint : String) : Json :=
  .obj [("form", .str wired.form.code), ("fingerprint", .str fingerprint),
    ("report", reportJson wired.report), ("edges", edgesJson wired.graph.edges)]

/-- An order of evaluation. -/
def orderJson (nodes : NodeStore) (order : List NodeId) : Json :=
  .arr (order.map fun id => .obj [("id", id.toJson), ("node", .str (describe nodes id))])

/-- An iteration. -/
def iterationJson (made : Iteration) : Json :=
  .obj [("index", .nat made.index), ("node", made.node.toJson),
    ("renamed", .obj (made.renamed.map fun entry => (entry.1, .str entry.2))),
    ("pseudo_nodes", identsToJson made.pseudoNodes), ("report", reportJson made.report)]

/-- What a request added. -/
def iterateJson (request : RequestScope) (name : String) (collection : NodeId)
    (made : List Iteration) : Json :=
  .obj [("request", .str name), ("collection", collection.toJson),
    ("iterations", .arr (made.map iterationJson)),
    ("edges", edgesJson request.overlay.graph.edges)]

end CommandLine

end FormFlow
