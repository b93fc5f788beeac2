import FormFlow.Graph.Order
import FormFlow.Request.History
import FormFlow.Request.Template
import FormFlow.Wiring.WiredForm

/-!
# Requests

A request reads a wired form and keeps what it creates in a store and a graph of its own,
the identifiers of which start above those of the form. `RequestScope.materialize` makes an
iteration of a collection there: the template is copied under a new node, codes are renamed,
the pseudo-nodes that the copy needs are made, and the new nodes are wired. If that fails at
any point, the store and the graph are cut back to where they were.
-/

set_option autoImplicit false

namespace FormFlow

/-- An iteration of a collection. -/
structure Iteration where
  /-- The node under which the template was copied. -/
  node : NodeId
  collection : NodeId
  index : Nat
  /-- The step of the collection. -/
  step : NodeId
  /-- The copies, in the order of the template. -/
  nodes : List NodeId
  /-- The pseudo-nodes that were made. -/
  pseudoNodes : List NodeId
  /-- New codes of fields by their old ones. -/
  renamed : List (String × String)
  report : WiringReport
deriving Repr, Inhabited

/-- What a request adds to a form. -/
structure Overlay where
  nodes : NodeStore
  graph : DependencyGraph
deriving Repr, Inhabited

/-- The state of a request. -/
structure RequestScope where
  wired : WiredForm
  overlay : Overlay
  iterations : List Iteration
  answers : AnswerHistory
deriving Inhabited

namespace RequestScope

/-- A request over a wired form. -/
def start (wired : WiredForm) : RequestScope where
  wired := wired
  overlay := ⟨.startingAt wired.nodeMark, .startingAt wired.edgeMark⟩
  iterations := []
  answers := .empty

/-- The nodes of a form with those of a request over them. -/
def layersOver (wired : WiredForm) (overlay : Overlay) : Layered :=
  ⟨wired.form.nodes, overlay.nodes⟩

/-- The nodes of the form with those of the request over them. -/
def layers (request : RequestScope) : Layered := layersOver request.wired request.overlay

/-- The edges into a node, those of the form first. -/
def edgesTo (request : RequestScope) (consumer : NodeId) : List Edge :=
  request.wired.graph.edgesTo consumer ++ request.overlay.graph.edgesTo consumer

/-- The edges out of a node, those of the form first. -/
def edgesFrom (request : RequestScope) (producer : NodeId) : List Edge :=
  request.wired.graph.edgesFrom producer ++ request.overlay.graph.edgesFrom producer

/-- One graph with the edges of the form and of the request. -/
def mergedGraph (request : RequestScope) : DependencyGraph :=
  request.wired.graph.extend request.overlay.graph

/-- The nodes with dependencies in the form or the request, producers first. -/
def order (request : RequestScope) : Except StructureError (List NodeId) :=
  evaluationOrder [request.wired.graph, request.overlay.graph]

/-- The local answer with a code in a step. -/
def answerNode? (request : RequestScope) (step : NodeId) (code : String) : Option NodeId :=
  request.layers.pseudo? ⟨.answerLocal, step, code⟩

/-- The producers of the local answer with a code in a step, in the order of replay. -/
def answerProducers (request : RequestScope) (step : NodeId) (code : String) :
    List (AnswerSource × NodeId) :=
  match request.answerNode? step code with
  | some answer => producerRoles (request.edgesTo answer)
  | none => []

/-- The collection with a code, first in the form and then among the copies. -/
def collectionByCode (request : RequestScope) (code : String) : Except RequestError NodeId :=
  let all := request.wired.form.nodes.nodes ++ request.overlay.nodes.nodes
  match all.find? fun node => node.kind.collection?.map Collection.code = some code with
  | some node => .ok node.id
  | none => .error (.unknownCollection code)

/-- The iteration of a collection with an index, if it was made. -/
def iteration? (request : RequestScope) (collection : NodeId) (index : Nat) :
    Option Iteration :=
  request.iterations.find? fun it => it.collection = collection && it.index = index

/-! ## Making an iteration -/

/-- The copies' identifiers: the first one for the first node of the template, and so on. -/
def copyIds (nodes : List TemplateNode) (first : Nat) (counting : Counting := .endless) :
    List (NodeId × NodeId) :=
  nodes.zipIdx.map fun entry => (entry.1.node.id, ⟨counting.ahead first entry.2⟩)

/-- The copy of a node if it has one, and otherwise the node itself. -/
def copyOf (copies : List (NodeId × NodeId)) (id : NodeId) : NodeId :=
  (copies.lookup id).getD id

/-- The copy of a template node under an iteration. -/
def copyNode (template : Template) (scheme : Renaming) (copies : List (NodeId × NodeId))
    (iteration : NodeId) (entry : TemplateNode) : Node where
  id := copyOf copies entry.node.id
  parent := entry.node.parent.map fun parent =>
    if parent = template.collection then iteration else copyOf copies parent
  kind := scheme.apply entry.direct (entry.node.kind.remapIds (copyOf copies))

/-- Inserts nodes in order, up to the first that cannot be inserted. -/
def insertAll (nodes : List Node) (store : NodeStore) (counting : Counting := .endless) :
    NodeStore × Option StructureError :=
  match nodes with
  | [] => (store, none)
  | node :: rest =>
    match store.addNode node counting with
    | .ok extended => insertAll rest extended counting
    | .error error => (store, some error)

/-- A renamed code that is already that of a local answer. -/
def collision? (layers : Layered) (step : NodeId) (scheme : Renaming) : Option String :=
  (scheme.fields.map Prod.snd).find? fun code =>
    (layers.pseudo? ⟨.answerLocal, step, code⟩).isSome

/-- An overlay after an attempt to make an iteration, which leaves it as far as it came. -/
structure Attempt where
  overlay : Overlay
  result : Except RequestError Iteration
deriving Inhabited

/-- An attempt that failed. -/
def Attempt.failed (overlay : Overlay) (error : RequestError) : Attempt := ⟨overlay, .error error⟩

/-- Makes the pseudo-nodes for a copied template and wires the new nodes. -/
def connect (wired : WiredForm) (template : Template) (scheme : Renaming) (index : Nat)
    (iteration : NodeId) (copies : List NodeId) (overlay : Overlay)
    (counting : Counting := .endless) : Attempt :=
  let batch := iteration :: copies
  match Synthesis.makeBatch counting (layersOver wired overlay) template.step batch with
  | .error stopped =>
    .failed { overlay with nodes := stopped.nodes.overlay } (.structural stopped.error)
  | .ok made =>
    let pass := Pass.wireNodes made.nodes wired.scopes wired.config (batch ++ made.created)
      overlay.graph
    let extended : Overlay := ⟨made.nodes.overlay, pass.graph⟩
    match pass.report with
    | .error error => .failed extended (.wiring error)
    | .ok report =>
      ⟨extended, .ok {
        node := iteration
        collection := template.collection
        index := index
        step := template.step
        nodes := copies
        pseudoNodes := made.created
        renamed := scheme.fields
        report := report }⟩

/-- Copies a template under a new iteration, and connects the copy. -/
def copyTemplate (wired : WiredForm) (template : Template) (scheme : Renaming) (index : Nat)
    (overlay : Overlay) (counting : Counting := .endless) : Attempt :=
  match overlay.nodes.add (some template.collection)
      (.iteration template.collection index) counting with
  | .error error => .failed overlay (.structural error)
  | .ok (store, iteration) =>
    let copies := copyIds template.nodes store.nextId counting
    let nodes := template.nodes.map (copyNode template scheme copies iteration)
    match insertAll nodes store counting with
    | (reached, some error) => .failed { overlay with nodes := reached } (.structural error)
    | (complete, none) =>
      connect wired template scheme index iteration (nodes.map Node.id)
        { overlay with nodes := complete } counting

/-- Makes an iteration of a collection. -/
def build (wired : WiredForm) (overlay : Overlay) (collection : NodeId) (index : Nat)
    (counting : Counting := .endless) : Attempt :=
  let layers := layersOver wired overlay
  match Template.read layers wired.scopes collection with
  | .error error => .failed overlay error
  | .ok template =>
    let scheme := Renaming.ofTemplate template index
    match collision? layers template.step scheme with
    | some code => .failed overlay (.codeCollision code template.step)
    | none => copyTemplate wired template scheme index overlay counting

/-- Cuts an overlay back to where another one ends. -/
def rollBack (before after : Overlay) : Overlay :=
  ⟨after.nodes.truncate before.nodes.nextId, after.graph.truncate before.graph.nextId⟩

/-- The iteration of a collection with an index, made if it is not there. A failure leaves
the request as it was. -/
def materialize (request : RequestScope) (collection : NodeId) (index : Nat)
    (counting : Counting := .endless) : RequestScope × Except RequestError Iteration :=
  match request.iteration? collection index with
  | some found => (request, .ok found)
  | none =>
    let attempt := build request.wired request.overlay collection index counting
    match attempt.result with
    | .ok made =>
      ({ request with
          overlay := attempt.overlay
          iterations := request.iterations ++ [made] }, .ok made)
    | .error error =>
      ({ request with overlay := rollBack request.overlay attempt.overlay }, .error error)

end RequestScope

end FormFlow
