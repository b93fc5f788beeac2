import FormFlow.Graph.Basic
import FormFlow.Graph.Property
import FormFlow.Wiring.Error

/-!
# What the families of wiring ask for

Wiring falls into families, each of which connects pseudo-nodes of its own. A family does not
touch the graph: it drafts a list of connections, in which an error stands at the place where
wiring fails. `Draft.applyTo` adds the connections in front of the first error to a graph and
says which of them were new.

So a draft says everything about a pass: it succeeds exactly when no error is in it, and the
error that it fails with is the first one.
-/

set_option autoImplicit false

namespace FormFlow

/-- A family of wiring, in the order in which families run. Families that others read from
come first. -/
inductive Family where
  | post
  | query
  | params
  | data
  | answer
  | selfValue
  | item
deriving DecidableEq, Repr, Inhabited

namespace Family

/-- Every family, in the order in which they run. -/
def all : List Family := [.post, .query, .params, .data, .answer, .selfValue, .item]

/-- The name of a family. -/
def text : Family → String
  | .post => "post"
  | .query => "query"
  | .params => "params"
  | .data => "data"
  | .answer => "answer"
  | .selfValue => "self"
  | .item => "item"

end Family

/-- What a connection is for. -/
inductive Purpose where
  /-- The producer fills a property of a pseudo-node. -/
  | fills (property : String)
  /-- A reference reads a pseudo-node through a namespace. -/
  | reads (space : Namespace)
deriving DecidableEq, Repr, Inhabited

/-- A connection that a family asks for. -/
structure Connection where
  family : Family
  producer : NodeId
  consumer : NodeId
  role : Role
  /-- The code or other key that the connection is made for. -/
  key : String
  purpose : Purpose
deriving DecidableEq, Repr, Inhabited

namespace Connection

/-- Producer, consumer and role of a connection. -/
def triple (c : Connection) : Triple := ⟨c.producer, c.consumer, c.role⟩

/-- The metadata of the edge that a connection becomes. -/
def metadata (c : Connection) : EdgeMetadata :=
  match c.purpose with
  | .fills property => ⟨some c.key, some property, none⟩
  | .reads space => ⟨some c.key, none, some space⟩

/-- Whether a connection leads into a pseudo-node. -/
def isProducer (c : Connection) : Bool :=
  match c.purpose with
  | .fills _ => true
  | .reads _ => false

end Connection

/-- Connections in order, with an error wherever wiring fails. -/
abbrev Draft := List (Except WiringError Connection)

/-- What became of a draft: the graph, the connections that were new, and the error that
ended it. -/
structure Outcome where
  graph : DependencyGraph
  added : List Connection
  failure : Option WiringError
deriving Repr, Inhabited

namespace Draft

/-- A draft that needs a value: if the value cannot be had, that is the draft's error. -/
def after {α : Type} (value : Except WiringError α) (draft : α → Draft) : Draft :=
  match value with
  | .ok found => draft found
  | .error error => [.error error]

/-- Adds the connections in front of the first error. -/
def applyTo : Draft → DependencyGraph → Outcome
  | [], graph => ⟨graph, [], none⟩
  | .error error :: _, graph => ⟨graph, [], some error⟩
  | .ok c :: rest, graph =>
    let (extended, fresh) := graph.add c.triple c.metadata
    let outcome := applyTo rest extended
    if fresh then { outcome with added := c :: outcome.added } else outcome

/-- The first error of a draft. -/
def failure? (draft : Draft) : Option WiringError :=
  draft.findSome? fun entry =>
    match entry with
    | .ok _ => none
    | .error error => some error

/-- A draft fails with its first error. -/
@[simp]
theorem failure_applyTo (draft : Draft) (graph : DependencyGraph) :
    (draft.applyTo graph).failure = draft.failure? := by
  induction draft generalizing graph with
  | nil => rfl
  | cons entry rest ih =>
    cases entry with
    | error error => rfl
    | ok c =>
      simp only [applyTo, failure?, List.findSome?_cons]
      split <;> simp [ih, failure?]

end Draft

/-- How many connections of each sort were new. -/
structure WireStats where
  producers : Nat
  consumers : Nat
deriving DecidableEq, Repr, Inhabited

namespace WireStats

/-- Counts connections by their sort. -/
def ofConnections (added : List Connection) : WireStats where
  producers := (added.filter Connection.isProducer).length
  consumers := (added.filter fun c => !c.isProducer).length

/-- The number of connections of either sort. -/
def total (stats : WireStats) : Nat := stats.producers + stats.consumers

end WireStats

end FormFlow
