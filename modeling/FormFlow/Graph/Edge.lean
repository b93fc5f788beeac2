import FormFlow.Form.Pseudo

/-!
# Dependency edges

An edge says that the value of its producer feeds the value of its consumer. Edges name
nodes by identifier only. Two edges are told apart by producer, consumer and role; what else
an edge carries is there for whoever reads it.
-/

set_option autoImplicit false

namespace FormFlow

/-- What an edge stands for. -/
inductive Role where
  /-- The consumer reads the value of the producer. -/
  | dataFlow
  /-- The effects of a transition produce the value of the consumer. -/
  | effect
deriving DecidableEq, Repr, Inhabited

namespace Role

/-- Every role, in declared order. -/
def all : List Role := [.dataFlow, .effect]

/-- The name of a role in stored text. -/
def text : Role → String
  | .dataFlow => "data_flow"
  | .effect => "effect"

/-- The name of a role for people. -/
def label : Role → String
  | .dataFlow => "DataFlow"
  | .effect => "Effect"

/-- The place of a role in declared order. -/
def rank : Role → Nat
  | .dataFlow => 0
  | .effect => 1

end Role

/-- What an edge carries besides its ends. -/
structure EdgeMetadata where
  /-- The code of the field, or other key, that the edge was wired for. -/
  fieldCode : Option String
  /-- The property of the consumer that the producer fills. -/
  property : Option String
  /-- The namespace of the consumer, if that is a reference. -/
  reference : Option Namespace
deriving DecidableEq, Repr, Inhabited

/-- No metadata. -/
def EdgeMetadata.empty : EdgeMetadata := ⟨none, none, none⟩

/-- Producer, consumer and role of an edge. -/
structure Triple where
  producer : NodeId
  consumer : NodeId
  role : Role
deriving DecidableEq, Repr, Inhabited

/-- A dependency edge. -/
structure Edge where
  id : EdgeId
  producer : NodeId
  consumer : NodeId
  role : Role
  metadata : EdgeMetadata
deriving DecidableEq, Repr, Inhabited

/-- Producer, consumer and role of an edge. -/
def Edge.triple (edge : Edge) : Triple := ⟨edge.producer, edge.consumer, edge.role⟩

end FormFlow
