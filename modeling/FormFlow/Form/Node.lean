import FormFlow.Form.Pseudo
import FormFlow.Json.Value

/-!
# Form nodes

A node has an identifier, the node that contains it, and a kind with properties of its own.
Besides containment, properties may link to other nodes by identifier (`NodeKind.linkedIds`);
`NodeKind.remapIds` maps exactly those links.
-/

set_option autoImplicit false

namespace FormFlow

/-- The phase of a request that a transition runs in. -/
inductive Trigger where
  | load
  | access
  | action
  | submit
deriving DecidableEq, Repr, Inhabited

namespace Trigger

/-- Every trigger, in declared order. -/
def all : List Trigger := [.load, .access, .action, .submit]

/-- The name of a trigger. -/
def text : Trigger → String
  | .load => "load"
  | .access => "access"
  | .action => "action"
  | .submit => "submit"

end Trigger

/-- A repeated block, the children of which are a template. -/
structure Collection where
  code : String
  /-- The expression that yields the items. -/
  source : Option NodeId
deriving DecidableEq, Repr, Inhabited

/-- A field definition. -/
structure Field where
  code : String
  variant : String
  /-- Formatter expressions in the order of their application. -/
  formatters : List NodeId
  defaultValue : Option NodeId
deriving DecidableEq, Repr, Inhabited

/-- A transition of a step or journey and the effects that it runs. -/
structure Transition where
  trigger : Trigger
  effects : List NodeId
deriving DecidableEq, Repr, Inhabited

/-- The kind of a node, with its properties. -/
inductive NodeKind where
  | journey (code : String)
  | step (path : String)
  | block (variant : String)
  | collection (definition : Collection)
  | field (definition : Field)
  | reference (expression : Reference)
  | function (name : String) (arguments : List NodeId)
  | literal (value : Json)
  | transition (definition : Transition)
  | pseudo (definition : Pseudo)
  | iteration (collection : NodeId) (index : Nat)
deriving Repr, Inhabited

namespace NodeKind

/-- The short name of a kind. -/
def tag : NodeKind → String
  | .journey _ => "journey"
  | .step _ => "step"
  | .block _ => "block"
  | .collection _ => "collection"
  | .field _ => "field"
  | .reference _ => "reference"
  | .function _ _ => "function"
  | .literal _ => "literal"
  | .transition _ => "transition"
  | .pseudo _ => "pseudo"
  | .iteration _ _ => "iteration"

/-- Whether a node is a journey. -/
def isJourney : NodeKind → Bool
  | .journey _ => true
  | _ => false

/-- Whether a node is a step. -/
def isStep : NodeKind → Bool
  | .step _ => true
  | _ => false

/-- Whether a node is a journey or a step. -/
def isScope (kind : NodeKind) : Bool := kind.isJourney || kind.isStep

/-- Whether a node is a collection. -/
def isCollection : NodeKind → Bool
  | .collection _ => true
  | _ => false

/-- Whether a node is an iteration. -/
def isIteration : NodeKind → Bool
  | .iteration _ _ => true
  | _ => false

/-- Whether a node repeats what it contains: a collection or one of its iterations. -/
def isRepeated (kind : NodeKind) : Bool := kind.isCollection || kind.isIteration

/-- Whether a node is a field. -/
def isField : NodeKind → Bool
  | .field _ => true
  | _ => false

/-- Whether a node is a reference. -/
def isReference : NodeKind → Bool
  | .reference _ => true
  | _ => false

/-- Whether a node is a transition. -/
def isTransition : NodeKind → Bool
  | .transition _ => true
  | _ => false

/-- Whether a node is a transition that runs when its scope loads. -/
def isLoadTransition : NodeKind → Bool
  | .transition definition => definition.trigger = .load
  | _ => false

/-- The properties of a field. -/
def field? : NodeKind → Option Field
  | .field definition => some definition
  | _ => none

/-- The expression of a reference. -/
def reference? : NodeKind → Option Reference
  | .reference expression => some expression
  | _ => none

/-- The properties of a pseudo-node. -/
def pseudo? : NodeKind → Option Pseudo
  | .pseudo definition => some definition
  | _ => none

/-- The properties of a collection. -/
def collection? : NodeKind → Option Collection
  | .collection definition => some definition
  | _ => none

/-- The nodes that a kind links to by its properties. -/
def linkedIds : NodeKind → List NodeId
  | .collection definition => definition.source.toList
  | .field definition => definition.formatters ++ definition.defaultValue.toList
  | .function _ arguments => arguments
  | .transition definition => definition.effects
  | .pseudo definition => definition.origin.toList
  | .iteration template _ => [template]
  | .journey _ => []
  | .step _ => []
  | .block _ => []
  | .reference _ => []
  | .literal _ => []

/-- Maps every link of a kind. -/
def remapIds (map : NodeId → NodeId) : NodeKind → NodeKind
  | .collection definition => .collection { definition with source := definition.source.map map }
  | .field definition =>
    .field { definition with
      formatters := definition.formatters.map map
      defaultValue := definition.defaultValue.map map }
  | .function name arguments => .function name (arguments.map map)
  | .transition definition =>
    .transition { definition with effects := definition.effects.map map }
  | .pseudo definition => .pseudo { definition with origin := definition.origin.map map }
  | .iteration template index => .iteration (map template) index
  | .journey code => .journey code
  | .step path => .step path
  | .block variant => .block variant
  | .reference expression => .reference expression
  | .literal value => .literal value

/-- Mapping the links of a kind maps the list of its links. -/
@[simp]
theorem linkedIds_remapIds (kind : NodeKind) (map : NodeId → NodeId) :
    (kind.remapIds map).linkedIds = kind.linkedIds.map map := by
  cases kind with
  | collection definition => cases found : definition.source <;> simp [remapIds, linkedIds, found]
  | field definition => cases found : definition.defaultValue <;> simp [remapIds, linkedIds, found]
  | pseudo definition => cases found : definition.origin <;> simp [remapIds, linkedIds, found]
  | function name arguments => rfl
  | transition definition => rfl
  | iteration template index => rfl
  | journey code => rfl
  | step path => rfl
  | block variant => rfl
  | reference expression => rfl
  | literal value => rfl

/-- Mapping the links of a kind keeps its name. -/
@[simp]
theorem tag_remapIds (kind : NodeKind) (map : NodeId → NodeId) :
    (kind.remapIds map).tag = kind.tag := by
  cases kind <;> rfl

end NodeKind

/-- A node of a form. -/
structure Node where
  id : NodeId
  /-- The node that contains it; absent at the top. -/
  parent : Option NodeId
  kind : NodeKind
deriving Repr, Inhabited

end FormFlow
