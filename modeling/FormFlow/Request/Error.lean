import FormFlow.Wiring.Error

/-!
# What can go wrong in a request or a registration
-/

set_option autoImplicit false

namespace FormFlow

/-- Why a request or a registration fails. -/
inductive RequestError where
  /-- Wiring fails, or the node tree does not hold together. -/
  | wiring (error : WiringError)
  /-- No form is registered under this code. -/
  | unknownForm (code : String)
  /-- A node to be iterated is not a collection. -/
  | notACollection (id : NodeId)
  /-- A collection to be iterated belongs to a template that is still open. -/
  | openTemplate (id : NodeId)
  /-- The code of a field in an iteration is already that of a local answer. -/
  | codeCollision (code : String) (step : NodeId)
  /-- No collection has this code. -/
  | unknownCollection (code : String)
deriving DecidableEq, Repr, Inhabited

namespace RequestError

/-- A node tree that does not hold together. -/
def structural (error : StructureError) : RequestError := .wiring (.structural error)

/-- The wording of a cause. -/
def message : RequestError → String
  | .wiring error => error.message
  | .unknownForm code => "unknown form '" ++ code ++ "'"
  | .notACollection id => "node " ++ id.text ++ " is not a collection"
  | .openTemplate id => "collection " ++ id.text ++ " belongs to an open template"
  | .codeCollision code step =>
    "iteration field code '" ++ code ++ "' collides with an answer of step " ++ step.text
  | .unknownCollection code => "form has no collection '" ++ code ++ "'"

end RequestError

end FormFlow
