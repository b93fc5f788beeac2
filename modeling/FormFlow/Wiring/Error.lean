import FormFlow.Form.Error
import FormFlow.Json.Document

/-!
# What can go wrong in wiring

A cause of its own, or a node tree that does not hold together. `WiringError.message` words
it.
-/

set_option autoImplicit false

namespace FormFlow

/-- Why wiring, or the reading of its configuration, fails. -/
inductive WiringError where
  /-- The node tree does not hold together. -/
  | structural (error : StructureError)
  /-- A reference names no lookup key, and such references are rejected. -/
  | malformedReference (id : NodeId) (path : List String)
  /-- A reference to the enclosing field is in no field, and such references are rejected. -/
  | selfOutsideField (id : NodeId)
  /-- A pseudo-node that is made for a node does not say for which. -/
  | missingOrigin (id : NodeId)
  /-- A node to be wired is in no step. -/
  | unknownStep (id : NodeId)
  /-- The configuration cannot be read from its text. -/
  | config (error : ReadError)
  /-- The file of the configuration cannot be read. -/
  | configFile (path reason : String)
  /-- No policy for malformed references has this name. -/
  | unknownPolicy (name : String)
deriving DecidableEq, Repr, Inhabited

namespace WiringError

/-- A path with its segments between quotes. -/
def pathText (path : List String) : String :=
  let quoted := path.map fun segment => "\"" ++ segment ++ "\""
  "[" ++ String.intercalate ", " quoted ++ "]"

/-- The wording of a cause. -/
def message : WiringError → String
  | .structural error => error.message
  | .malformedReference id path =>
    "malformed reference " ++ id.text ++ ": path " ++ pathText path ++ " names no lookup key"
  | .selfOutsideField id => "self reference " ++ id.text ++ " is not inside a field"
  | .missingOrigin id => "pseudo-node " ++ id.text ++ " has no originating node"
  | .unknownStep id => "node " ++ id.text ++ " does not belong to a known step"
  | .config error => "invalid wiring config: " ++ error.message
  | .configFile path reason => "cannot read wiring config " ++ path ++ ": " ++ reason
  | .unknownPolicy name =>
    "unknown malformed-reference policy '" ++ name ++ "' (expected 'skip' or 'reject')"

end WiringError

end FormFlow
