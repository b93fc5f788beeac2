import FormFlow.Text.Blank
import FormFlow.Wiring.Error

/-!
# Options of wiring

What to do with a reference that names no lookup key, and whether a reference to the
enclosing field must be in a field. Neither option changes the result where wiring succeeds.
-/

set_option autoImplicit false

namespace FormFlow

/-- What to do with a reference that names no lookup key. -/
inductive MalformedPolicy where
  /-- Leave it out. -/
  | skip
  /-- Fail. -/
  | reject
deriving DecidableEq, Repr, Inhabited

namespace MalformedPolicy

/-- Every policy, in declared order. -/
def all : List MalformedPolicy := [.skip, .reject]

/-- The name of a policy. -/
def text : MalformedPolicy → String
  | .skip => "skip"
  | .reject => "reject"

/-- The policy with a name, white space around it and the case of ASCII letters aside. -/
def parse (name : String) : Except WiringError MalformedPolicy :=
  let plain := String.ofList ((Text.trim name.toList).map Text.lowerAscii)
  match all.find? fun policy => policy.text = plain with
  | some policy => .ok policy
  | none => .error (.unknownPolicy plain)

end MalformedPolicy

/-- The options of wiring. -/
structure WiringConfig where
  malformedReferences : MalformedPolicy
  /-- Fail on a reference to the enclosing field that is in no field. -/
  strictSelfReferences : Bool
deriving DecidableEq, Repr, Inhabited

/-- Nothing fails that can be left out. -/
def WiringConfig.default : WiringConfig := ⟨.skip, false⟩

end FormFlow
