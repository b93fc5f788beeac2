import FormFlow.Digest.Blake3
import FormFlow.Request.Scope
import FormFlow.Serial.Form

/-!
# The registry of forms

A registry wires each form once, when it is registered, and keeps the result under the code
of the form. The hash of a form's canonical text is its fingerprint: registering the same
content again changes nothing and returns what is there.
-/

set_option autoImplicit false

namespace FormFlow

/-- The fingerprint of a form. -/
def Form.fingerprint (form : Form) : String := Blake3.hexOfText form.canonicalText

/-- What a registration did. -/
inductive RegistrationOutcome where
  /-- The code was free. -/
  | registered
  /-- The content was registered already. -/
  | unchanged
  /-- Other content was registered under the code. -/
  | replaced
deriving DecidableEq, Repr, Inhabited

/-- A form in the registry. -/
structure RegisteredForm where
  fingerprint : String
  wired : WiredForm
deriving Inhabited

/-- The result of a registration. -/
structure Registration where
  wired : WiredForm
  fingerprint : String
  outcome : RegistrationOutcome
deriving Inhabited

/-- Wired forms by code. -/
structure Registry where
  config : WiringConfig
  forms : List (String × RegisteredForm)
deriving Inhabited

namespace Registry

/-- A registry without forms. -/
def empty (config : WiringConfig) : Registry := ⟨config, []⟩

/-- The form under a code. -/
def find? (registry : Registry) (code : String) : Option RegisteredForm :=
  registry.forms.lookup code

/-- The wired form under a code. -/
def get? (registry : Registry) (code : String) : Option WiredForm :=
  (registry.find? code).map RegisteredForm.wired

/-- The fingerprint of the form under a code. -/
def fingerprint? (registry : Registry) (code : String) : Option String :=
  (registry.find? code).map RegisteredForm.fingerprint

/-- Puts a form under its code. -/
def put (registry : Registry) (code : String) (entry : RegisteredForm) : Registry :=
  { registry with forms := (code, entry) :: registry.forms.filter fun other => other.1 != code }

/-- Wires a form and puts it under its code, unless the same content is there. A form that
cannot be wired leaves the registry as it is. -/
def register (registry : Registry) (form : Form) :
    Except RequestError (Registry × Registration) := do
  let fingerprint := form.fingerprint
  let existing := registry.find? form.code
  match existing.filter fun entry => entry.fingerprint = fingerprint with
  | some entry => return (registry, ⟨entry.wired, fingerprint, .unchanged⟩)
  | none =>
    let wired ← (WiredForm.wire form registry.config).mapError RequestError.wiring
    let outcome := if existing.isSome then .replaced else .registered
    return (registry.put form.code ⟨fingerprint, wired⟩, ⟨wired, fingerprint, outcome⟩)

/-- Removes the form under a code, and says whether there was one. -/
def remove (registry : Registry) (code : String) : Registry × Bool :=
  ({ registry with forms := registry.forms.filter fun other => other.1 != code },
    (registry.find? code).isSome)

/-- The codes of the registered forms, in increasing order. -/
def codes (registry : Registry) : List String :=
  (registry.forms.map Prod.fst).mergeSort fun first second => first ≤ second

/-- The number of registered forms. -/
def size (registry : Registry) : Nat := registry.forms.length

/-- Opens a request over the form under a code. -/
def beginRequest (registry : Registry) (code : String) : Except RequestError RequestScope :=
  match registry.get? code with
  | some wired => .ok (.start wired)
  | none => .error (.unknownForm code)

end Registry

end FormFlow
