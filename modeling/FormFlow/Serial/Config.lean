import FormFlow.Json.Decoder
import FormFlow.Wiring.Config

/-!
# Options of wiring in JSON

Every option has a default, so an object without members is a configuration.
-/

set_option autoImplicit false

namespace FormFlow

open Reader (Shape)

/-- Reads a policy for malformed references. -/
def MalformedPolicy.reader : Reader MalformedPolicy :=
  Reader.choice (MalformedPolicy.all.map fun policy => (policy.text, policy))

namespace WiringConfig

/-- Options as JSON. -/
def toJson (config : WiringConfig) : Json :=
  .obj [("malformed_references", .str config.malformedReferences.text),
    ("strict_self_references", .bool config.strictSelfReferences)]

/-- Reads options. -/
def reader : Reader WiringConfig := Reader.structured
  (((Shape.fieldOr "malformed_references" MalformedPolicy.reader
      WiringConfig.default.malformedReferences).and
    (Shape.fieldOr "strict_self_references" Reader.bool
      WiringConfig.default.strictSelfReferences)).map
    fun (malformedReferences, strictSelfReferences) =>
      ⟨malformedReferences, strictSelfReferences⟩)

/-- Reads options from their text. -/
def ofText (text : String) : Except WiringError WiringConfig :=
  (Reader.ofText reader text).mapError WiringError.config

end WiringConfig

end FormFlow
