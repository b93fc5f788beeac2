import FormFlow.Form.Basic
import FormFlow.Json.Printer
import FormFlow.Serial.Node

/-!
# Stores and forms in JSON

The nodes of a store are written in the order of their identifiers, with the number of the
next identifier; indices are not written. When a store is read, its nodes are inserted in the
order of the text, and an identifier or identity that is taken is an error of reading.

The compact text of a form is its canonical text.
-/

set_option autoImplicit false

namespace FormFlow

open Reader (Shape string)

namespace NodeStore

/-- A store as JSON. -/
def toJson (store : NodeStore) : Json :=
  .obj [("nodes", .arr (store.nodesById.map Node.toJson)), ("next_id", .nat store.nextId)]

/-- A store from its nodes, or the wording of what stands against it. -/
def ofStored (stored : List Node × Nat) : Except ReadError NodeStore :=
  (ofNodes stored.1 stored.2).mapError fun error => .mismatch (.refused error.message)

/-- The shape of a store. -/
def shape : Shape NodeStore :=
  ((Shape.field "nodes" (Reader.list Node.reader)).and
    (Shape.field "next_id" (Reader.natBelow identBound))).convert ofStored

/-- Reads a store. -/
def reader : Reader NodeStore := Reader.structured shape

end NodeStore

namespace Form

/-- A form as JSON. -/
def toJson (form : Form) : Json :=
  .obj [("code", .str form.code), ("nodes", form.nodes.toJson)]

/-- The canonical text of a form. -/
def canonicalText (form : Form) : String := form.toJson.compact

/-- The text of a form for people. -/
def prettyText (form : Form) : String := form.toJson.pretty

/-- The shape of a form. -/
def shape : Shape Form :=
  ((Shape.field "code" string).and (Shape.field "nodes" NodeStore.reader)).map
    fun (code, nodes) => ⟨code, nodes⟩

/-- Reads a form. -/
def reader : Reader Form := Reader.structured shape

/-- Reads a form from its text. -/
def ofText (text : String) : Except ReadError Form := Reader.ofText reader text

end Form

end FormFlow
