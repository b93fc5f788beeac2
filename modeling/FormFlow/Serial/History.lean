import FormFlow.Json.Decoder
import FormFlow.Request.History
import FormFlow.Serial.Node

/-!
# Answer histories in JSON

A history is written as its log and the positions of each code. Both are read as they stand;
nothing says that the positions are in the log.
-/

set_option autoImplicit false

namespace FormFlow

open Reader (Shape string)

namespace AnswerSource

/-- The sorts of producer by name; that of a formatter carries its index. -/
def names : List (String × AnswerSource) :=
  [("load", .load), ("default", .default), ("post", .post), ("formatter", .formatter 0),
    ("action", .action)]

/-- A sort of producer as JSON. -/
def toJson : AnswerSource → Json
  | .load => .str "load"
  | .default => .str "default"
  | .post => .str "post"
  | .formatter index => .obj [("formatter", .nat index)]
  | .action => .str "action"

/-- Reads a sort of producer. -/
def reader : Reader AnswerSource := Reader.variant names fun chosen content =>
  match chosen, content with
  | .formatter _, some (stage, item) => AnswerSource.formatter <$> indexReader stage item
  | .formatter _, none => .error .wrongShape
  | other, none => .ok other
  | other, some (stage, item) => do
    Reader.nothing stage item
    return other

end AnswerSource

namespace Mutation

/-- A mutation as JSON. -/
def toJson (mutation : Mutation) : Json :=
  .obj [("source", mutation.source.toJson), ("value", mutation.value)]

/-- Reads a mutation. -/
def reader : Reader Mutation := Reader.structured
  (((Shape.field "source" AnswerSource.reader).and (Shape.field "value" Reader.json)).map
    fun (source, value) => ⟨source, value⟩)

end Mutation

namespace LogEntry

/-- An entry of the log as JSON. -/
def toJson (entry : LogEntry) : Json :=
  .obj [("code", .str entry.code), ("mutation", entry.mutation.toJson)]

/-- Reads an entry of the log. -/
def reader : Reader LogEntry := Reader.structured
  (((Shape.field "code" string).and (Shape.field "mutation" Mutation.reader)).map
    fun (code, mutation) => ⟨code, mutation⟩)

end LogEntry

namespace AnswerHistory

/-- A history as JSON. -/
def toJson (history : AnswerHistory) : Json :=
  .obj [("log", .arr (history.log.map LogEntry.toJson)),
    ("by_code", .obj (history.positions.map fun entry => (entry.1, .arr (entry.2.map Json.nat))))]

/-- Reads a history. -/
def reader : Reader AnswerHistory := Reader.structured
  (((Shape.field "log" (Reader.list LogEntry.reader)).and
    (Shape.field "by_code" (Reader.table (Reader.list indexReader)))).map
    fun (log, positions) => ⟨log, positions⟩)

/-- Reads a history from its text. -/
def ofText (text : String) : Except ReadError AnswerHistory := Reader.ofText reader text

end AnswerHistory

end FormFlow
