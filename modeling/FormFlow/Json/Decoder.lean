import FormFlow.Json.Scanner

/-!
# Reading values of a known shape

The vocabulary in which readers of shapes are written. A structure is read from an object,
its members in the order of the text, or from an array of its fields in declared order. In
an object unknown members are passed over and a known one may stand once; an array may stop
early, at a field that has a default, and may not be longer than the structure. What is
missing is said at the end, in declared order (`readFields`).

A choice is read from the name of the alternative, or from an object whose only member has
that name and the alternative's content (`readVariant`).
-/

set_option autoImplicit false

namespace FormFlow

/-- A reader of values of one type. -/
abbrev Reader (α : Type) := Stage → Document → Except ReadError α

namespace Reader

/-- A string. -/
def string : Reader String := fun _ document => document.asString

/-- A truth value. -/
def bool : Reader Bool
  | _, .bool value => .ok value
  | _, other => .error other.refusal

/-- A natural number below a bound, written as an integer. -/
def natBelow (bound : Nat) : Reader Nat
  | _, .number (.integer value) =>
    if 0 ≤ value ∧ value < bound then .ok value.toNat else .error .wrongShape
  | _, other => .error other.refusal

/-- A value of any shape, in normal form. -/
def json : Reader Json := fun stage document => do
  return (← document.read stage).normalize

/-- A value or `null`. -/
def optional {α : Type} (reader : Reader α) : Reader (Option α)
  | _, .null => .ok none
  | stage, .broken fault => some <$> reader stage (.broken fault.orNull)
  | stage, other => some <$> reader stage other

/-- Reads elements in order. -/
def elements {α : Type} (reader : Reader α) (stage : Stage) :
    List Document → Except ReadError (List α)
  | [] => .ok []
  | item :: rest => do
    let value ← reader stage item
    let values ← elements reader stage rest
    return value :: values

/-- An array. -/
def list {α : Type} (reader : Reader α) : Reader (List α)
  | stage, .array items ending => do
    let inner ← stage.enter
    let values ← elements reader inner items
    checkFault ending.fault?
    return values
  | _, other => .error other.refusal

/-- Puts a value under a key; a key that is present keeps its place. -/
def put {α : Type} (key : String) (value : α) : List (String × α) → List (String × α)
  | [] => [(key, value)]
  | (other, present) :: rest =>
    if other = key then (key, value) :: rest else (other, present) :: put key value rest

/-- Reads members into a table. -/
def entries {α : Type} (reader : Reader α) (stage : Stage) :
    List (Document × Document) → List (String × α) → Except ReadError (List (String × α))
  | [], table => .ok table
  | (key, item) :: rest, table => do
    let name ← key.asString
    let value ← reader stage item
    entries reader stage rest (put name value table)

/-- An object with free keys, in the order of their first appearance. -/
def table {α : Type} (reader : Reader α) : Reader (List (String × α))
  | stage, .object members ending => do
    let inner ← stage.enter
    let values ← entries reader inner members []
    checkFault ending.fault?
    return values
  | _, other => .error other.refusal

/-- The shape of a structure: its fields in declared order, a partial result to start from,
how a field that is read changes it, and what becomes of it at the end. -/
structure Shape (α : Type) where
  {Partial : Type}
  fields : List String
  start : Partial
  step : Stage → String → Document → Partial → Except ReadError Partial
  finish : Partial → Except ReadError α

namespace Shape

variable {α β : Type}

/-- One field. Its absence is an error unless there is a default. -/
def one (name : String) (reader : Reader α) (absent : Option α) : Shape α where
  fields := [name]
  start := none
  step := fun stage _ document _ => some <$> reader stage document
  finish : Option α → Except ReadError α := fun found =>
    match found, absent with
    | some value, _ => .ok value
    | none, some value => .ok value
    | none, none => .error (.mismatch (.missingField name))

/-- A field that has to be there. -/
def field (name : String) (reader : Reader α) : Shape α := one name reader none

/-- A field with a default. -/
def fieldOr (name : String) (reader : Reader α) (absent : α) : Shape α :=
  one name reader (some absent)

/-- A field that may be absent or `null`. -/
def fieldOpt (name : String) (reader : Reader α) : Shape (Option α) :=
  fieldOr name reader.optional none

/-- The fields of one shape, then those of another. -/
def and (first : Shape α) (second : Shape β) : Shape (α × β) where
  fields := first.fields ++ second.fields
  start := (first.start, second.start)
  step := fun stage name document state =>
    if name ∈ first.fields then
      (fun changed => (changed, state.2)) <$> first.step stage name document state.1
    else (fun changed => (state.1, changed)) <$> second.step stage name document state.2
  finish := fun state => do
    let left ← first.finish state.1
    let right ← second.finish state.2
    return (left, right)

/-- A shape whose result is converted, which may fail. -/
def convert (shape : Shape α) (conversion : α → Except ReadError β) : Shape β where
  fields := shape.fields
  start := shape.start
  step := shape.step
  finish := fun state => do conversion (← shape.finish state)

/-- A shape whose result is turned into another value. -/
def map (shape : Shape α) (conversion : α → β) : Shape β :=
  shape.convert fun value => .ok (conversion value)

end Shape

/-- Reads the members of an object, `seen` being the fields that were read before. -/
def readMembers {α : Type} (shape : Shape α) (stage : Stage) :
    List (Document × Document) → (seen : List String) → shape.Partial →
      Except ReadError shape.Partial
  | [], _, state => .ok state
  | (key, item) :: rest, seen, state => do
    let name ← key.asString
    if name ∈ shape.fields then
      if name ∈ seen then .error (.mismatch (.duplicateField name))
      else do
        let next ← shape.step stage name item state
        readMembers shape stage rest (name :: seen) next
    else do
      item.skip
      readMembers shape stage rest seen state

/-- Reads array elements as fields in declared order. -/
def readInOrder {α : Type} (shape : Shape α) (stage : Stage) (ending : Ending) :
    List String → List Document → shape.Partial → Except ReadError shape.Partial
  | [], [], state => do
    checkFault ending.fault?
    return state
  | [], _ :: _, _ => .error .malformed
  | _ :: _, [], state => do
    checkFault ending.fault?
    return state
  | name :: names, item :: rest, state => do
    let next ← shape.step stage name item state
    readInOrder shape stage ending names rest next

/-- What is missing from an array has no name. -/
def unnamed : ReadError → ReadError
  | .mismatch (.missingField _) => .wrongShape
  | error => error

/-- Reads the members of an open object as a structure. -/
def ofMembers {α : Type} (shape : Shape α) (stage : Stage)
    (members : List (Document × Document)) (ending : Ending) : Except ReadError α := do
  let state ← readMembers shape stage members [] shape.start
  checkFault ending.fault?
  shape.finish state

/-- Reads the elements of an open array as a structure. -/
def ofElements {α : Type} (shape : Shape α) (stage : Stage)
    (items : List Document) (ending : Ending) : Except ReadError α := do
  let state ← readInOrder shape stage ending shape.fields items shape.start
  (shape.finish state).mapError unnamed

/-- A structure, from an object or from an array. -/
def structured {α : Type} (shape : Shape α) : Reader α
  | stage, .object members ending => do
    let inner ← stage.enter
    ofMembers shape inner members ending
  | stage, .array items ending => do
    let inner ← stage.enter
    ofElements shape inner items ending
  | _, other => .error other.refusal

/-- The alternative with a name. -/
def alternative {α : Type} (names : List (String × α)) (name : String) : Except ReadError α :=
  match names.lookup name with
  | some value => .ok value
  | none => .error (.mismatch (.unknownVariant name (names.map Prod.fst)))

/-- The content of an alternative that has none: `null`, and within a tagged value also an
object without members. -/
def nothing : Reader Unit
  | _, .null => .ok ()
  | .tagged, .object [] .closed => .ok ()
  | _, other => .error other.refusal

/-- A choice. `select` turns the chosen alternative and its content into the value; a bare
name has no content. An object starts with the name between quotes: in a text anything else
there is malformed, whatever value it begins. A complete object with further members is
refused before its name is looked up. -/
def variant {α β : Type} (names : List (String × α))
    (select : α → Option (Stage × Document) → Except ReadError β) : Reader β
  | _, .string (.ok name) => do
    let chosen ← alternative names name
    select chosen none
  | stage, .object ((key, item) :: more) ending => do
    let inner ← stage.enter
    if stage.isComplete && !more.isEmpty then .error .wrongShape
    else do
      let name ← key.asString
      let chosen ← alternative names name
      let value ← select chosen (some (inner, item))
      match more, ending with
      | [], .closed => return value
      | [], .cut => .error .truncated
      | _, _ => .error .malformed
  | stage, .object [] ending => do
    let _ ← stage.enter
    if ending = .cut then .error .truncated else .error .malformed
  | _, .string (.error fault) => .error (.ofFault fault)
  | _, .broken fault => .error (.ofFault fault.whenChosen)
  | _, _ => .error .malformed

/-- A choice among alternatives without content. -/
def choice {α : Type} (names : List (String × α)) : Reader α :=
  variant names fun chosen content =>
    match content with
    | none => .ok chosen
    | some (stage, item) => do
      nothing stage item
      return chosen

/-- What a tagged value holds besides its tag. -/
inductive Content where
  | members (rest : List (Document × Document))
  | elements (rest : List Document)

/-- Reads the content of a tagged value, all of which was read before, as a structure. -/
def Content.structured {α : Type} (shape : Shape α) :
    Content → Except ReadError α
  | .members rest => (ofMembers shape .tagged rest .closed).mapError .asMismatch
  | .elements rest => (ofElements shape .tagged rest .closed).mapError .asMismatch

/-- Separates the tag from the other members. The tag is looked up when it is met, the other
members are read to their end. -/
def splitTag {α : Type} (tag : String) (names : List (String × α)) (stage : Stage) :
    List (Document × Document) → (found : Option α) →
      Except ReadError (Option α × List (Document × Document))
  | [], found => .ok (found, [])
  | (key, item) :: rest, found => do
    let name ← key.asString
    if name = tag then
      if found.isSome then .error (.mismatch (.duplicateField tag))
      else do
        let chosen ← alternative names (← item.asString)
        splitTag tag names stage rest (some chosen)
    else do
      let _ ← item.read stage
      let (chosen, others) ← splitTag tag names stage rest found
      return (chosen, (key, item) :: others)

/-- A structure whose shape is named by its tag, a member of the object or the first element
of the array. -/
def tagged {α β : Type} (tag : String) (names : List (String × α))
    (select : α → Content → Except ReadError β) : Reader β
  | stage, .object members ending => do
    let inner ← stage.enter
    let (found, rest) ← splitTag tag names inner members none
    checkFault ending.fault?
    match found with
    | some chosen => select chosen (.members rest)
    | none => .error (.mismatch (.missingField tag))
  | stage, .array items ending => do
    let inner ← stage.enter
    match items with
    | [] => do
      checkFault ending.fault?
      .error (.mismatch (.missingField tag))
    | first :: rest => do
      let chosen ← alternative names (← first.asString)
      let _ ← Document.readItems inner rest
      checkFault ending.fault?
      select chosen (.elements rest)
  | _, other => .error other.refusal

/-- Reads a whole text. -/
def ofText {α : Type} (reader : Reader α) (text : String) : Except ReadError α := do
  let (document, trailing) := Document.ofText text
  let value ← reader .ofText document
  if trailing then .error .malformed else return value

/-- Reads a value that is complete; whatever is wrong is its shape. -/
def ofJson {α : Type} (reader : Reader α) (value : Json) : Except ReadError α :=
  (reader .complete (Document.ofJson value)).mapError ReadError.asMismatch

end Reader

end FormFlow
