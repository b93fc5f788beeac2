import FormFlow.Json.Numeral
import FormFlow.Json.Value

/-!
# JSON text as it is read

A `Document` is a text read as a tree, members in text order with repeated keys kept. Text
that goes wrong still has a tree: up to the fault it is as usual, and at the fault there is a
`broken` leaf or an open `Ending`. A reader of a shape walks the tree in text order, and the
first problem that it meets is the answer, whether the text is at fault there or the shape.

A part that no reader wants is only passed over (`Document.skip`). Passing over is laxer than
reading (`Document.read`): it does not look at the size of numbers, at surrogates or at the
nesting, and it has its own view of a number that is cut short. A reader that wants the name
of an alternative looks at nothing but a quote, unless `null` may stand there too. A broken
leaf therefore holds what each of the four makes of it (`LeafFault`).
-/

set_option autoImplicit false

namespace FormFlow

/-- What is wrong with a text as such: it ends too early, or it is not JSON. -/
inductive TextFault where
  | truncated
  | malformed
deriving DecidableEq, Repr, Inhabited

/-- Why a value of the right text does not have the shape that is wanted. -/
inductive Mismatch where
  | missingField (name : String)
  | duplicateField (name : String)
  | unknownVariant (name : String) (expected : List String)
  | refused (reason : String)
  | wrongShape
deriving DecidableEq, Repr, Inhabited

namespace Mismatch

/-- A name between grave accents. -/
def quoted (name : String) : String := "`" ++ name ++ "`"

/-- The choices that a message offers. -/
def choices : List String → String
  | [first, second] => "expected " ++ quoted first ++ " or " ++ quoted second
  | names => "expected one of " ++ String.intercalate ", " (names.map quoted)

/-- The wording of a mismatch, where it has a fixed one. -/
def message? : Mismatch → Option String
  | .missingField name => some ("missing field " ++ quoted name)
  | .duplicateField name => some ("duplicate field " ++ quoted name)
  | .unknownVariant name expected =>
    some ("unknown variant " ++ quoted name ++ ", " ++ choices expected)
  | .refused reason => some reason
  | .wrongShape => none

end Mismatch

/-- Why a value could not be read. -/
inductive ReadError where
  | truncated
  | malformed
  | mismatch (reason : Mismatch)
deriving DecidableEq, Repr, Inhabited

namespace ReadError

/-- A fault of the text as an error of reading. -/
def ofFault : TextFault → ReadError
  | .truncated => .truncated
  | .malformed => .malformed

/-- A value of the wrong shape. -/
def wrongShape : ReadError := .mismatch .wrongShape

/-- The error within a value that was complete before its shape was looked at: whatever is
wrong is its shape. -/
def asMismatch : ReadError → ReadError
  | .mismatch reason => .mismatch reason
  | .truncated => wrongShape
  | .malformed => wrongShape

/-- The fixed wording of an error, where it has one. -/
def message? : ReadError → Option String
  | .mismatch reason => reason.message?
  | .truncated => none
  | .malformed => none

/-- A wording for every error. -/
def message : ReadError → String
  | .truncated => "unexpected end of text"
  | .malformed => "malformed text"
  | .mismatch reason => reason.message?.getD "a value has the wrong shape"

end ReadError

/-- What a place where the text goes wrong is to the readers that may meet it. -/
structure LeafFault where
  /-- To a reader of the value. -/
  whenRead : TextFault
  /-- To a reader that passes over the value. -/
  whenSkipped : TextFault
  /-- To a reader that wants the name of an alternative. -/
  whenChosen : TextFault
  /-- To a reader that wants the name of an alternative or `null`. -/
  whenChosenOrNull : TextFault
deriving DecidableEq, Repr, Inhabited

/-- A fault that looks the same to every reader. -/
def LeafFault.plain (fault : TextFault) : LeafFault := ⟨fault, fault, fault, fault⟩

/-- What the place is to a reader that would take `null` there as well. -/
def LeafFault.orNull (fault : LeafFault) : LeafFault :=
  { fault with whenChosen := fault.whenChosenOrNull }

/-- How a container goes on after its last element. -/
inductive Ending where
  /-- With its closing bracket. -/
  | closed
  /-- With the end of the text. -/
  | cut
  /-- With a comma and then the end of the text, where another key should stand. -/
  | cutAfterComma
  /-- With something that cannot stand there: behind an element neither a comma nor the
  closing bracket, or where a key should stand anything but a quote. -/
  | stray
deriving DecidableEq, Repr, Inhabited

/-- A JSON text as a tree. -/
inductive Document where
  | null
  | bool (value : Bool)
  | number (value : Numeral)
  | string (value : Except TextFault String)
  | array (items : List Document) (ending : Ending)
  | object (members : List (Document × Document)) (ending : Ending)
  | broken (fault : LeafFault)
deriving Inhabited

/-- When a value is read. -/
inductive Stage where
  /-- While its text is read, the number of containers that may still be opened inside each
  other being counted down to one. -/
  | streaming (allowance : Nat)
  /-- After it is complete. -/
  | complete
  /-- After the tagged value that it belongs to is complete. -/
  | tagged
deriving DecidableEq, Repr

/-- A text may have this many containers open at once, less one. -/
def Stage.ofText : Stage := .streaming 128

/-- Opens a container. -/
def Stage.enter : Stage → Except ReadError Stage
  | .streaming (allowance + 2) => .ok (.streaming (allowance + 1))
  | .streaming _ => .error .malformed
  | .complete => .ok .complete
  | .tagged => .ok .tagged

/-- Whether all of a value is known before any of it is interpreted. -/
def Stage.isComplete : Stage → Bool
  | .streaming _ => false
  | .complete => true
  | .tagged => true

namespace Ending

/-- What the ending means to a reader that asks for the next element or key. -/
def fault? : Ending → Option TextFault
  | .closed => none
  | .cut => some .truncated
  | .cutAfterComma => some .truncated
  | .stray => some .malformed

end Ending

/-- Succeeds unless there is a fault. -/
def checkFault : Option TextFault → Except ReadError Unit
  | none => .ok ()
  | some fault => .error (.ofFault fault)

namespace Document

/-- The problem that a reader of another shape meets in this value. A scalar is read before
its shape is refused, a container is refused when it opens. -/
def refusal : Document → ReadError
  | .broken fault => .ofFault fault.whenRead
  | .string (.error fault) => .ofFault fault
  | .number .outOfRange => .malformed
  | _ => .wrongShape

/-- A string. -/
def asString : Document → Except ReadError String
  | .string (.ok value) => .ok value
  | other => .error other.refusal

mutual
/-- Reads a value of any shape. Object members keep their order and repeated keys. -/
def read (stage : Stage) : Document → Except ReadError Json
  | .null => .ok .null
  | .bool value => .ok (.bool value)
  | .number (.integer value) => .ok (.int value)
  | .number (.real value) => .ok (.real value)
  | .number .outOfRange => .error .malformed
  | .string (.ok value) => .ok (.str value)
  | .string (.error fault) => .error (.ofFault fault)
  | .broken fault => .error (.ofFault fault.whenRead)
  | .array items ending => do
    let inner ← stage.enter
    let values ← readItems inner items
    checkFault ending.fault?
    return .arr values
  | .object members ending => do
    let inner ← stage.enter
    let values ← readMembers inner members
    checkFault ending.fault?
    return .obj values

/-- Reads array elements in order. -/
def readItems (stage : Stage) : List Document → Except ReadError (List Json)
  | [] => .ok []
  | item :: rest => do
    let value ← read stage item
    let values ← readItems stage rest
    return value :: values

/-- Reads object members in order. -/
def readMembers (stage : Stage) :
    List (Document × Document) → Except ReadError (List (String × Json))
  | [] => .ok []
  | (key, item) :: rest => do
    let name ← asString key
    let value ← read stage item
    let values ← readMembers stage rest
    return (name, value) :: values
end

mutual
/-- Passes over a value that nobody wants. -/
def skip : Document → Except ReadError Unit
  | .broken fault => .error (.ofFault fault.whenSkipped)
  | .array items ending => do
    skipItems items
    checkFault ending.fault?
  | .object members ending => do
    skipMembers members
    checkFault ending.fault?
  | .null => .ok ()
  | .bool _ => .ok ()
  | .number _ => .ok ()
  | .string _ => .ok ()

/-- Passes over array elements. -/
def skipItems : List Document → Except ReadError Unit
  | [] => .ok ()
  | item :: rest => do
    skip item
    skipItems rest

/-- Passes over object members. -/
def skipMembers : List (Document × Document) → Except ReadError Unit
  | [] => .ok ()
  | (key, item) :: rest => do
    skip key
    skip item
    skipMembers rest
end

mutual
/-- The tree of a value that is complete. -/
def ofJson : Json → Document
  | .null => .null
  | .bool value => .bool value
  | .int value => .number (.integer value)
  | .real value => .number (.real value)
  | .str value => .string (.ok value)
  | .arr items => .array (ofItems items) .closed
  | .obj members => .object (ofMembers members) .closed

/-- The trees of array elements. -/
def ofItems : List Json → List Document
  | [] => []
  | item :: rest => ofJson item :: ofItems rest

/-- The trees of object members. -/
def ofMembers : List (String × Json) → List (Document × Document)
  | [] => []
  | (key, value) :: rest => (.string (.ok key), ofJson value) :: ofMembers rest
end

end Document

end FormFlow
