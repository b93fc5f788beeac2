import FormFlow.Json.Value
import FormFlow.Json.ShortestDecimal

/-!
# Writing JSON text

One printer serves both texts of a value. A `Layout` says what stands between the elements
of a container and after a colon: nothing in compact text, a line break with two spaces for
each level in pretty text. An empty container is written without a break in either.

Strings escape the quote, the backslash and the characters below U+0020, and nothing else.
-/

set_option autoImplicit false

namespace FormFlow

namespace Json

/-- The spacing of a text: the break before an element at a nesting level, and what follows
a colon. -/
structure Layout where
  lineBreak : Nat → List Char
  afterColon : List Char

/-- No spacing at all. -/
def Layout.compact : Layout := ⟨fun _ => [], []⟩

/-- One element a line, two spaces for each level. -/
def Layout.pretty : Layout :=
  ⟨fun level => '\n' :: List.replicate (2 * level) ' ', [' ']⟩

/-- A hexadecimal digit in lower case. -/
def hexDigit (value : Nat) : Char :=
  if value < 10 then Char.ofNat ('0'.toNat + value) else Char.ofNat ('a'.toNat + (value - 10))

/-- One character of a string, escaped where it has to be. -/
def escapeChar (c : Char) : List Char :=
  if c = '"' then ['\\', '"']
  else if c = '\\' then ['\\', '\\']
  else if c = '\n' then ['\\', 'n']
  else if c = '\r' then ['\\', 'r']
  else if c = '\t' then ['\\', 't']
  else if c = Char.ofNat 8 then ['\\', 'b']
  else if c = Char.ofNat 12 then ['\\', 'f']
  else if c.toNat < 32 then
    ['\\', 'u', '0', '0', hexDigit (c.toNat / 16), hexDigit (c.toNat % 16)]
  else [c]

/-- A string between quotes. -/
def writeString (s : String) : List Char :=
  '"' :: (s.toList.flatMap escapeChar ++ ['"'])

/-- An integer in decimal. -/
def writeInt (value : Int) : List Char :=
  if value < 0 then '-' :: (toString value.natAbs).toList else (toString value.natAbs).toList

mutual
/-- The text of a value that stands at a nesting level. -/
def write (layout : Layout) (level : Nat) : Json → List Char
  | .null => ['n', 'u', 'l', 'l']
  | .bool true => ['t', 'r', 'u', 'e']
  | .bool false => ['f', 'a', 'l', 's', 'e']
  | .int value => writeInt value
  | .real value => value.text
  | .str value => writeString value
  | .arr [] => ['[', ']']
  | .arr (item :: rest) =>
    '[' :: (layout.lineBreak (level + 1) ++ write layout (level + 1) item ++
      writeItems layout (level + 1) rest ++ layout.lineBreak level ++ [']'])
  | .obj [] => ['{', '}']
  | .obj ((key, value) :: rest) =>
    '{' :: (layout.lineBreak (level + 1) ++ writeString key ++
      ':' :: (layout.afterColon ++ write layout (level + 1) value ++
        writeMembers layout (level + 1) rest ++ layout.lineBreak level ++ ['}']))

/-- The elements after the first, each behind a comma. -/
def writeItems (layout : Layout) (level : Nat) : List Json → List Char
  | [] => []
  | item :: rest =>
    ',' :: (layout.lineBreak level ++ write layout level item ++ writeItems layout level rest)

/-- The members after the first, each behind a comma. -/
def writeMembers (layout : Layout) (level : Nat) : List (String × Json) → List Char
  | [] => []
  | (key, value) :: rest =>
    ',' :: (layout.lineBreak level ++ writeString key ++
      ':' :: (layout.afterColon ++ write layout level value ++ writeMembers layout level rest))
end

/-- The compact text of a value. -/
def compact (value : Json) : String := String.ofList (value.write .compact 0)

/-- The pretty text of a value. -/
def pretty (value : Json) : String := String.ofList (value.write .pretty 0)

end Json

end FormFlow
