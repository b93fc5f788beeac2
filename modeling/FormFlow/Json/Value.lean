import FormFlow.Json.Binary64

/-!
# JSON values

A value with its object members in the order they are written. The order matters where a
structure is written field by field; values of no fixed shape are kept in normal form,
with the keys of every object strictly increasing (`Json.normalize`), so that equal
contents are equal values and equal texts.
-/

set_option autoImplicit false

namespace FormFlow

/-- A JSON value. -/
inductive Json where
  | null
  | bool (value : Bool)
  | int (value : Int)
  | real (value : Binary64)
  | str (value : String)
  | arr (items : List Json)
  | obj (members : List (String × Json))
deriving Inhabited, Repr

namespace Json

/-- Puts a member at its place among members with increasing keys; a member with the same
key is replaced. -/
def insertMember {α : Type} (key : String) (value : α) : List (String × α) → List (String × α)
  | [] => [(key, value)]
  | (other, present) :: rest =>
    if key < other then (key, value) :: (other, present) :: rest
    else if key = other then (key, value) :: rest
    else (other, present) :: insertMember key value rest

/-- Members in increasing order of their keys; of members with one key the last is kept. -/
def sortMembers {α : Type} (members : List (String × α)) : List (String × α) :=
  members.foldl (fun sorted member => insertMember member.1 member.2 sorted) []

mutual
/-- The normal form: every object has its keys sorted and each key once. -/
def normalize : Json → Json
  | .arr items => .arr (normalizeItems items)
  | .obj members => .obj (sortMembers (normalizeMembers members))
  | .null => .null
  | .bool value => .bool value
  | .int value => .int value
  | .real value => .real value
  | .str value => .str value

/-- The normal forms of array elements. -/
def normalizeItems : List Json → List Json
  | [] => []
  | item :: rest => normalize item :: normalizeItems rest

/-- The normal forms of object members, keys and order kept. -/
def normalizeMembers : List (String × Json) → List (String × Json)
  | [] => []
  | (key, value) :: rest => (key, normalize value) :: normalizeMembers rest
end

/-- A member, unless its value is absent. -/
def member? (key : String) (value : Option Json) : List (String × Json) :=
  match value with
  | some present => [(key, present)]
  | none => []

/-- A natural number. -/
def nat (value : Nat) : Json := .int value

/-- A value or `null`. -/
def orNull {α : Type} (encode : α → Json) : Option α → Json
  | some value => encode value
  | none => .null

end Json

end FormFlow
