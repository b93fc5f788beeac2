/-!
# References and their namespaces

A reference reads a value along a path such as `answers`, `email`. The first segment selects
a namespace. In a keyed namespace the second segment is the lookup key, the code of a field
or the name of a parameter, and what follows reaches into the value. The namespaces `@self`
and `@item` are resolved by the place of the reference instead.
-/

set_option autoImplicit false

namespace FormFlow

/-- What the first segment of a reference path selects. -/
inductive Namespace where
  | answers
  | post
  | query
  | params
  | data
  | selfValue
  | item
deriving DecidableEq, Repr, Inhabited

namespace Namespace

/-- Every namespace, in declared order. -/
def all : List Namespace := [.answers, .post, .query, .params, .data, .selfValue, .item]

/-- The path segment that selects a namespace. -/
def text : Namespace → String
  | .answers => "answers"
  | .post => "post"
  | .query => "query"
  | .params => "params"
  | .data => "data"
  | .selfValue => "@self"
  | .item => "@item"

/-- The namespace that a path segment selects. -/
def ofText? (segment : String) : Option Namespace := all.find? fun space => space.text = segment

/-- Whether a reference needs a lookup key. -/
def isKeyed : Namespace → Bool
  | .selfValue => false
  | .item => false
  | _ => true

end Namespace

/-- A reference expression. -/
structure Reference where
  path : List String
deriving DecidableEq, Repr, Inhabited

namespace Reference

/-- The namespace that the first segment selects, if it selects one. -/
def selected? (r : Reference) : Option Namespace := r.path.head?.bind Namespace.ofText?

/-- Whether the first segment selects `space`, however long the path is. -/
def isIn (r : Reference) (space : Namespace) : Bool := r.path.head? = some space.text

/-- The lookup key of a reference into `space`: its second segment. -/
def lookupKey? (r : Reference) (space : Namespace) : Option String :=
  if r.isIn space then r.path[1]? else none

/-- The segments behind the lookup key. -/
def nested (r : Reference) : List String := r.path.drop 2

/-- The namespace and key of a reference that reads by key. -/
def keyedTarget? (r : Reference) : Option (Namespace × String) := do
  let space ← r.selected?
  let key ← r.lookupKey? space
  if space.isKeyed then some (space, key) else none

end Reference

end FormFlow
