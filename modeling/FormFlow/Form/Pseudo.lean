import FormFlow.Form.Ident
import FormFlow.Form.Reference

/-!
# Pseudo-nodes

A pseudo-node stands for a source of data that the author of a form never wrote down, such
as the submitted value of a field. Its identity is its kind, its scope and its key; a store
holds at most one pseudo-node of an identity.
-/

set_option autoImplicit false

namespace FormFlow

/-- The family of data that a pseudo-node belongs to. -/
inductive PseudoKind where
  /-- The answer of a field of the same step. -/
  | answerLocal
  /-- The answer of a field of another step. -/
  | answerRemote
  /-- The submitted value of a field. -/
  | post
  /-- A parameter of the query string. -/
  | query
  /-- A parameter of the route. -/
  | params
  /-- Data that effects fetch when a step loads. -/
  | data
  /-- The current item of a collection or of one of its iterations. -/
  | item
deriving DecidableEq, Repr, Inhabited

namespace PseudoKind

/-- Every kind, in declared order. -/
def all : List PseudoKind :=
  [.answerLocal, .answerRemote, .post, .query, .params, .data, .item]

/-- The name of a kind. -/
def text : PseudoKind → String
  | .answerLocal => "answer_local"
  | .answerRemote => "answer_remote"
  | .post => "post"
  | .query => "query"
  | .params => "params"
  | .data => "data"
  | .item => "item"

/-- The namespace whose references read a kind. -/
def reads : PseudoKind → Namespace
  | .answerLocal => .answers
  | .answerRemote => .answers
  | .post => .post
  | .query => .query
  | .params => .params
  | .data => .data
  | .item => .item

end PseudoKind

/-- The identity of a pseudo-node. -/
structure PseudoKey where
  kind : PseudoKind
  /-- The step that the pseudo-node is resolved in. -/
  scope : NodeId
  key : String
deriving DecidableEq, Repr, Inhabited

/-- The text of an identity, `kind(key)@scope`. -/
def PseudoKey.text (identity : PseudoKey) : String :=
  identity.kind.text ++ "(" ++ identity.key ++ ")@" ++ identity.scope.text

/-- A pseudo-node: its identity and the node that it was made for. -/
structure Pseudo extends PseudoKey where
  /-- The field of an answer or a submitted value, the collection or iteration of an item. -/
  origin : Option NodeId
deriving DecidableEq, Repr, Inhabited

/-- The key of an item: the number of the collection, and `#index` for an iteration. -/
def itemKey (collection : NodeId) : Option Nat → String
  | some index => collection.text ++ "#" ++ toString index
  | none => collection.text

end FormFlow
