/-!
# Identifiers of nodes and edges

Both kinds of identifier are numbers below `2 ^ 32`, given out in increasing order. They are
types of their own, so that an edge is never taken for a node.

Behind the last number comes zero again (`Counting.wrapping`). As long as the last number is not
given out, this is the same as counting without an end (`Counting.ahead_eq`), which is how
identifiers are counted where nothing else is said.
-/

set_option autoImplicit false

namespace FormFlow

/-- The first number that is no identifier. -/
def identBound : Nat := UInt32.size

/-- The first number that is no index of an iteration or a formatter. -/
def indexBound : Nat := UInt64.size

/-- How numbers are counted on. -/
inductive Counting where
  /-- Without an end. -/
  | endless
  /-- With zero behind the last number. -/
  | wrapping
deriving DecidableEq, Repr, Inhabited

namespace Counting

/-- The number some steps ahead of another. -/
def ahead : Counting → (number steps : Nat) → Nat
  | .endless, number, steps => number + steps
  | .wrapping, number, steps => (number + steps) % identBound

@[simp]
theorem ahead_endless (number steps : Nat) : endless.ahead number steps = number + steps := rfl

/-- Up to the last number all counting is the same. -/
theorem ahead_eq (counting : Counting) {number steps : Nat} (low : number + steps < identBound) :
    counting.ahead number steps = number + steps := by
  cases counting with
  | endless => rfl
  | wrapping => exact Nat.mod_eq_of_lt low

end Counting

/-- The identifier of a form node. -/
structure NodeId where
  val : Nat
deriving DecidableEq, Repr, Inhabited, Hashable

/-- The identifier of a dependency edge. -/
structure EdgeId where
  val : Nat
deriving DecidableEq, Repr, Inhabited, Hashable

namespace NodeId

/-- The decimal text of an identifier. -/
def text (id : NodeId) : String := toString id.val

/-- Another identifier follows. -/
def HasNext (id : NodeId) : Prop := id.val + 1 < identBound

/-- The identifier that lies `offset` numbers above. -/
def shift (id : NodeId) (offset : Nat) : NodeId := ⟨id.val + offset⟩

end NodeId

/-- The decimal text of an identifier. -/
def EdgeId.text (id : EdgeId) : String := toString id.val

end FormFlow
