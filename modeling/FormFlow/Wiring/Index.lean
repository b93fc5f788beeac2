import FormFlow.Wiring.Context

/-!
# References by lookup key

An index groups the references of a step into a namespace by their lookup keys, so that the
readers of a pseudo-node are found at once. A reference without a key does not enter it; the
policy decides whether that is an error.
-/

set_option autoImplicit false

namespace FormFlow

/-- References grouped by lookup key, in the order in which the keys appear. -/
structure ReferenceIndex where
  groups : List (String × List NodeId)
deriving DecidableEq, Repr, Inhabited

namespace ReferenceIndex

/-- No references. -/
def empty : ReferenceIndex := ⟨[]⟩

/-- Puts a reference into the group of its key. -/
def insertInto (key : String) (reference : NodeId) :
    List (String × List NodeId) → List (String × List NodeId)
  | [] => [(key, [reference])]
  | (other, group) :: rest =>
    if other = key then (other, group ++ [reference]) :: rest
    else (other, group) :: insertInto key reference rest

/-- Adds a reference under a key. -/
def insert (index : ReferenceIndex) (key : String) (reference : NodeId) : ReferenceIndex :=
  ⟨insertInto key reference index.groups⟩

/-- The index of references with their keys. -/
def ofKeys (keyed : List (NodeId × String)) : ReferenceIndex :=
  keyed.foldl (fun index entry => index.insert entry.2 entry.1) empty

/-- The references with a key, in the order of the step. -/
def get (index : ReferenceIndex) (key : String) : List NodeId :=
  (index.groups.lookup key).getD []

/-- The number of references. -/
def size (index : ReferenceIndex) : Nat :=
  (index.groups.map fun group => group.2.length).foldl (· + ·) 0

/-- Whether a reference is in the index. -/
def contains (index : ReferenceIndex) (reference : NodeId) : Bool :=
  index.groups.any fun group => group.2.contains reference

/-- Indexes the references of a step into a namespace. -/
def build {σ : Type} [NodeSource σ] (ctx : WiringContext σ) (space : Namespace) :
    Except WiringError ReferenceIndex := do
  let keyed ← (ctx.references space).mapM fun entry => ctx.keyOf space entry.1 entry.2
  return ofKeys (keyed.filterMap id)

end ReferenceIndex

end FormFlow
