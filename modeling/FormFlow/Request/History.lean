import FormFlow.Graph.Basic
import FormFlow.Graph.Property
import FormFlow.Form.Ident
import FormFlow.Json.Value

/-!
# The history of answers

A request logs every value that an answer takes, together with the sort of producer that
supplied it. For each code the positions of its entries are kept beside the log. A history
that was read from text may name positions that the log does not have; asking for them is an
error.

The wired producers of an answer fall into the same sorts, and `producerRoles` puts them in
the order in which their values are replayed.
-/

set_option autoImplicit false

namespace FormFlow

/-- The sort of producer that supplies the value of an answer. -/
inductive AnswerSource where
  /-- An effect of a load-transition. -/
  | load
  /-- The default value of the field. -/
  | default
  /-- The submitted value. -/
  | post
  /-- The formatter at a position. -/
  | formatter (index : Nat)
  /-- An action that sets the answer. -/
  | action
deriving DecidableEq, Repr, Inhabited

namespace AnswerSource

/-- The sort of producer that an edge stands for, by the property that it fills. -/
def ofProperty? (property : String) : Option AnswerSource :=
  if property = Property.onLoad then some .load
  else if property = Property.defaultValue then some .default
  else if property = Property.post then some .post
  else (Property.parseFormatter? indexBound property).map .formatter

/-- The place of a sort in the order of replay. -/
def rank : AnswerSource → Nat × Nat
  | .load => (0, 0)
  | .default => (1, 0)
  | .post => (2, 0)
  | .formatter index => (3, index)
  | .action => (4, 0)

/-- Whether one sort is replayed no later than another. -/
def le (first second : AnswerSource) : Bool :=
  first.rank.1 < second.rank.1 ||
    (first.rank.1 = second.rank.1 && first.rank.2 ≤ second.rank.2)

end AnswerSource

/-- The producers among some edges, in the order of replay. Edges that fill no property of
an answer are left out; edges of one sort keep their order. -/
def producerRoles (edges : List Edge) : List (AnswerSource × NodeId) :=
  (edges.filterMap fun edge => do
    let property ← edge.metadata.property
    let source ← AnswerSource.ofProperty? property
    return (source, edge.producer)).mergeSort fun first second => first.1.le second.1

/-- A value of an answer and the sort of producer that supplied it. -/
structure Mutation where
  source : AnswerSource
  value : Json
deriving Repr, Inhabited

/-- An entry of the log. -/
structure LogEntry where
  code : String
  mutation : Mutation
deriving Repr, Inhabited

/-- A position at which the log has no entry. -/
structure NoSuchEntry where
  position : Nat
deriving DecidableEq, Repr, Inhabited

/-- The log of a request, with the positions of the entries of each code. -/
structure AnswerHistory where
  log : List LogEntry
  positions : List (String × List Nat)
deriving Repr, Inhabited

namespace AnswerHistory

/-- A history without entries. -/
def empty : AnswerHistory := ⟨[], []⟩

/-- The number of entries. -/
def size (history : AnswerHistory) : Nat := history.log.length

/-- Whether a history has no entries. -/
def isEmpty (history : AnswerHistory) : Bool := history.log.isEmpty

/-- Appends a position to those of a code. -/
def addPosition (code : String) (position : Nat) :
    List (String × List Nat) → List (String × List Nat)
  | [] => [(code, [position])]
  | (other, found) :: rest =>
    if other = code then (other, found ++ [position]) :: rest
    else (other, found) :: addPosition code position rest

/-- Logs a value of an answer. -/
def record (history : AnswerHistory) (code : String) (mutation : Mutation) : AnswerHistory where
  log := history.log ++ [⟨code, mutation⟩]
  positions := addPosition code history.size history.positions

/-- The positions of the entries of a code. -/
def positionsOf (history : AnswerHistory) (code : String) : List Nat :=
  (history.positions.lookup code).getD []

/-- The mutation at a position. -/
def entryAt (history : AnswerHistory) (position : Nat) : Except NoSuchEntry Mutation :=
  match history.log[position]? with
  | some entry => .ok entry.mutation
  | none => .error ⟨position⟩

/-- The last mutation of a code. -/
def last (history : AnswerHistory) (code : String) : Except NoSuchEntry (Option Mutation) :=
  match (history.positionsOf code).getLast? with
  | some position => some <$> history.entryAt position
  | none => .ok none

/-- The current value of a code. -/
def current (history : AnswerHistory) (code : String) : Except NoSuchEntry (Option Json) := do
  return (← history.last code).map Mutation.value

/-- The sort of producer that supplied the current value of a code. -/
def sourceOf (history : AnswerHistory) (code : String) :
    Except NoSuchEntry (Option AnswerSource) := do
  return (← history.last code).map Mutation.source

/-- The mutations of a code, oldest first. -/
def mutations (history : AnswerHistory) (code : String) : Except NoSuchEntry (List Mutation) :=
  (history.positionsOf code).mapM history.entryAt

/-- Logs a default value if the code has no value yet, and says whether it did. -/
def applyDefault (history : AnswerHistory) (code : String) (value : Json) :
    Except NoSuchEntry (AnswerHistory × Bool) := do
  match ← history.current code with
  | some _ => return (history, false)
  | none => return (history.record code ⟨.default, value⟩, true)

/-- The entries behind a checkpoint, which is an earlier size. -/
def since (history : AnswerHistory) (checkpoint : Nat) : List LogEntry :=
  history.log.drop checkpoint

/-! ## What recording does -/

/-- Recording adds one entry. -/
@[simp]
theorem size_record (history : AnswerHistory) (code : String) (mutation : Mutation) :
    (history.record code mutation).size = history.size + 1 := by
  simp [record, size]

/-- The positions of a code after a position was added to those of another or the same. -/
theorem lookup_addPosition (code other : String) (position : Nat)
    (positions : List (String × List Nat)) :
    ((addPosition code position positions).lookup other).getD [] =
      (positions.lookup other).getD [] ++ if other = code then [position] else [] := by
  induction positions with
  | nil =>
    by_cases same : other = code
    · simp [addPosition, same]
    · simp [addPosition, List.lookup_cons, same, beq_eq_false_iff_ne.2 same]
  | cons entry rest ih =>
    obtain ⟨name, found⟩ := entry
    simp only [addPosition]
    by_cases here : name = code
    · subst here
      by_cases same : other = name
      · simp [same]
      · simp [List.lookup_cons, same, beq_eq_false_iff_ne.2 same]
    · by_cases same : other = name
      · subst same
        simp [here]
      · simp only [here, if_false, List.lookup_cons, beq_eq_false_iff_ne.2 same]
        exact ih

/-- Recording appends the new position to those of its code, and to no others. -/
theorem positionsOf_record (history : AnswerHistory) (code other : String)
    (mutation : Mutation) :
    (history.record code mutation).positionsOf other =
      history.positionsOf other ++ if other = code then [history.size] else [] :=
  lookup_addPosition code other history.size history.positions

/-- What was recorded after a checkpoint stands behind it. -/
theorem since_record (history : AnswerHistory) (code : String) (mutation : Mutation)
    {checkpoint : Nat} (earlier : checkpoint ≤ history.size) :
    (history.record code mutation).since checkpoint =
      history.since checkpoint ++ [⟨code, mutation⟩] := by
  simp only [size] at earlier
  simp [since, record, List.drop_append_of_le_length earlier]

end AnswerHistory

end FormFlow
