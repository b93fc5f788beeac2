import FormFlow.Json.Decoder
import FormFlow.Proofs.Except

/-!
# Reading what was written

A value that is complete is read back as itself, wherever enough containers can still be
opened (`Document.read_ofJson`). A structure is read back if each of its fields is:
`Shape.Reads` says of the members of an object that a value is read from them, and it is put
together like the shapes, with one law for each way to make a shape (`Shape.reads_field`,
`Shape.reads_absent`, `Shape.Reads.and`, `Shape.Reads.map`). Members then never have to be
looked up one by one.
-/

set_option autoImplicit false

namespace FormFlow

/-! ## Nesting -/

namespace Json

mutual
/-- The number of containers that stand in each other. -/
def depth : Json → Nat
  | .arr items => depthItems items + 1
  | .obj members => depthMembers members + 1
  | .null => 0
  | .bool _ => 0
  | .int _ => 0
  | .real _ => 0
  | .str _ => 0

/-- The greatest depth of array elements. -/
def depthItems : List Json → Nat
  | [] => 0
  | item :: rest => max (depth item) (depthItems rest)

/-- The greatest depth of object members. -/
def depthMembers : List (String × Json) → Nat
  | [] => 0
  | (_, value) :: rest => max (depth value) (depthMembers rest)
end

theorem depth_le_of_mem_members {key : String} {value : Json} {members : List (String × Json)}
    (member : (key, value) ∈ members) : value.depth ≤ depthMembers members := by
  induction members with
  | nil => cases member
  | cons first rest ih =>
    rcases List.mem_cons.1 member with rfl | later
    · exact Nat.le_max_left ..
    · exact Nat.le_trans (ih later) (Nat.le_max_right ..)

theorem depthItems_le {items : List Json} {bound : Nat} (each : ∀ item ∈ items, item.depth ≤ bound) :
    depthItems items ≤ bound := by
  induction items with
  | nil => exact Nat.zero_le bound
  | cons item rest ih =>
    exact Nat.max_le.2 ⟨each item (List.mem_cons_self ..),
      ih fun other member => each other (List.mem_cons_of_mem _ member)⟩

theorem depthMembers_le {members : List (String × Json)} {bound : Nat}
    (each : ∀ member ∈ members, member.2.depth ≤ bound) : depthMembers members ≤ bound := by
  induction members with
  | nil => exact Nat.zero_le bound
  | cons member rest ih =>
    exact Nat.max_le.2 ⟨each member (List.mem_cons_self ..),
      ih fun other belongs => each other (List.mem_cons_of_mem _ belongs)⟩

end Json

/-- As many containers can be opened in each other. -/
def Stage.Holds (depth : Nat) : Stage → Prop
  | .streaming allowance => depth < allowance
  | .complete => True
  | .tagged => True

theorem Stage.Holds.mono {depth more : Nat} {stage : Stage} (holds : stage.Holds more)
    (le : depth ≤ more) : stage.Holds depth := by
  cases stage with
  | streaming allowance => exact Nat.lt_of_le_of_lt le holds
  | complete => trivial
  | tagged => trivial

theorem Stage.Holds.enter {depth : Nat} {stage : Stage} (holds : stage.Holds (depth + 1)) :
    ∃ inner, stage.enter = .ok inner ∧ inner.Holds depth := by
  match stage, holds with
  | .streaming (allowance + 2), holds =>
    exact ⟨.streaming (allowance + 1), rfl, Nat.lt_of_succ_lt_succ holds⟩
  | .streaming 1, holds => cases Nat.not_lt_zero _ (Nat.lt_of_succ_lt_succ holds)
  | .streaming 0, holds => cases Nat.not_lt_zero _ holds
  | .complete, _ => exact ⟨.complete, rfl, trivial⟩
  | .tagged, _ => exact ⟨.tagged, rfl, trivial⟩

namespace Document

mutual
/-- A value is read back where its containers can be opened. -/
theorem read_ofJson (value : Json) {stage : Stage} (holds : stage.Holds value.depth) :
    (ofJson value).read stage = .ok value := by
  cases value with
  | arr items =>
    rw [Json.depth] at holds
    obtain ⟨inner, entered, fits⟩ := holds.enter
    simp only [ofJson, read, entered, bind, Except.bind, readItems_ofItems items fits]
    rfl
  | obj members =>
    rw [Json.depth] at holds
    obtain ⟨inner, entered, fits⟩ := holds.enter
    simp only [ofJson, read, entered, bind, Except.bind, readMembers_ofMembers members fits]
    rfl
  | null => rfl
  | bool => rfl
  | int => rfl
  | real => rfl
  | str => rfl

theorem readItems_ofItems (items : List Json) {stage : Stage}
    (holds : stage.Holds (Json.depthItems items)) : readItems stage (ofItems items) = .ok items := by
  cases items with
  | nil => rfl
  | cons item rest =>
    rw [Json.depthItems] at holds
    simp only [ofItems, readItems, read_ofJson item (holds.mono (Nat.le_max_left ..)),
      readItems_ofItems rest (holds.mono (Nat.le_max_right ..))]
    rfl

theorem readMembers_ofMembers (members : List (String × Json)) {stage : Stage}
    (holds : stage.Holds (Json.depthMembers members)) :
    readMembers stage (ofMembers members) = .ok members := by
  cases members with
  | nil => rfl
  | cons member rest =>
    obtain ⟨key, value⟩ := member
    rw [Json.depthMembers] at holds
    simp only [ofMembers, readMembers, asString, read_ofJson value (holds.mono (Nat.le_max_left ..)),
      readMembers_ofMembers rest (holds.mono (Nat.le_max_right ..))]
    rfl
end

end Document

/-! ## Structures -/

namespace Reader

variable {α β : Type}

namespace Shape

/-- The partial result after members in order. -/
def run (shape : Shape α) (stage : Stage) :
    List (String × Json) → shape.Partial → Except ReadError shape.Partial
  | [], state => .ok state
  | (name, value) :: rest, state => do
    let next ← shape.step stage name (Document.ofJson value) state
    run shape stage rest next

/-- Members, each one a field of a shape and none twice, from which a value is read. -/
structure Reads (shape : Shape α) (stage : Stage) (members : List (String × Json)) (value : α) :
    Prop where
  known : ∀ member ∈ members, member.1 ∈ shape.fields
  nodup : (members.map Prod.fst).Nodup
  finishes : ∃ last,
    shape.run stage members shape.start = .ok last ∧ shape.finish last = .ok value

theorem run_append {shape : Shape α} {stage : Stage} {first second : List (String × Json)}
    {state next : shape.Partial} (runs : shape.run stage first state = .ok next) :
    shape.run stage (first ++ second) state = shape.run stage second next := by
  induction first generalizing state with
  | nil =>
    cases runs
    rfl
  | cons member rest ih =>
    obtain ⟨name, value⟩ := member
    obtain ⟨middle, stepped, later⟩ := Except.bind_eq_ok_iff.1 runs
    rw [List.cons_append, run, stepped]
    exact ih later

theorem run_and_left {left : Shape α} {right : Shape β} {stage : Stage}
    {members : List (String × Json)} (known : ∀ member ∈ members, member.1 ∈ left.fields)
    {state next : left.Partial} (runs : left.run stage members state = .ok next)
    (other : right.Partial) :
    (left.and right).run stage members (state, other) = .ok (next, other) := by
  induction members generalizing state with
  | nil =>
    cases runs
    rfl
  | cons member rest ih =>
    obtain ⟨name, value⟩ := member
    obtain ⟨middle, stepped, later⟩ := Except.bind_eq_ok_iff.1 runs
    refine Except.bind_eq_ok_iff.2 ⟨(middle, other), ?_, ih (fun found member =>
      known found (List.mem_cons_of_mem _ member)) later⟩
    dsimp only [Shape.and]
    rw [if_pos (known (name, value) (List.mem_cons_self ..)), stepped]
    rfl

theorem run_and_right {left : Shape α} {right : Shape β} {stage : Stage}
    {members : List (String × Json)} (unknown : ∀ member ∈ members, member.1 ∉ left.fields)
    {state next : right.Partial} (runs : right.run stage members state = .ok next)
    (other : left.Partial) :
    (left.and right).run stage members (other, state) = .ok (other, next) := by
  induction members generalizing state with
  | nil =>
    cases runs
    rfl
  | cons member rest ih =>
    obtain ⟨name, value⟩ := member
    obtain ⟨middle, stepped, later⟩ := Except.bind_eq_ok_iff.1 runs
    refine Except.bind_eq_ok_iff.2 ⟨(other, middle), ?_, ih (fun found member =>
      unknown found (List.mem_cons_of_mem _ member)) later⟩
    dsimp only [Shape.and]
    rw [if_neg (unknown (name, value) (List.mem_cons_self ..)), stepped]
    rfl

theorem Reads.and {left : Shape α} {right : Shape β} {stage : Stage}
    {first second : List (String × Json)} {one : α} {other : β}
    (leftReads : left.Reads stage first one) (rightReads : right.Reads stage second other)
    (disjoint : ∀ name ∈ right.fields, name ∉ left.fields) :
    (left.and right).Reads stage (first ++ second) (one, other) := by
  refine ⟨?_, ?_, ?_⟩
  · intro member belongs
    rcases List.mem_append.1 belongs with early | late
    · exact List.mem_append_left _ (leftReads.known member early)
    · exact List.mem_append_right _ (rightReads.known member late)
  · rw [List.map_append, List.nodup_append]
    refine ⟨leftReads.nodup, rightReads.nodup, ?_⟩
    rintro name early _ late rfl
    obtain ⟨member, belongs, rfl⟩ := List.mem_map.1 early
    obtain ⟨again, belongsLate, same⟩ := List.mem_map.1 late
    exact disjoint _ (same ▸ rightReads.known again belongsLate) (leftReads.known member belongs)
  · obtain ⟨last, runs, finishes⟩ := leftReads.finishes
    obtain ⟨lastRight, runsRight, finishesRight⟩ := rightReads.finishes
    refine ⟨(last, lastRight), ?_, ?_⟩
    · refine (run_append (run_and_left leftReads.known runs right.start)).trans ?_
      exact run_and_right (fun member belongs => disjoint _ (rightReads.known member belongs))
        runsRight last
    · exact Except.bind_eq_ok_iff.2 ⟨one, finishes,
        Except.bind_eq_ok_iff.2 ⟨other, finishesRight, rfl⟩⟩

theorem Reads.convert {shape : Shape α} {stage : Stage} {members : List (String × Json)}
    {value : α} {converted : β} {conversion : α → Except ReadError β}
    (reads : shape.Reads stage members value) (converts : conversion value = .ok converted) :
    (shape.convert conversion).Reads stage members converted := by
  have same : ∀ members state,
      (shape.convert conversion).run stage members state = shape.run stage members state := by
    intro members
    induction members with
    | nil => exact fun _ => rfl
    | cons member rest ih => exact fun state => bind_congr fun next => ih next
  obtain ⟨last, runs, finishes⟩ := reads.finishes
  exact ⟨reads.known, reads.nodup, last, (same _ _).trans runs,
    Except.bind_eq_ok_iff.2 ⟨value, finishes, converts⟩⟩

theorem Reads.map {shape : Shape α} {stage : Stage} {members : List (String × Json)}
    {value : α} {converted : β} {conversion : α → β} (reads : shape.Reads stage members value)
    (converts : conversion value = converted) :
    (shape.map conversion).Reads stage members converted :=
  reads.convert (congrArg Except.ok converts)

theorem reads_one (name : String) {reader : Reader α} {absent : Option α} {stage : Stage}
    {json : Json} {value : α} (read : reader stage (Document.ofJson json) = .ok value) :
    (one name reader absent).Reads stage [(name, json)] value := by
  refine ⟨?_, by simp, some value, ?_, rfl⟩
  · intro member belongs
    rw [List.mem_singleton.1 belongs]
    exact List.mem_singleton_self name
  · refine Except.bind_eq_ok_iff.2 ⟨some value, ?_, rfl⟩
    exact Except.map_eq_ok_iff.2 ⟨value, read, rfl⟩

theorem reads_field (name : String) {reader : Reader α} {stage : Stage} {json : Json} {value : α}
    (read : reader stage (Document.ofJson json) = .ok value) :
    (field name reader).Reads stage [(name, json)] value :=
  reads_one name read

theorem reads_fieldOr (name : String) {reader : Reader α} {absent : α} {stage : Stage}
    {json : Json} {value : α} (read : reader stage (Document.ofJson json) = .ok value) :
    (fieldOr name reader absent).Reads stage [(name, json)] value :=
  reads_one name read

/-- A field that is left out has its default. -/
theorem reads_absent (name : String) {reader : Reader α} {absent : α} {stage : Stage} :
    (fieldOr name reader absent).Reads stage [] absent :=
  ⟨nofun, List.nodup_nil, none, rfl, rfl⟩

/-- A value that is left out if it is absent, and that is not written as null. -/
theorem reads_fieldOpt (name : String) {reader : Reader α} {stage : Stage} {encode : α → Json}
    (value : Option α)
    (read : ∀ present, value = some present →
      reader.optional stage (Document.ofJson (encode present)) = .ok (some present)) :
    (fieldOpt name reader).Reads stage (Json.member? name (value.map encode)) value := by
  cases value with
  | none => exact reads_absent name
  | some present => exact reads_one name (read present rfl)

end Shape

/-- An object is read member by member, as long as every member is known and none stands twice. -/
theorem readMembers_ofMembers {shape : Shape α} {stage : Stage} {members : List (String × Json)}
    {seen : List String} {state : shape.Partial}
    (known : ∀ member ∈ members, member.1 ∈ shape.fields ∧ member.1 ∉ seen)
    (nodup : (members.map Prod.fst).Nodup) :
    readMembers shape stage (Document.ofMembers members) seen state =
      shape.run stage members state := by
  induction members generalizing seen state with
  | nil => rfl
  | cons member rest ih =>
    obtain ⟨name, value⟩ := member
    obtain ⟨isField, unseen⟩ := known (name, value) (List.mem_cons_self ..)
    rw [List.map_cons, List.nodup_cons] at nodup
    change (if name ∈ shape.fields then _ else _) = _
    rw [if_pos isField, if_neg unseen]
    refine bind_congr fun next => ih (fun member belongs => ⟨?_, ?_⟩) nodup.2
    · exact (known member (List.mem_cons_of_mem _ belongs)).1
    · rw [List.mem_cons]
      rintro (same | again)
      · exact nodup.1 (List.mem_map.2 ⟨member, belongs, same⟩)
      · exact (known member (List.mem_cons_of_mem _ belongs)).2 again

theorem Shape.Reads.ofMembers {shape : Shape α} {stage : Stage} {members : List (String × Json)}
    {value : α} (reads : shape.Reads stage members value) :
    Reader.ofMembers shape stage (Document.ofMembers members) .closed = .ok value := by
  obtain ⟨last, runs, finishes⟩ := reads.finishes
  rw [Reader.ofMembers, readMembers_ofMembers (fun member belongs =>
    ⟨reads.known member belongs, List.not_mem_nil⟩) reads.nodup, runs]
  exact finishes

theorem Shape.Reads.structured {shape : Shape α} {stage inner : Stage}
    (entered : stage.enter = .ok inner) {members : List (String × Json)} {value : α}
    (reads : shape.Reads inner members value) :
    Reader.structured shape stage (Document.ofJson (.obj members)) = .ok value := by
  rw [Document.ofJson, Reader.structured, entered]
  exact reads.ofMembers

/-- An array is read element by element. -/
theorem list_ofItems {reader : Reader α} {encode : α → Json} {stage inner : Stage}
    (entered : stage.enter = .ok inner) {values : List α}
    (each : ∀ value ∈ values, reader inner (Document.ofJson (encode value)) = .ok value) :
    list reader stage (Document.ofJson (.arr (values.map encode))) = .ok values := by
  have all : elements reader inner (Document.ofItems (values.map encode)) = .ok values := by
    clear entered
    induction values with
    | nil => rfl
    | cons value rest ih =>
      rw [List.map_cons, Document.ofItems, elements, each value (List.mem_cons_self ..)]
      rw [ih fun other member => each other (List.mem_cons_of_mem _ member)]
      rfl
  rw [Document.ofJson, list, entered]
  exact Except.bind_eq_ok_iff.2 ⟨inner, rfl, Except.bind_eq_ok_iff.2 ⟨values, all, rfl⟩⟩

theorem natBelow_ofJson {bound value : Nat} (below : value < bound) (stage : Stage) :
    natBelow bound stage (Document.ofJson (.nat value)) = .ok value := by
  rw [Json.nat, Document.ofJson, natBelow, if_pos (by omega)]
  rfl

theorem string_ofJson (value : String) (stage : Stage) :
    string stage (Document.ofJson (.str value)) = .ok value := rfl

/-- The name of an alternative is read as the alternative. -/
theorem choice_ofJson {names : List (String × α)} {name : String} {value : α}
    (found : names.lookup name = some value) (stage : Stage) :
    choice names stage (Document.ofJson (.str name)) = .ok value := by
  simp only [Document.ofJson, choice, variant, alternative, found]
  rfl

/-- An object whose only member has the name of an alternative is read by its content. -/
theorem variant_ofMember {names : List (String × α)}
    {select : α → Option (Stage × Document) → Except ReadError β} {name : String} {chosen : α}
    (known : alternative names name = .ok chosen) {content : Json} {value : β}
    {stage inner : Stage} (entered : stage.enter = .ok inner)
    (selected : select chosen (some (inner, Document.ofJson content)) = .ok value) :
    variant names select stage (Document.ofJson (.obj [(name, content)])) = .ok value := by
  simp only [Document.ofJson, Document.ofMembers, variant, entered, Document.asString, known,
    selected, List.isEmpty_nil, Bool.not_true, Bool.and_false, bind, Except.bind,
    Bool.false_eq_true, if_false]
  rfl

/-! ## Tables -/

theorem put_of_not_mem {key : String} {value : α} {table : List (String × α)}
    (fresh : key ∉ table.map Prod.fst) : put key value table = table ++ [(key, value)] := by
  induction table with
  | nil => rfl
  | cons entry rest ih =>
    obtain ⟨other, present⟩ := entry
    rw [List.map_cons, List.mem_cons, not_or] at fresh
    rw [put, if_neg fun same => fresh.1 same.symm, ih fresh.2, List.cons_append]

theorem mem_keys_put {key other : String} {value : α} {table : List (String × α)} :
    other ∈ (put key value table).map Prod.fst ↔ other = key ∨ other ∈ table.map Prod.fst := by
  induction table with
  | nil => simp [put]
  | cons entry rest ih =>
    rw [put]
    split
    case isTrue same => simp [same]
    case isFalse => simp only [List.map_cons, List.mem_cons, ih, or_left_comm]

/-- What is put into a table repeats no key. -/
theorem nodup_keys_put {table : List (String × α)} (nodup : (table.map Prod.fst).Nodup)
    (key : String) (value : α) : ((put key value table).map Prod.fst).Nodup := by
  induction table with
  | nil => simp [put]
  | cons entry rest ih =>
    obtain ⟨other, present⟩ := entry
    rw [List.map_cons, List.nodup_cons] at nodup
    rw [put]
    split
    case isTrue same => exact List.nodup_cons.2 (same ▸ nodup)
    case isFalse other_ne =>
      refine List.nodup_cons.2 ⟨fun again => ?_, ih nodup.2⟩
      exact (mem_keys_put.1 again).elim other_ne nodup.1

theorem nodup_keys_entries {reader : Reader α} {stage : Stage}
    {members : List (Document × Document)} {table values : List (String × α)}
    (nodup : (table.map Prod.fst).Nodup)
    (read : entries reader stage members table = .ok values) : (values.map Prod.fst).Nodup := by
  induction members generalizing table with
  | nil =>
    cases read
    exact nodup
  | cons member rest ih =>
    obtain ⟨name, -, read⟩ := Except.bind_eq_ok_iff.1 read
    obtain ⟨value, -, read⟩ := Except.bind_eq_ok_iff.1 read
    exact ih (nodup_keys_put nodup name value) read

theorem entries_ofMembers {reader : Reader α} {encode : α → Json} {stage : Stage}
    {values : List (String × α)} {table : List (String × α)}
    (nodup : ((table ++ values).map Prod.fst).Nodup)
    (each : ∀ entry ∈ values, reader stage (Document.ofJson (encode entry.2)) = .ok entry.2) :
    entries reader stage
        (Document.ofMembers (values.map fun entry => (entry.1, encode entry.2))) table =
      .ok (table ++ values) := by
  induction values generalizing table with
  | nil => simp [Document.ofMembers, entries]
  | cons entry rest ih =>
    have fresh : entry.1 ∉ table.map Prod.fst := by
      rw [List.map_append, List.nodup_append] at nodup
      exact fun early => nodup.2.2 entry.1 early entry.1 (List.mem_cons_self ..) rfl
    rw [List.map_cons, Document.ofMembers, entries, Document.asString,
      each entry (List.mem_cons_self ..)]
    change entries _ _ _ (put entry.1 entry.2 table) = _
    rw [put_of_not_mem fresh, ih (by simpa using nodup) fun other member =>
      each other (List.mem_cons_of_mem _ member), List.append_assoc]
    rfl

/-- A table without repeated keys is read entry by entry. -/
theorem table_ofMembers {reader : Reader α} (encode : α → Json) {stage inner : Stage}
    (entered : stage.enter = .ok inner) {values : List (String × α)}
    (nodup : (values.map Prod.fst).Nodup)
    (each : ∀ entry ∈ values, reader inner (Document.ofJson (encode entry.2)) = .ok entry.2) :
    table reader stage
        (Document.ofJson (.obj (values.map fun entry => (entry.1, encode entry.2)))) =
      .ok values := by
  rw [Document.ofJson, table, entered]
  exact Except.bind_eq_ok_iff.2 ⟨inner, rfl,
    Except.bind_eq_ok_iff.2 ⟨values, entries_ofMembers nodup each, rfl⟩⟩

/-! ## What is read of any text -/

/-- Whatever a reader reads has a property. -/
def Yields (reader : Reader α) (property : α → Prop) : Prop :=
  ∀ stage document value, reader stage document = .ok value → property value

theorem table_yields (reader : Reader α) :
    (table reader).Yields fun values => (values.map Prod.fst).Nodup := by
  intro stage document values read
  unfold table at read
  split at read
  case h_1 =>
    obtain ⟨inner, -, read⟩ := Except.bind_eq_ok_iff.1 read
    obtain ⟨found, listed, read⟩ := Except.bind_eq_ok_iff.1 read
    obtain ⟨-, -, read⟩ := Except.bind_eq_ok_iff.1 read
    cases read
    exact nodup_keys_entries (show (([] : List (String × α)).map Prod.fst).Nodup from
      List.nodup_nil) listed
  case h_2 => cases read

namespace Shape

/-- Whatever comes of a shape has a property: some invariant of its partial results holds at the
start, is kept by every step and gives the property at the end. -/
def Yields (shape : Shape α) (property : α → Prop) : Prop :=
  ∃ invariant : shape.Partial → Prop, invariant shape.start ∧
    (∀ {stage name document state next}, invariant state →
      shape.step stage name document state = .ok next → invariant next) ∧
    ∀ {state value}, invariant state → shape.finish state = .ok value → property value

theorem field_yields (name : String) {reader : Reader α} {property : α → Prop}
    (yields : reader.Yields property) : (field name reader).Yields property := by
  refine ⟨fun found => ∀ value, found = some value → property value, nofun, ?_, ?_⟩
  · intro stage name document state next _ stepped
    obtain ⟨value, read, rfl⟩ := Except.map_eq_ok_iff.1 stepped
    rintro _ ⟨⟩
    exact yields stage document value read
  · intro state value known finishes
    match state, finishes with
    | some _, rfl => exact known value rfl

theorem yields_true (shape : Shape α) : shape.Yields fun _ => True :=
  ⟨fun _ => True, trivial, fun _ _ => trivial, fun _ _ => trivial⟩

theorem Yields.and {left : Shape α} {right : Shape β} {first : α → Prop} {second : β → Prop}
    (leftYields : left.Yields first) (rightYields : right.Yields second) :
    (left.and right).Yields fun value => first value.1 ∧ second value.2 := by
  obtain ⟨early, earlyStart, earlyStep, earlyFinish⟩ := leftYields
  obtain ⟨late, lateStart, lateStep, lateFinish⟩ := rightYields
  refine ⟨fun state => early state.1 ∧ late state.2, ⟨earlyStart, lateStart⟩, ?_, ?_⟩
  · intro stage name document state next known stepped
    simp only [Shape.and] at stepped
    split at stepped
    · obtain ⟨changed, moved, rfl⟩ := Except.map_eq_ok_iff.1 stepped
      exact ⟨earlyStep known.1 moved, known.2⟩
    · obtain ⟨changed, moved, rfl⟩ := Except.map_eq_ok_iff.1 stepped
      exact ⟨known.1, lateStep known.2 moved⟩
  · intro state value known finishes
    obtain ⟨one, finishesLeft, rest⟩ := Except.bind_eq_ok_iff.1 finishes
    obtain ⟨other, finishesRight, same⟩ := Except.bind_eq_ok_iff.1 rest
    cases same
    exact ⟨earlyFinish known.1 finishesLeft, lateFinish known.2 finishesRight⟩

theorem Yields.map {shape : Shape α} {property : α → Prop} (yields : shape.Yields property)
    {conversion : α → β} {converted : β → Prop}
    (converts : ∀ value, property value → converted (conversion value)) :
    (shape.map conversion).Yields converted := by
  obtain ⟨invariant, start, step, finish⟩ := yields
  refine ⟨invariant, start, step, ?_⟩
  intro state value known finishes
  obtain ⟨found, ended, same⟩ := Except.bind_eq_ok_iff.1 finishes
  cases same
  exact converts found (finish known ended)

section Structured

variable {shape : Shape α} {invariant : shape.Partial → Prop}
  (step : ∀ {stage name document state next}, invariant state →
    shape.step stage name document state = .ok next → invariant next)

include step

theorem readMembers_keeps {stage : Stage} {members : List (Document × Document)}
    {seen : List String} {state last : shape.Partial} (known : invariant state)
    (read : readMembers shape stage members seen state = .ok last) : invariant last := by
  induction members generalizing seen state with
  | nil =>
    cases read
    exact known
  | cons member rest ih =>
    obtain ⟨name, -, read⟩ := Except.bind_eq_ok_iff.1 read
    split at read
    · split at read
      · cases read
      · obtain ⟨next, stepped, read⟩ := Except.bind_eq_ok_iff.1 read
        exact ih (step known stepped) read
    · obtain ⟨-, -, read⟩ := Except.bind_eq_ok_iff.1 read
      exact ih known read

theorem readInOrder_keeps {stage : Stage} {ending : Ending} {names : List String}
    {items : List Document} {state last : shape.Partial} (known : invariant state)
    (read : readInOrder shape stage ending names items state = .ok last) : invariant last := by
  induction names generalizing items state with
  | nil =>
    cases items with
    | nil =>
      obtain ⟨-, -, same⟩ := Except.bind_eq_ok_iff.1 read
      cases same
      exact known
    | cons item rest => cases read
  | cons name rest ih =>
    cases items with
    | nil =>
      obtain ⟨-, -, same⟩ := Except.bind_eq_ok_iff.1 read
      cases same
      exact known
    | cons item others =>
      obtain ⟨next, stepped, read⟩ := Except.bind_eq_ok_iff.1 read
      exact ih (step known stepped) read

end Structured

/-- A structure has what its shape yields, be it read from an object or from an array. -/
theorem Yields.structured {shape : Shape α} {property : α → Prop}
    (yields : shape.Yields property) : (Reader.structured shape).Yields property := by
  obtain ⟨invariant, start, step, finish⟩ := yields
  intro stage document value read
  unfold Reader.structured at read
  split at read
  case h_1 =>
    obtain ⟨inner, -, read⟩ := Except.bind_eq_ok_iff.1 read
    obtain ⟨last, members, read⟩ := Except.bind_eq_ok_iff.1 read
    obtain ⟨-, -, finishes⟩ := Except.bind_eq_ok_iff.1 read
    exact finish (readMembers_keeps step start members) finishes
  case h_2 =>
    obtain ⟨inner, -, read⟩ := Except.bind_eq_ok_iff.1 read
    obtain ⟨last, items, read⟩ := Except.bind_eq_ok_iff.1 read
    exact finish (readInOrder_keeps step start items) (Except.mapError_eq_ok_iff.1 read)
  case h_3 => cases read

end Shape

/-- What is read from a whole text is what a reader yields. -/
theorem Yields.ofText {reader : Reader α} {property : α → Prop} (yields : reader.Yields property)
    {text : String} {value : α} (read : Reader.ofText reader text = .ok value) :
    property value := by
  rw [Reader.ofText] at read
  generalize Document.ofText text = scanned at read
  obtain ⟨document, trailing⟩ := scanned
  obtain ⟨found, known, last⟩ := Except.bind_eq_ok_iff.1 read
  cases trailing with
  | true => cases last
  | false =>
    cases last
    exact yields _ _ value known

/-! ## Tagged values -/

/-- Members of which none is the tag are left as they are, after they were read. -/
theorem splitTag_ofMembers {tag : String} {names : List (String × α)}
    {stage : Stage} {members : List (String × Json)} (untagged : ∀ member ∈ members, member.1 ≠ tag)
    (holds : stage.Holds (Json.depthMembers members)) (found : Option α) :
    splitTag tag names stage (Document.ofMembers members) found =
      .ok (found, Document.ofMembers members) := by
  induction members with
  | nil => rfl
  | cons member rest ih =>
    obtain ⟨name, value⟩ := member
    rw [Json.depthMembers] at holds
    have read := Document.read_ofJson value (holds.mono (Nat.le_max_left ..))
    have later := ih (fun member belongs => untagged member (List.mem_cons_of_mem _ belongs))
      (holds.mono (Nat.le_max_right ..))
    rw [Document.ofMembers, splitTag]
    change (if name = tag then _ else _) = _
    rw [if_neg (untagged (name, value) (List.mem_cons_self ..)), read, later]
    rfl

/-- A tagged value whose tag is written first is read by its tag. -/
theorem tagged_ofJson {tag name : String} {names : List (String × α)}
    {select : α → Content → Except ReadError β} {chosen : α}
    (known : alternative names name = .ok chosen) {members : List (String × Json)}
    (untagged : ∀ member ∈ members, member.1 ≠ tag) {stage inner : Stage}
    (entered : stage.enter = .ok inner) (holds : inner.Holds (Json.depthMembers members)) :
    tagged tag names select stage (Document.ofJson (.obj ((tag, .str name) :: members))) =
      select chosen (.members (Document.ofMembers members)) := by
  have split : splitTag tag names inner (Document.ofMembers ((tag, .str name) :: members)) none =
      .ok (some chosen, Document.ofMembers members) := by
    rw [Document.ofMembers, splitTag]
    change (if tag = tag then alternative names name >>= _ else _) = _
    rw [if_pos rfl, known]
    exact splitTag_ofMembers untagged holds (some chosen)
  rw [Document.ofJson, tagged, entered]
  change (splitTag _ _ _ _ _ >>= _) = _
  rw [split]
  rfl

end Reader

end FormFlow
