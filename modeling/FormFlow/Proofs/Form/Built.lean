import FormFlow.Proofs.Except
import FormFlow.Proofs.Form.Coherence
import FormFlow.Serial.Form

/-!
# Forms that are read or built

A form comes from its text, or from calls that add one node each. `Form.Built` says so, and
every such form has a coherent store (`Form.Built.coherent`): reading inserts the stored
nodes one by one, and a call edits the store that it is made on (`NodeStore.Edited`). It
appends one node, or it links a formatter, a default value or an effect and so replaces the
kind of a node by one of the same sort.

For the text it is enough to follow what a structure is put together from. `Shape.Gives`
states a property of its value that holds whatever the members of the text are.
-/

set_option autoImplicit false

namespace FormFlow

/-! ## Structures that are read -/

namespace Reader

/-- Every value of a shape has a property: what is read satisfies an invariant field by field,
and at the end the invariant gives the property. -/
def Shape.Gives {α : Type} (shape : Shape α) (Result : α → Prop) : Prop :=
  ∃ Good : shape.Partial → Prop,
    Good shape.start ∧
    (∀ stage name document state next, Good state →
      shape.step stage name document state = .ok next → Good next) ∧
    ∀ state value, Good state → shape.finish state = .ok value → Result value

namespace Shape

variable {α β : Type}

/-- Of a shape in general nothing is known. -/
theorem gives_nothing (shape : Shape α) : shape.Gives fun _ => True :=
  ⟨fun _ => True, trivial, fun _ _ _ _ _ _ _ => trivial, fun _ _ _ _ => trivial⟩

/-- The value of a field has what its reader gives. -/
theorem gives_field (name : String) (reader : Reader α) {Result : α → Prop}
    (each : ∀ stage document value, reader stage document = .ok value → Result value) :
    (Shape.field name reader).Gives Result := by
  refine ⟨fun (state : Option α) => ∀ value, state = some value → Result value, nofun, ?_, ?_⟩
  · intro stage name document state next _ stepped
    obtain ⟨value, read, rfl⟩ := Except.map_eq_ok_iff.1 stepped
    rintro _ ⟨⟩
    exact each stage document value read
  · intro state value good finished
    cases state with
    | none => cases finished
    | some found =>
      cases finished
      exact good value rfl

theorem Gives.and {first : Shape α} {second : Shape β} {Result₁ : α → Prop}
    {Result₂ : β → Prop} (left : first.Gives Result₁) (right : second.Gives Result₂) :
    (first.and second).Gives fun value => Result₁ value.1 ∧ Result₂ value.2 := by
  obtain ⟨Good₁, start₁, step₁, finish₁⟩ := left
  obtain ⟨Good₂, start₂, step₂, finish₂⟩ := right
  refine ⟨fun state => Good₁ state.1 ∧ Good₂ state.2, ⟨start₁, start₂⟩, ?_, ?_⟩
  · intro stage name document state next good stepped
    dsimp only [Shape.and] at stepped
    split at stepped
    · obtain ⟨changed, read, rfl⟩ := Except.map_eq_ok_iff.1 stepped
      exact ⟨step₁ _ _ _ _ _ good.1 read, good.2⟩
    · obtain ⟨changed, read, rfl⟩ := Except.map_eq_ok_iff.1 stepped
      exact ⟨good.1, step₂ _ _ _ _ _ good.2 read⟩
  · intro state value good finished
    obtain ⟨one, oneFound, finished⟩ := Except.bind_eq_ok_iff.1 finished
    obtain ⟨other, otherFound, finished⟩ := Except.bind_eq_ok_iff.1 finished
    cases finished
    exact ⟨finish₁ _ _ good.1 oneFound, finish₂ _ _ good.2 otherFound⟩

theorem Gives.convert {shape : Shape α} {Result : α → Prop} {Converted : β → Prop}
    {conversion : α → Except ReadError β} (gives : shape.Gives Result)
    (converts : ∀ value converted, Result value → conversion value = .ok converted →
      Converted converted) :
    (shape.convert conversion).Gives Converted := by
  obtain ⟨Good, start, step, finish⟩ := gives
  refine ⟨Good, start, step, ?_⟩
  intro state converted good finished
  obtain ⟨value, found, finished⟩ := Except.bind_eq_ok_iff.1 finished
  exact converts value converted (finish state value good found) finished

end Shape

section

variable {α : Type} {shape : Shape α} {stage : Stage} {Good : shape.Partial → Prop}
  (step : ∀ stage name document state next, Good state →
    shape.step stage name document state = .ok next → Good next)
include step

theorem readMembers_good {members : List (Document × Document)} {seen : List String}
    {state last : shape.Partial} (good : Good state)
    (read : readMembers shape stage members seen state = .ok last) : Good last := by
  induction members generalizing seen state with
  | nil =>
    cases read
    exact good
  | cons member rest ih =>
    obtain ⟨key, item⟩ := member
    rw [readMembers] at read
    obtain ⟨name, -, read⟩ := Except.bind_eq_ok_iff.1 read
    split at read
    · split at read
      · cases read
      · obtain ⟨next, stepped, read⟩ := Except.bind_eq_ok_iff.1 read
        exact ih (step _ _ _ _ _ good stepped) read
    · obtain ⟨_, -, read⟩ := Except.bind_eq_ok_iff.1 read
      exact ih good read

theorem readInOrder_good {ending : Ending} {names : List String} {items : List Document}
    {state last : shape.Partial} (good : Good state)
    (read : readInOrder shape stage ending names items state = .ok last) : Good last := by
  induction names generalizing items state with
  | nil =>
    cases items with
    | nil =>
      obtain ⟨_, -, read⟩ := Except.bind_eq_ok_iff.1 read
      cases read
      exact good
    | cons item rest => cases read
  | cons name names ih =>
    cases items with
    | nil =>
      obtain ⟨_, -, read⟩ := Except.bind_eq_ok_iff.1 read
      cases read
      exact good
    | cons item rest =>
      obtain ⟨next, stepped, read⟩ := Except.bind_eq_ok_iff.1 read
      exact ih (step _ _ _ _ _ good stepped) read

end

/-- What is read as a structure has the property of its shape. -/
theorem structured_gives {α : Type} {shape : Shape α} {Result : α → Prop}
    (gives : shape.Gives Result) {stage : Stage} {document : Document} {value : α}
    (read : structured shape stage document = .ok value) : Result value := by
  obtain ⟨Good, start, step, finish⟩ := gives
  cases document with
  | object members ending =>
    obtain ⟨inner, -, read⟩ := Except.bind_eq_ok_iff.1 read
    obtain ⟨last, stepped, read⟩ := Except.bind_eq_ok_iff.1 read
    obtain ⟨_, -, read⟩ := Except.bind_eq_ok_iff.1 read
    exact finish last value (readMembers_good step start stepped) read
  | array items ending =>
    obtain ⟨inner, -, read⟩ := Except.bind_eq_ok_iff.1 read
    obtain ⟨last, stepped, read⟩ := Except.bind_eq_ok_iff.1 read
    exact finish last value (readInOrder_good step start stepped)
      (Except.mapError_eq_ok_iff.1 read)
  | _ => cases read

end Reader

/-- A store that is read is coherent, since its nodes are inserted one by one. -/
theorem NodeStore.coherent_of_reader (stage : Stage) (document : Document) (store : NodeStore)
    (read : NodeStore.reader stage document = .ok store) : store.Coherent := by
  have gives : NodeStore.shape.Gives Coherent := by
    apply (Reader.Shape.gives_nothing _).convert
    intro stored store _ inserted
    exact .ofNodes (Except.mapError_eq_ok_iff.1 inserted)
  exact Reader.structured_gives gives read

namespace Form

section

variable {Result : NodeStore → Prop}
  (each : ∀ stage document store, NodeStore.reader stage document = .ok store → Result store)
include each

/-- The store of a form that is read is a store that is read. -/
theorem nodes_of_reader {stage : Stage} {document : Document} {form : Form}
    (read : Form.reader stage document = .ok form) : Result form.nodes := by
  have nodes := Reader.Shape.gives_field "nodes" NodeStore.reader each
  have gives : Form.shape.Gives fun form => Result form.nodes := by
    apply ((Reader.Shape.gives_nothing _).and nodes).convert
    rintro ⟨code, store⟩ form both ⟨⟩
    exact both.2
  exact Reader.structured_gives gives read

theorem nodes_of_ofText {text : String} {form : Form} (read : Form.ofText text = .ok form) :
    Result form.nodes := by
  simp only [ofText, Reader.ofText] at read
  cases parsed : Document.ofText text with
  | mk document trailing =>
    rw [parsed] at read
    obtain ⟨found, complete, read⟩ := Except.bind_eq_ok_iff.1 read
    cases trailing with
    | true => cases read
    | false =>
      cases read
      exact nodes_of_reader each complete

end

/-! ## Calls that build a form -/

/-- A form that was read from a text or built call by call. -/
inductive Built : Form → Prop where
  | empty (code : String) : Built (.empty code)
  | ofText {text : String} {form : Form} : Form.ofText text = .ok form → Built form
  | addJourney {form next : Form} {parent : Option NodeId} {code : String} {id : NodeId} :
    Built form → form.addJourney parent code = .ok (next, id) → Built next
  | addStep {form next : Form} {journey : NodeId} {path : String} {id : NodeId} :
    Built form → form.addStep journey path = .ok (next, id) → Built next
  | addBlock {form next : Form} {parent : NodeId} {variant : String} {id : NodeId} :
    Built form → form.addBlock parent variant = .ok (next, id) → Built next
  | addCollection {form next : Form} {parent : NodeId} {code : String} {source : Option NodeId}
      {id : NodeId} :
    Built form → form.addCollection parent code source = .ok (next, id) → Built next
  | addField {form next : Form} {parent : NodeId} {code variant : String} {id : NodeId} :
    Built form → form.addField parent code variant = .ok (next, id) → Built next
  | addReference {form next : Form} {parent : NodeId} {path : List String} {id : NodeId} :
    Built form → form.addReference parent path = .ok (next, id) → Built next
  | addFunction {form next : Form} {parent : NodeId} {name : String} {arguments : List NodeId}
      {id : NodeId} :
    Built form → form.addFunction parent name arguments = .ok (next, id) → Built next
  | addLiteral {form next : Form} {parent : NodeId} {value : Json} {id : NodeId} :
    Built form → form.addLiteral parent value = .ok (next, id) → Built next
  | addFormatter {form next : Form} {field : NodeId} {name : String} {id : NodeId} :
    Built form → form.addFormatter field name = .ok (next, id) → Built next
  | setDefaultValue {form next : Form} {field expression : NodeId} :
    Built form → form.setDefaultValue field expression = .ok next → Built next
  | addTransition {form next : Form} {scope : NodeId} {trigger : Trigger} {id : NodeId} :
    Built form → form.addTransition scope trigger = .ok (next, id) → Built next
  | addEffect {form next : Form} {transition : NodeId} {name : String} {id : NodeId} :
    Built form → form.addEffect transition name = .ok (next, id) → Built next

end Form

/-- One store came from another by insertions, and by changes of properties that the indices do
not see. -/
inductive NodeStore.Edited (store : NodeStore) : NodeStore → Prop where
  | refl : Edited store store
  | push {later : NodeStore} {node : Node} : Edited store later →
    later.conflict? node = none → Edited store (later.push node)
  | setKind {later changed : NodeStore} {id : NodeId} {node : Node} {kind : NodeKind} :
    Edited store later → later.node? id = some node → kind.isReference = node.kind.isReference →
    kind.pseudo? = node.kind.pseudo? → later.setKind id kind = .ok changed → Edited store changed

theorem NodeStore.Edited.coherent {store later : NodeStore} (edited : store.Edited later)
    (coherent : store.Coherent) : later.Coherent := by
  induction edited with
  | refl => exact coherent
  | push _ free ih => exact ih.push free
  | setKind _ found reference pseudo set ih => exact ih.setKind found reference pseudo set

namespace Form

section

variable {form next : Form} {id : NodeId}

theorem edited_insert {store : NodeStore} (edited : store.Edited form.nodes)
    {parent : Option NodeId} {kind : NodeKind}
    (called : form.insert parent kind = .ok (next, id)) : store.Edited next.nodes := by
  obtain ⟨⟨nodes, other⟩, inserted, same⟩ := Except.bind_eq_ok_iff.1 called
  cases same
  obtain ⟨free, -, rfl⟩ := NodeStore.insert_eq_ok_iff.1 inserted
  exact edited.push free

theorem edited_insertUnder {parent : NodeId} {kind : NodeKind}
    (called : form.insertUnder parent kind = .ok (next, id)) : form.nodes.Edited next.nodes := by
  obtain ⟨_, -, inserted⟩ := Except.bind_eq_ok_iff.1 called
  exact edited_insert .refl inserted

theorem edited_insertUnderKind {parent : NodeId} {expected : String} {test : NodeKind → Bool}
    {kind : NodeKind} (called : form.insertUnderKind parent expected test kind = .ok (next, id)) :
    form.nodes.Edited next.nodes := by
  obtain ⟨_, -, inserted⟩ := Except.bind_eq_ok_iff.1 called
  exact edited_insert .refl inserted

/-- A change of properties that the indices do not see. -/
def Unindexed (change : NodeKind → NodeKind) : Prop :=
  ∀ kind, (change kind).isReference = kind.isReference ∧ (change kind).pseudo? = kind.pseudo?

theorem edited_modifyKind {store : NodeStore} (edited : store.Edited form.nodes)
    {change : NodeKind → NodeKind} (unindexed : Unindexed change)
    (called : form.modifyKind id change = .ok next) : store.Edited next.nodes := by
  obtain ⟨node, found, set⟩ := Except.bind_eq_ok_iff.1 called
  obtain ⟨nodes, changed, same⟩ := Except.bind_eq_ok_iff.1 set
  cases same
  have present : form.nodes.node? id = some node := NodeSource.node?_of_get found
  exact edited.setKind present (unindexed node.kind).1 (unindexed node.kind).2 changed

theorem unindexed_withFormatter (formatter : NodeId) : Unindexed (withFormatter formatter) := by
  intro kind
  cases kind <;> exact ⟨rfl, rfl⟩

theorem unindexed_withDefault (expression : NodeId) : Unindexed (withDefault expression) := by
  intro kind
  cases kind <;> exact ⟨rfl, rfl⟩

theorem unindexed_withEffect (effect : NodeId) : Unindexed (withEffect effect) := by
  intro kind
  cases kind <;> exact ⟨rfl, rfl⟩

theorem edited_addJourney {parent : Option NodeId} {code : String}
    (called : form.addJourney parent code = .ok (next, id)) : form.nodes.Edited next.nodes := by
  cases parent with
  | none => exact edited_insert .refl called
  | some outer => exact edited_insertUnderKind called

theorem edited_addCollection {parent : NodeId} {code : String} {source : Option NodeId}
    (called : form.addCollection parent code source = .ok (next, id)) :
    form.nodes.Edited next.nodes := by
  obtain ⟨_, -, called⟩ := Except.bind_eq_ok_iff.1 called
  obtain ⟨_, -, called⟩ := Except.bind_eq_ok_iff.1 called
  exact edited_insert .refl called

theorem edited_addFormatter {field : NodeId} {name : String}
    (called : form.addFormatter field name = .ok (next, id)) : form.nodes.Edited next.nodes := by
  obtain ⟨_, -, called⟩ := Except.bind_eq_ok_iff.1 called
  obtain ⟨⟨extended, formatter⟩, added, called⟩ := Except.bind_eq_ok_iff.1 called
  obtain ⟨linked, changed, same⟩ := Except.bind_eq_ok_iff.1 called
  cases same
  exact edited_modifyKind (edited_insertUnder added) (unindexed_withFormatter _) changed

theorem edited_setDefaultValue {field expression : NodeId}
    (called : form.setDefaultValue field expression = .ok next) :
    form.nodes.Edited next.nodes := by
  obtain ⟨_, -, called⟩ := Except.bind_eq_ok_iff.1 called
  obtain ⟨_, -, changed⟩ := Except.bind_eq_ok_iff.1 called
  exact edited_modifyKind .refl (unindexed_withDefault _) changed

theorem edited_addEffect {transition : NodeId} {name : String}
    (called : form.addEffect transition name = .ok (next, id)) : form.nodes.Edited next.nodes := by
  obtain ⟨_, -, called⟩ := Except.bind_eq_ok_iff.1 called
  obtain ⟨⟨extended, effect⟩, added, called⟩ := Except.bind_eq_ok_iff.1 called
  obtain ⟨linked, changed, same⟩ := Except.bind_eq_ok_iff.1 called
  cases same
  exact edited_modifyKind (edited_insertUnder added) (unindexed_withEffect _) changed

end

/-- The store of a form that was read or built is coherent. -/
theorem Built.coherent {form : Form} (built : form.Built) : form.nodes.Coherent := by
  induction built with
  | empty code => exact NodeStore.coherent_startingAt 0
  | ofText read => exact nodes_of_ofText NodeStore.coherent_of_reader read
  | addJourney _ called ih => exact (edited_addJourney called).coherent ih
  | addStep _ called ih => exact (edited_insertUnderKind called).coherent ih
  | addBlock _ called ih => exact (edited_insertUnder called).coherent ih
  | addCollection _ called ih => exact (edited_addCollection called).coherent ih
  | addField _ called ih => exact (edited_insertUnder called).coherent ih
  | addReference _ called ih => exact (edited_insertUnder called).coherent ih
  | addFunction _ called ih => exact (edited_insertUnder called).coherent ih
  | addLiteral _ called ih => exact (edited_insertUnder called).coherent ih
  | addFormatter _ called ih => exact (edited_addFormatter called).coherent ih
  | setDefaultValue _ called ih => exact (edited_setDefaultValue called).coherent ih
  | addTransition _ called ih => exact (edited_insertUnderKind called).coherent ih
  | addEffect _ called ih => exact (edited_addEffect called).coherent ih

end Form

end FormFlow
