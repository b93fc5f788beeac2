import FormFlow.Proofs.Form.Built
import FormFlow.Proofs.Serial.RoundTrip
import FormFlow.Proofs.Wiring.Alike
import FormFlow.Registry.Basic

/-!
# What a fingerprint stands for

A registry does not wire a form again if it holds one with the same fingerprint under the same code.
The fingerprint is that of the canonical text, which does not tell in which order the nodes were
inserted. Wiring goes by that order where a step has several fields with one code, where a scope
declares several load-transitions, and where identifiers are given to pseudo-nodes. If none of the
three shows, forms with the same canonical text are wired alike, so what the registry returns is
what wiring the form would make (`Registry.register_agrees`).

Each of the three shows in some forms with the same text (`Registry.Reordered.wire_differs`).
-/

set_option autoImplicit false

namespace FormFlow

open NodeSource

namespace Form

/-- A form from a text or from the builder, without a cycle of parents and without a named
identifier that is given to a pseudo-node. -/
structure Sound (form : Form) : Prop where
  built : form.Built
  acyclic : Acyclic form.nodes
  unclaimed : form.Unclaimed

/-- Forms with the same canonical text hold the same nodes. -/
theorem twins_of_canonicalText {form other : Form} (coherent : form.nodes.Coherent)
    (otherCoherent : other.nodes.Coherent) (same : form.canonicalText = other.canonicalText) :
    form.nodes.Twins other.nodes := by
  obtain ⟨_, _, listed⟩ := contents_of_canonicalText same
  refine ⟨coherent, otherCoherent, ?_⟩
  refine ((NodeStore.perm_nodesById form.nodes).map _).symm.trans ?_
  rw [listed]
  exact (NodeStore.perm_nodesById other.nodes).map _

/-- The canonical text does not tell the order of the nodes. -/
theorem canonicalText_eq_of_perm {form other : Form} (coherent : form.nodes.Coherent)
    (otherCoherent : other.nodes.Coherent) (code : form.code = other.code)
    (nextId : form.nodes.nextId = other.nodes.nextId)
    (perm : form.nodes.nodes.Perm other.nodes.nodes) :
    form.canonicalText = other.canonicalText := by
  have same : ∀ id, form.nodes.node? id = other.nodes.node? id := by
    intro id
    refine Option.ext fun node => ?_
    rw [NodeStore.node?_eq_some_iff coherent, NodeStore.node?_eq_some_iff otherCoherent,
      perm.mem_iff]
  rw [canonicalText, canonicalText, toJson, toJson, NodeStore.toJson, NodeStore.toJson, code,
    nextId, coherent.nodesById_eq otherCoherent same]

theorem alike_of_canonicalText {form other : Form} (sound : form.Sound) (otherSound : other.Sound)
    (aligned : form.Aligned other) (same : form.canonicalText = other.canonicalText) :
    form.Alike other where
  twins := twins_of_canonicalText sound.built.coherent otherSound.built.coherent same
  acyclic := sound.acyclic
  otherAcyclic := otherSound.acyclic
  aligned := aligned
  unclaimed := sound.unclaimed
  otherUnclaimed := otherSound.unclaimed

/-- Both forms are wired or neither is, and then they have the same pseudo-nodes and edges. -/
def WiredAlike (form other : Form) (config : WiringConfig) : Prop :=
  ((∃ wired, WiredForm.wire form config = .ok wired) ↔
      ∃ wired, WiredForm.wire other config = .ok wired) ∧
    ∀ wired others, WiredForm.wire form config = .ok wired →
      WiredForm.wire other config = .ok others → wired.Agrees others

/-- **Forms with the same canonical text are wired alike**, if the order of their nodes shows
nowhere. -/
theorem wire_alike {form other : Form} (sound : form.Sound) (otherSound : other.Sound)
    (aligned : form.Aligned other) (same : form.canonicalText = other.canonicalText)
    (config : WiringConfig) : form.WiredAlike other config := by
  have alike := alike_of_canonicalText sound otherSound aligned same
  exact ⟨⟨alike.exists_wire, alike.symm.exists_wire⟩, fun _ _ => alike.agrees⟩

end Form

/-! ## Registrations -/

namespace Registry

/-- What is asked of a registry. -/
inductive Call where
  | register (form : Form)
  | remove (code : String)

/-- A registry after a call. One that fails leaves it as it is. -/
def call (registry : Registry) : Call → Registry
  | .register form =>
    match registry.register form with
    | .ok (next, _) => next
    | .error _ => registry
  | .remove code => (registry.remove code).1

/-- A registry after some calls, empty at first. -/
def after (config : WiringConfig) (calls : List Call) : Registry := calls.foldl call (.empty config)

/-- A registration finds the content under the code, or it wires the form. -/
theorem register_cases {registry next : Registry} {form : Form} {registration : Registration}
    (registered : registry.register form = .ok (next, registration)) :
    (∃ entry, registry.find? form.code = some entry ∧ entry.fingerprint = form.fingerprint ∧
      next = registry ∧ registration = ⟨entry.wired, form.fingerprint, .unchanged⟩) ∨
    ∃ wired, WiredForm.wire form registry.config = .ok wired ∧
      next = registry.put form.code ⟨form.fingerprint, wired⟩ ∧
      registration.wired = wired ∧ registration.outcome ≠ .unchanged := by
  simp only [register] at registered
  split at registered
  · rename_i entry found
    obtain ⟨present, same⟩ := Option.filter_eq_some_iff.1 found
    cases registered
    exact .inl ⟨entry, present, of_decide_eq_true same, rfl, rfl⟩
  · obtain ⟨wired, wiring, made⟩ := Except.bind_eq_ok_iff.1 registered
    cases made
    refine .inr ⟨wired, Except.mapError_eq_ok_iff.1 wiring, rfl, rfl, ?_⟩
    dsimp only
    split <;> nofun

/-- Content that is found is not wired again. -/
theorem register_of_found {registry : Registry} {form : Form} {entry : RegisteredForm}
    (found : registry.find? form.code = some entry) (same : entry.fingerprint = form.fingerprint) :
    registry.register form = .ok (registry, ⟨entry.wired, form.fingerprint, .unchanged⟩) := by
  simp only [register, found, Option.filter_some, same, decide_true, if_true]
  rfl

/-- A form under a free code is wired. -/
theorem register_of_absent {registry : Registry} {form : Form} {wired : WiredForm}
    (absent : registry.find? form.code = none)
    (wiring : WiredForm.wire form registry.config = .ok wired) :
    registry.register form = .ok (registry.put form.code ⟨form.fingerprint, wired⟩,
      ⟨wired, form.fingerprint, .registered⟩) := by
  simp only [register, absent, Option.filter_none, wiring]
  rfl

/-- Whatever is in the registry is the wiring of a form that was registered. -/
structure Faithful (config : WiringConfig) (calls : List Call) (registry : Registry) : Prop where
  configured : registry.config = config
  forms : ∀ code entry, (code, entry) ∈ registry.forms → ∃ form, .register form ∈ calls ∧
    entry.fingerprint = form.fingerprint ∧ WiredForm.wire form config = .ok entry.wired

/-- A call keeps a registry faithful. -/
theorem Faithful.call {config : WiringConfig} {calls : List Call} {registry : Registry}
    (faithful : Faithful config calls registry) (next : Call) :
    Faithful config (calls ++ [next]) (registry.call next) := by
  have earlier : ∀ code entry, (code, entry) ∈ registry.forms → ∃ form,
      .register form ∈ calls ++ [next] ∧ entry.fingerprint = form.fingerprint ∧
        WiredForm.wire form config = .ok entry.wired := by
    intro code entry member
    obtain ⟨form, asked, made⟩ := faithful.forms code entry member
    exact ⟨form, List.mem_append_left _ asked, made⟩
  cases next with
  | remove code =>
    exact ⟨faithful.configured, fun other entry member =>
      earlier other entry (List.mem_of_mem_filter member)⟩
  | register form =>
    simp only [Registry.call]
    cases registered : registry.register form with
    | error error => exact ⟨faithful.configured, earlier⟩
    | ok result =>
      obtain ⟨after, registration⟩ := result
      rcases register_cases registered with ⟨_, _, _, rfl, _⟩ | ⟨wired, wiring, rfl, _⟩
      · exact ⟨faithful.configured, earlier⟩
      · refine ⟨faithful.configured, fun code entry member => ?_⟩
        rcases List.mem_cons.1 member with new | old
        · cases new
          rw [faithful.configured] at wiring
          exact ⟨form, List.mem_append_right _ (List.mem_singleton_self _), rfl, wiring⟩
        · exact earlier code entry (List.mem_of_mem_filter old)

theorem faithful_after (config : WiringConfig) (calls : List Call) :
    Faithful config calls (after config calls) := by
  have run : ∀ (calls done : List Call) (registry : Registry), Faithful config done registry →
      Faithful config (done ++ calls) (calls.foldl call registry) := by
    intro calls
    induction calls with
    | nil => exact fun done registry faithful => (List.append_nil done).symm ▸ faithful
    | cons next rest ih =>
      intro done registry faithful
      rw [List.append_cons]
      exact ih _ _ (faithful.call next)
  exact run calls [] _ ⟨rfl, nofun⟩

/-- What a registry returns unchanged is the wiring of a form with the same fingerprint that was
registered before. -/
theorem exists_registered {config : WiringConfig} {calls : List Call} {second : Form}
    {next : Registry} {registration : Registration}
    (registered : (after config calls).register second = .ok (next, registration))
    (unchanged : registration.outcome = .unchanged) :
    ∃ first, .register first ∈ calls ∧ first.fingerprint = second.fingerprint ∧
      WiredForm.wire first config = .ok registration.wired := by
  rcases register_cases registered with ⟨entry, found, same, _, rfl⟩ | ⟨_, _, _, _, changed⟩
  · obtain ⟨front, rest, split, _⟩ := List.lookup_eq_some_iff.1 found
    have member : (second.code, entry) ∈ (after config calls).forms := by
      rw [split]
      exact List.mem_append_right _ (List.mem_cons_self ..)
    obtain ⟨first, asked, fingerprint, wiring⟩ :=
      (faithful_after config calls).forms _ _ member
    exact ⟨first, asked, fingerprint.symm.trans same, wiring⟩
  · exact absurd unchanged changed

/-- **Equal fingerprints mean equal wiring.** Forms with the same canonical text are wired alike,
and what a registry returns unchanged for a form is the wiring of a form that was registered
before. It agrees with what wiring the form itself makes, if equal fingerprints of the two mean
equal texts. -/
theorem register_agrees (config : WiringConfig) :
    (∀ form other : Form, form.Sound → other.Sound → form.Aligned other →
      form.canonicalText = other.canonicalText → form.WiredAlike other config) ∧
    ∀ (calls : List Call) (second : Form) (next : Registry) (registration : Registration),
      (after config calls).register second = .ok (next, registration) →
      registration.outcome = .unchanged →
        ∃ first, .register first ∈ calls ∧ first.fingerprint = second.fingerprint ∧
          WiredForm.wire first config = .ok registration.wired ∧
          ((first.fingerprint = second.fingerprint → first.canonicalText = second.canonicalText) →
            first.Sound → second.Sound → first.Aligned second →
              ∃ own, WiredForm.wire second config = .ok own ∧ registration.wired.Agrees own) := by
  refine ⟨fun form other sound otherSound aligned same =>
    Form.wire_alike sound otherSound aligned same config, ?_⟩
  intro calls second next registration registered unchanged
  obtain ⟨first, asked, fingerprint, wiring⟩ := exists_registered registered unchanged
  refine ⟨first, asked, fingerprint, wiring, fun free sound otherSound aligned => ?_⟩
  obtain ⟨wires, agrees⟩ := Form.wire_alike sound otherSound aligned (free fingerprint) config
  obtain ⟨own, ownWiring⟩ := wires.1 ⟨_, wiring⟩
  exact ⟨own, ownWiring, agrees _ own wiring ownWiring⟩

/-! ### One step in several orders -/

namespace Reordered

/-- The form of one step with some nodes in it, in the order in which they are given. -/
def form (inner : List Node) : Form :=
  let nodes := ⟨⟨0⟩, none, .journey "trip"⟩ :: ⟨⟨1⟩, some ⟨0⟩, .step "/start"⟩ :: inner
  ⟨"trip", ⟨nodes, nodes.filterMap Node.link?, [], [], nodes.length⟩⟩

/-- Two fields with codes of their own. -/
def plain : List Node :=
  [⟨⟨2⟩, some ⟨1⟩, .field ⟨"name", "text", [], none⟩⟩,
    ⟨⟨3⟩, some ⟨1⟩, .field ⟨"mail", "text", [], none⟩⟩]

/-- Two fields with the same code, one of which has a formatter. -/
def twice : List Node :=
  [⟨⟨2⟩, some ⟨1⟩, .field ⟨"name", "text", [], none⟩⟩,
    ⟨⟨3⟩, some ⟨1⟩, .field ⟨"name", "text", [⟨4⟩], none⟩⟩,
    ⟨⟨4⟩, some ⟨3⟩, .function "trim" []⟩]

/-- Two load-transitions. -/
def loads : List Node :=
  [⟨⟨2⟩, some ⟨1⟩, .transition ⟨.load, []⟩⟩, ⟨⟨3⟩, some ⟨1⟩, .transition ⟨.load, []⟩⟩,
    ⟨⟨4⟩, some ⟨1⟩, .field ⟨"name", "text", [], none⟩⟩]

/-- Two fields, one of which names a default value that is not there. -/
def missing : List Node :=
  [⟨⟨2⟩, some ⟨1⟩, .field ⟨"name", "text", [], some ⟨4⟩⟩⟩,
    ⟨⟨3⟩, some ⟨1⟩, .field ⟨"mail", "text", [], none⟩⟩]

/-- The first two nodes the other way round. -/
def swapped : List Node → List Node
  | first :: second :: rest => second :: first :: rest
  | short => short

def plainText : String :=
  "[\"trip\",[[[0,null,[\"journey\",\"trip\"]],[1,0,[\"step\",\"/start\"]]," ++
    "[3,1,[\"field\",\"mail\",\"text\"]],[2,1,[\"field\",\"name\",\"text\"]]],4]]"

def twiceText : String :=
  "[\"trip\",[[[0,null,[\"journey\",\"trip\"]],[1,0,[\"step\",\"/start\"]]," ++
    "[3,1,[\"field\",\"name\",\"text\",[4]]],[2,1,[\"field\",\"name\",\"text\"]]," ++
    "[4,3,[\"function\",\"trim\"]]],5]]"

def loadsText : String :=
  "[\"trip\",[[[0,null,[\"journey\",\"trip\"]],[1,0,[\"step\",\"/start\"]]," ++
    "[3,1,[\"transition\",\"load\"]],[2,1,[\"transition\",\"load\"]]," ++
    "[4,1,[\"field\",\"name\",\"text\"]]],5]]"

def missingText : String :=
  "[\"trip\",[[[0,null,[\"journey\",\"trip\"]],[1,0,[\"step\",\"/start\"]]," ++
    "[3,1,[\"field\",\"mail\",\"text\"]],[2,1,[\"field\",\"name\",\"text\",[],4]]],4]]"

def missingInOrder : String :=
  "[\"trip\",[[[0,null,[\"journey\",\"trip\"]],[1,0,[\"step\",\"/start\"]]," ++
    "[2,1,[\"field\",\"name\",\"text\",[],4]],[3,1,[\"field\",\"mail\",\"text\"]]],4]]"

theorem read_missingInOrder : Form.ofText missingInOrder = .ok (form missing) := by cbv

/-- Each of the forms can be written down in the other order. -/
theorem read_plain : Form.ofText plainText = .ok (form (swapped plain)) := by cbv

theorem read_twice : Form.ofText twiceText = .ok (form (swapped twice)) := by cbv

theorem read_loads : Form.ofText loadsText = .ok (form (swapped loads)) := by cbv

theorem read_missing : Form.ofText missingText = .ok (form (swapped missing)) := by cbv

/-- The journey and the step of a form. -/
theorem built_step : ∃ outer : Form, outer.Built ∧ outer = form [] := by
  have journey := Form.Built.addJourney (.empty "trip")
    (rfl : Form.addJourney _ none "trip" = .ok (_, ⟨0⟩))
  exact ⟨_, journey.addStep (rfl : Form.addStep _ ⟨0⟩ "/start" = .ok (_, ⟨1⟩)), rfl⟩

theorem built_plain : (form plain).Built := by
  obtain ⟨_, step, rfl⟩ := built_step
  have name := step.addField (rfl : Form.addField _ ⟨1⟩ "name" "text" = .ok (_, ⟨2⟩))
  exact name.addField (rfl : Form.addField _ ⟨1⟩ "mail" "text" = .ok (_, ⟨3⟩))

theorem built_twice : (form twice).Built := by
  obtain ⟨_, step, rfl⟩ := built_step
  have name := step.addField (rfl : Form.addField _ ⟨1⟩ "name" "text" = .ok (_, ⟨2⟩))
  have again := name.addField (rfl : Form.addField _ ⟨1⟩ "name" "text" = .ok (_, ⟨3⟩))
  exact again.addFormatter (rfl : Form.addFormatter _ ⟨3⟩ "trim" = .ok (_, ⟨4⟩))

theorem built_loads : (form loads).Built := by
  obtain ⟨_, step, rfl⟩ := built_step
  have first := step.addTransition (rfl : Form.addTransition _ ⟨1⟩ .load = .ok (_, ⟨2⟩))
  have second := first.addTransition (rfl : Form.addTransition _ ⟨1⟩ .load = .ok (_, ⟨3⟩))
  exact second.addField (rfl : Form.addField _ ⟨1⟩ "name" "text" = .ok (_, ⟨4⟩))

/-- Parents come first. -/
theorem acyclic {inner : List Node}
    (first : ∀ node ∈ inner, node.parent.all fun parent => parent.val < node.id.val) :
    Acyclic (form inner).nodes := by
  refine NodeStore.acyclic_of_descends NodeId.val ?_
  intro node member outer contained
  rcases List.mem_cons.1 member with rfl | member
  · cases contained
  rcases List.mem_cons.1 member with rfl | member
  · cases contained
    decide
  · simpa [contained] using first node member

/-- The canonical text does not tell the order. -/
theorem canonicalText_swapped {inner : List Node} (coherent : (form inner).nodes.Coherent)
    (otherCoherent : (form (swapped inner)).nodes.Coherent) :
    (form inner).canonicalText = (form (swapped inner)).canonicalText := by
  have perm : inner.Perm (swapped inner) := by
    match inner with
    | [] => exact .refl _
    | [_] => exact .refl _
    | first :: second :: rest => exact .swap second first rest
  have whole : (form inner).nodes.nodes.Perm (form (swapped inner)).nodes.nodes :=
    (perm.cons _).cons _
  exact Form.canonicalText_eq_of_perm coherent otherCoherent rfl whole.length_eq whole

/-- If all fields are in the step, the first one with a code is the first one at all. -/
theorem firstField?_eq {inner : List Node} (direct : ∀ node ∈ (form inner).nodes.nodes,
      StepMembership.place? (form inner).nodes node =
        if node.kind.isField then some ⟨⟨1⟩, .field, node.id⟩ else none)
    (step : NodeId) (code : String) : (form inner).nodes.firstField? step code =
      if step = ⟨1⟩ then
        (inner.find? fun node => node.kind.field?.map Field.code = some code).map Node.id
      else none := by
  have listed : StepMembership.nodesIn (form inner).nodes step .field =
      (form inner).nodes.nodes.filter fun node => node.kind.isField && step = ⟨1⟩ := by
    refine List.filter_congr fun node member => ?_
    rw [direct node member]
    cases node.kind.isField <;> simp [eq_comm]
  rw [NodeStore.firstField?, listed, List.find?_filter]
  by_cases here : step = ⟨1⟩
  · have outside : ((form inner).nodes.nodes.find? fun node =>
        node.kind.field?.map Field.code = some code) =
        inner.find? fun node => node.kind.field?.map Field.code = some code := rfl
    rw [if_pos here, ← outside]
    congr 2
    funext node
    obtain ⟨id, parent, kind⟩ := node
    cases kind <;> simp [NodeKind.isField, NodeKind.field?, here]
  · rw [if_neg here]
    simp [here]

/-- Reordering changes no first field if each code has the same one. -/
theorem sameFields {inner : List Node} (direct : ∀ order ∈ [inner, swapped inner],
      ∀ node ∈ (form order).nodes.nodes, StepMembership.place? (form order).nodes node =
        if node.kind.isField then some ⟨⟨1⟩, .field, node.id⟩ else none)
    (same : ∀ code : String,
      (inner.find? fun node => node.kind.field?.map Field.code = some code).map Node.id =
        ((swapped inner).find? fun node => node.kind.field?.map Field.code = some code).map Node.id)
    (step : NodeId) (code : String) : (form inner).nodes.firstField? step code =
      (form (swapped inner)).nodes.firstField? step code := by
  rw [firstField?_eq (direct inner (by simp)), firstField?_eq (direct _ (by simp)), same]

/-- Without load-transitions the order of nothing shows in the scopes. -/
theorem sameLoads {inner : List Node} (without : ∀ order ∈ [inner, swapped inner],
      ScopeTree.loadTransitions (form order).nodes = []) (scope : NodeId) :
    (ScopeTree.declaredLoads (form inner).nodes scope).getLast? =
      (ScopeTree.declaredLoads (form (swapped inner)).nodes scope).getLast? := by
  rw [ScopeTree.declaredLoads, ScopeTree.declaredLoads, without inner (by simp),
    without (swapped inner) (by simp)]
  rfl

/-- Two fields with codes of their own may change places. -/
theorem aligned_pair {one two : Field} (distinct : one.code ≠ two.code) :
    (form [⟨⟨2⟩, some ⟨1⟩, .field one⟩, ⟨⟨3⟩, some ⟨1⟩, .field two⟩]).Aligned
      (form [⟨⟨3⟩, some ⟨1⟩, .field two⟩, ⟨⟨2⟩, some ⟨1⟩, .field one⟩]) := by
  refine ⟨@sameFields [_, _] ?_ fun code => ?_, @sameLoads [_, _] ?_⟩
  · intro order listed
    rcases List.mem_pair.1 listed with rfl | rfl <;> intro node member <;>
      simp only [form, swapped, List.mem_cons, List.not_mem_nil, or_false] at member <;>
      rcases member with rfl | rfl | rfl | rfl <;> rfl
  · by_cases isOne : one.code = code
    · subst isOne
      simp [swapped, NodeKind.field?, distinct.symm]
    · by_cases isTwo : two.code = code <;> simp [swapped, NodeKind.field?, isOne, isTwo]
  · intro order listed
    rcases List.mem_pair.1 listed with rfl | rfl <;> rfl

/-- Nothing is claimed if every named node is there. -/
theorem unclaimed {inner : List Node} (closed : ∀ node ∈ (form inner).nodes.nodes,
      ∀ id ∈ node.parent.toList ++ node.kind.supplierIds, (form inner).nodes.contains id = true) :
    (form inner).Unclaimed := by
  intro node member id named absent
  have present := closed node member id named
  rw [NodeStore.contains, absent] at present
  cases present

theorem sound {inner : List Node} (built : (form inner).Built)
    (first : ∀ node ∈ inner, node.parent.all fun parent => parent.val < node.id.val)
    (closed : ∀ node ∈ (form inner).nodes.nodes,
      ∀ id ∈ node.parent.toList ++ node.kind.supplierIds, (form inner).nodes.contains id = true) :
    (form inner).Sound :=
  ⟨built, acyclic first, unclaimed closed⟩

/-- The form as it is wired. -/
def wired (inner : List Node) : WiredForm :=
  (WiredForm.wire (form inner) .default).toOption.getD default

/-! The fields with codes of their own may change places. -/

theorem sound_plain : (form plain).Sound := sound built_plain (by decide) (by decide)

theorem sound_swapped_plain : (form (swapped plain)).Sound :=
  sound (.ofText read_plain) (by decide) (by decide)

theorem aligned_plain : (form plain).Aligned (form (swapped plain)) := aligned_pair (by decide)

/-- The registry returns the wiring of the one form for the other. -/
theorem register_present :
    (form plain).WiredAlike (form (swapped plain)) .default ∧ ∃ registration,
      (after .default [.register (form plain)]).register (form (swapped plain)) =
          .ok (after .default [.register (form plain)], registration) ∧
        registration.outcome = .unchanged ∧
        ∃ own, WiredForm.wire (form (swapped plain)) .default = .ok own ∧
          registration.wired.Agrees own := by
  have same := canonicalText_swapped sound_plain.built.coherent sound_swapped_plain.built.coherent
  refine ⟨(register_agrees .default).1 _ _ sound_plain sound_swapped_plain aligned_plain same, ?_⟩
  have wiring : WiredForm.wire (form plain) (Registry.empty .default).config = .ok (wired plain) :=
    rfl
  have held : after .default [.register (form plain)] = (Registry.empty .default).put "trip"
      ⟨(form plain).fingerprint, wired plain⟩ := by
    have absent : (Registry.empty .default).find? (form plain).code = none := rfl
    simp only [after, List.foldl_cons, List.foldl_nil, Registry.call,
      register_of_absent absent wiring]
    rfl
  have found : (after .default [.register (form plain)]).find? (form (swapped plain)).code =
      some ⟨(form plain).fingerprint, wired plain⟩ := by
    rw [held]
    exact List.lookup_cons_self
  have registered := register_of_found found (congrArg Blake3.hexOfText same)
  refine ⟨_, registered, rfl, ?_⟩
  obtain ⟨first, asked, _, _, agrees⟩ :=
    (register_agrees .default).2 _ _ _ _ registered rfl
  cases List.mem_singleton.1 asked
  exact agrees (fun _ => same) sound_plain sound_swapped_plain aligned_plain

/-! The others may not. -/

theorem sound_twice : (form twice).Sound := sound built_twice (by decide) (by decide)

theorem sound_swapped_twice : (form (swapped twice)).Sound :=
  sound (.ofText read_twice) (by decide) (by decide)

theorem sound_loads : (form loads).Sound := sound built_loads (by decide) (by decide)

theorem sound_swapped_loads : (form (swapped loads)).Sound :=
  sound (.ofText read_loads) (by decide) (by decide)

theorem built_missing : (form missing).Built := .ofText read_missingInOrder

theorem built_swapped_missing : (form (swapped missing)).Built := .ofText read_missing

theorem aligned_missing : (form missing).Aligned (form (swapped missing)) := aligned_pair (by decide)

/-- The answer is made for one field or for the other. -/
theorem differs_twice : ¬(wired twice).Agrees (wired (swapped twice)) := by
  intro agrees
  have origins := agrees.definitions ⟨.answerLocal, ⟨1⟩, "name"⟩
  exact absurd origins (by decide)

/-- The answer is fed by one load-transition or by the other. -/
theorem differs_loads : ¬(wired loads).Agrees (wired (swapped loads)) := by
  intro agrees
  have wiring : WiredForm.wire (form loads) .default = .ok (wired loads) := rfl
  have coherent := (WiredForm.wire_spec wiring).coherent sound_loads.built.coherent
  have listed : (⟨⟨1⟩, ⟨3⟩, ⟨6⟩, .effect, ⟨some "name", some "onLoad", none⟩⟩ : Edge) ∈
      (wired loads).graph.edges := by decide
  obtain ⟨same, member, alike⟩ := agrees.edges _ listed
  have producer : same.producer = ⟨2⟩ :=
    (by decide : ∀ edge ∈ (wired (swapped loads)).graph.edges, .effect = edge.role →
      edge.producer = ⟨2⟩) same member alike.role
  have supplies := alike.producer
  rw [producer] at supplies
  cases supplies with
  | pseudo identity here _ =>
    obtain ⟨definition, known, _⟩ := NodeStore.pseudoAt?_of_pseudo? coherent here
    cases known

/-- The missing default value is one pseudo-node or another. -/
theorem differs_missing : ¬(wired missing).Agrees (wired (swapped missing)) := by
  intro agrees
  have listed : (⟨⟨2⟩, ⟨4⟩, ⟨7⟩, .dataFlow, ⟨some "name", some "defaultValue", none⟩⟩ : Edge) ∈
      (wired (swapped missing)).graph.edges := by decide
  obtain ⟨same, member, alike⟩ := agrees.otherEdges _ listed
  exact (by decide : ∀ edge ∈ (wired missing).graph.edges,
    ⟨some "name", some "defaultValue", none⟩ ≠ edge.metadata) same member alike.metadata

/-- **Equal texts alone do not mean equal wiring**, and each condition is needed: the same first
fields, the same last load-transitions, and that nothing is claimed. -/
theorem wire_differs :
    (¬∀ (form other : Form) (config : WiringConfig), form.Built → other.Built →
      Acyclic form.nodes → Acyclic other.nodes → form.canonicalText = other.canonicalText →
        form.WiredAlike other config) ∧
    (¬∀ (form other : Form) (config : WiringConfig), form.Sound → other.Sound →
      (∀ scope, (ScopeTree.declaredLoads form.nodes scope).getLast? =
        (ScopeTree.declaredLoads other.nodes scope).getLast?) →
      form.canonicalText = other.canonicalText → form.WiredAlike other config) ∧
    (¬∀ (form other : Form) (config : WiringConfig), form.Sound → other.Sound →
      (∀ step code, form.nodes.firstField? step code = other.nodes.firstField? step code) →
      form.canonicalText = other.canonicalText → form.WiredAlike other config) ∧
    ¬∀ (form other : Form) (config : WiringConfig), form.Built → other.Built →
      Acyclic form.nodes → Acyclic other.nodes → form.Aligned other →
      form.canonicalText = other.canonicalText → form.WiredAlike other config := by
  have texts : ∀ {inner : List Node}, (form inner).Built → (form (swapped inner)).Built →
      (form inner).canonicalText = (form (swapped inner)).canonicalText :=
    fun built otherBuilt => canonicalText_swapped built.coherent otherBuilt.coherent
  have twiceText := texts sound_twice.built sound_swapped_twice.built
  refine ⟨fun law => ?_, fun law => ?_, fun law => ?_, fun law => ?_⟩
  · exact differs_twice ((law _ _ .default sound_twice.built sound_swapped_twice.built
      sound_twice.acyclic sound_swapped_twice.acyclic twiceText).2 _ _ rfl rfl)
  · exact differs_twice ((law _ _ .default sound_twice sound_swapped_twice
      (sameLoads (by decide)) twiceText).2 _ _ rfl rfl)
  · exact differs_loads ((law _ _ .default sound_loads sound_swapped_loads
      (sameFields (by decide) fun _ => rfl)
      (texts sound_loads.built sound_swapped_loads.built)).2 _ _ rfl rfl)
  · exact differs_missing ((law _ _ .default built_missing built_swapped_missing
      (acyclic (by decide))
      (acyclic (by decide)) aligned_missing
      (texts built_missing built_swapped_missing)).2 _ _ rfl rfl)

end Reordered

end Registry

end FormFlow
