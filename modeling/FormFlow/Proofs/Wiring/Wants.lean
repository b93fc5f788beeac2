import FormFlow.Proofs.Wiring.Furnishing

/-!
# What the nodes of a step want

What the nodes of a step need can be written down before anything is made: identities in order,
each with the node that its pseudo-node is made for (`Synthesis.wants`). Making the pseudo-nodes of
a step is then looking these up one after the other, and making what is not there
(`Synthesis.run_eq_foldl`). Afterwards there is what was there and what was wanted, and nothing
else (`Synthesis.foldl_wants`).

Whether a reference needs a remote answer depends on the local ones. Those that count are there
before the step is looked at, or they belong to its fields.
-/

set_option autoImplicit false

namespace FormFlow

open NodeSource

theorem lookup_cons_ite {α β : Type} [DecidableEq α] (key first : α) (value : β)
    (rest : List (α × β)) : ((first, value) :: rest).lookup key =
      if key = first then some value else rest.lookup key := by
  rw [List.lookup_cons]
  by_cases same : key = first
  · simp [same]
  · rw [beq_eq_false_iff_ne.2 same, if_neg same]

namespace Synthesis

/-! ## Wants -/

/-- What a field wants: its submitted value and its local answer. -/
def fieldWants (step : NodeId) (node : Node) : List (PseudoKey × Option NodeId) :=
  match node.kind.field? with
  | some field =>
    [(⟨.post, step, field.code⟩, some node.id), (⟨.answerLocal, step, field.code⟩, some node.id)]
  | none => []

/-- The kind of pseudo-node that a reference needs, where it is known which answers are local. -/
def needed? (isLocal : String → Bool) (space : Namespace) (key : String) : Option PseudoKind :=
  match space with
  | .answers => if isLocal key then none else some .answerRemote
  | .post => some .post
  | .query => some .query
  | .params => some .params
  | .data => some .data
  | .selfValue => none
  | .item => none

/-- What a reference wants. -/
def referenceWants (isLocal : String → Bool) (step : NodeId) (node : Node) :
    List (PseudoKey × Option NodeId) :=
  match node.kind.reference?.bind Reference.keyedTarget? with
  | some (space, key) =>
    (needed? isLocal space key).toList.map fun kind => (⟨kind, step, key⟩, none)
  | none => []

/-- What a collection or an iteration wants: its item. -/
def repeatedWants (step : NodeId) (node : Node) : List (PseudoKey × Option NodeId) :=
  (Item.keyOfKind? node.id node.kind).toList.map fun key => (⟨.item, step, key⟩, some node.id)

/-- What the fields, references, and collections or iterations of a step want, in order. -/
def wants (step : NodeId) (isLocal : String → Bool) (fields references repeated : List Node) :
    List (PseudoKey × Option NodeId) :=
  fields.flatMap (fieldWants step) ++ references.flatMap (referenceWants isLocal step) ++
    repeated.flatMap (repeatedWants step)

theorem mem_fieldWants {step : NodeId} {node : Node} {entry : PseudoKey × Option NodeId} :
    entry ∈ fieldWants step node ↔ ∃ field, node.kind = .field field ∧
      (entry = (⟨.post, step, field.code⟩, some node.id) ∨
        entry = (⟨.answerLocal, step, field.code⟩, some node.id)) := by
  rw [fieldWants]
  cases isField : node.kind.field? with
  | none =>
    refine ⟨nofun, ?_⟩
    rintro ⟨field, other, _⟩
    rw [other] at isField
    cases isField
  | some field =>
    have kind := NodeKind.field?_eq_some_iff.1 isField
    simp [kind]

/-- Submitted values and local answers are wanted for the first field that has their code, and
fields want nothing else. -/
theorem lookup_fieldWants (step : NodeId) (fields : List Node) (identity : PseudoKey) :
    (fields.flatMap (fieldWants step)).lookup identity =
      if identity.scope = step ∧ (identity.kind = .post ∨ identity.kind = .answerLocal) then
        (fields.find? fun node => node.kind.field?.map Field.code = some identity.key).map
          fun node => some node.id
      else none := by
  obtain ⟨kind, scope, key⟩ := identity
  induction fields with
  | nil => simp
  | cons node rest ih =>
    rw [List.flatMap_cons, List.lookup_append, ih, List.find?_cons, fieldWants]
    cases node.kind.field? with
    | none => simp
    | some field =>
      simp only [lookup_cons_ite, PseudoKey.mk.injEq, List.lookup_nil]
      by_cases here : scope = step
      · subst here
        by_cases same : key = field.code
        · subst same
          cases kind <;> simp
        · cases kind <;> simp [same, Ne.symm same]
      · simp [here]

theorem mem_referenceWants {isLocal : String → Bool} {step : NodeId} {node : Node}
    {entry : PseudoKey × Option NodeId} : entry ∈ referenceWants isLocal step node ↔
      ∃ expression space key kind, node.kind = .reference expression ∧
        expression.keyedTarget? = some (space, key) ∧ needed? isLocal space key = some kind ∧
        entry = (⟨kind, step, key⟩, none) := by
  rw [referenceWants]
  cases target : node.kind.reference?.bind Reference.keyedTarget? with
  | none =>
    refine ⟨nofun, ?_⟩
    rintro ⟨expression, space, key, kind, isReference, keyed, _⟩
    rw [isReference] at target
    cases keyed.symm.trans target
  | some pair =>
    obtain ⟨space, key⟩ := pair
    obtain ⟨expression, isReference, keyed⟩ := Option.bind_eq_some_iff.1 target
    have shape := NodeKind.reference?_eq_some_iff.1 isReference
    simp [shape, keyed, eq_comm]

theorem mem_repeatedWants {step : NodeId} {node : Node} {entry : PseudoKey × Option NodeId} :
    entry ∈ repeatedWants step node ↔ ∃ key, Item.keyOfKind? node.id node.kind = some key ∧
      entry = (⟨.item, step, key⟩, some node.id) := by
  simp [repeatedWants, eq_comm]

/-- Of the kinds that references need none is a local answer or an item. -/
theorem of_needed? {isLocal : String → Bool} {space : Namespace} {key : String}
    {kind : PseudoKind} (needs : needed? isLocal space key = some kind) :
    kind.reads = space ∧ kind ≠ .answerLocal ∧ kind ≠ .item ∧
      (kind = .answerRemote → isLocal key = false) := by
  cases space <;> simp only [needed?] at needs
  case answers =>
    split at needs
    · cases needs
    · rename_i other
      cases needs
      exact ⟨rfl, nofun, nofun, fun _ => by simpa using other⟩
  all_goals
    cases needs
    try exact ⟨rfl, nofun, nofun, nofun⟩

theorem mem_wants {step : NodeId} {isLocal : String → Bool} {fields references repeated : List Node}
    {entry : PseudoKey × Option NodeId} :
    entry ∈ wants step isLocal fields references repeated ↔
      (∃ node ∈ fields, entry ∈ fieldWants step node) ∨
      (∃ node ∈ references, entry ∈ referenceWants isLocal step node) ∨
      ∃ node ∈ repeated, entry ∈ repeatedWants step node := by
  rw [wants, List.mem_append, List.mem_append, or_assoc, List.mem_flatMap, List.mem_flatMap,
    List.mem_flatMap]

theorem scope_of_fieldWants {step : NodeId} {node : Node} {entry : PseudoKey × Option NodeId}
    (member : entry ∈ fieldWants step node) : entry.1.scope = step := by
  obtain ⟨field, _, rfl | rfl⟩ := mem_fieldWants.1 member <;> rfl

theorem scope_of_referenceWants {isLocal : String → Bool} {step : NodeId} {node : Node}
    {entry : PseudoKey × Option NodeId} (member : entry ∈ referenceWants isLocal step node) :
    entry.1.scope = step ∧ entry.1.kind ≠ .answerLocal := by
  obtain ⟨_, _, _, _, _, _, needs, rfl⟩ := mem_referenceWants.1 member
  exact ⟨rfl, (of_needed? needs).2.1⟩

theorem scope_of_repeatedWants {step : NodeId} {node : Node} {entry : PseudoKey × Option NodeId}
    (member : entry ∈ repeatedWants step node) : entry.1.scope = step := by
  obtain ⟨_, _, rfl⟩ := mem_repeatedWants.1 member
  rfl

/-- What the nodes of a step want belongs to the step. -/
theorem scope_of_wants {step : NodeId} {isLocal : String → Bool}
    {fields references repeated : List Node} {entry : PseudoKey × Option NodeId}
    (member : entry ∈ wants step isLocal fields references repeated) : entry.1.scope = step := by
  rcases mem_wants.1 member with ⟨node, _, wanted⟩ | ⟨node, _, wanted⟩ | ⟨node, _, wanted⟩
  · exact scope_of_fieldWants wanted
  · exact (scope_of_referenceWants wanted).1
  · exact scope_of_repeatedWants wanted

/-- A local answer is wanted by a field with its code. -/
theorem exists_field_of_wants {maker step : NodeId} {isLocal : String → Bool}
    {fields references repeated : List Node} {code : String} {origin : Option NodeId}
    (wanted : (⟨.answerLocal, step, code⟩, origin) ∈
      wants maker isLocal fields references repeated) :
    ∃ node ∈ fields, ∃ field, node.kind = .field field ∧ field.code = code ∧
      origin = some node.id := by
  rcases mem_wants.1 wanted with ⟨node, inside, asks⟩ | ⟨_, _, asks⟩ | ⟨_, _, asks⟩
  · obtain ⟨field, isField, posted | answer⟩ := mem_fieldWants.1 asks
    · cases congrArg (fun entry => entry.1.kind) posted
    · exact ⟨node, inside, field, isField, congrArg (fun entry => entry.1.key) answer.symm,
        congrArg Prod.snd answer⟩
  · obtain ⟨_, _, _, kind, _, _, needs, same⟩ := mem_referenceWants.1 asks
    obtain rfl : PseudoKind.answerLocal = kind := congrArg (fun entry => entry.1.kind) same
    exact absurd rfl (of_needed? needs).2.1
  · obtain ⟨_, _, same⟩ := mem_repeatedWants.1 asks
    cases congrArg (fun entry => entry.1.kind) same

/-! ## Looking them up one after the other -/

section

variable {σ : Type} [PseudoSink σ]

variable {Good : σ → Prop} {step : NodeId} (locates : Locates Good step)
include locates

/-- Afterwards there is what was there and what was wanted. -/
theorem foldl_wants {wanted : List (PseudoKey × Option NodeId)} {state : State σ}
    (within : ∀ entry ∈ wanted, entry.1.scope = step) (good : Good state.nodes) :
    Good (wanted.foldl ofWant state).nodes ∧ Shows state.nodes (wanted.foldl ofWant state).nodes ∧
      ∀ identity, HasPseudo (wanted.foldl ofWant state).nodes identity ↔
        HasPseudo state.nodes identity ∨ identity ∈ wanted.map Prod.fst := by
  induction wanted generalizing state with
  | nil => exact ⟨good, .refl _, fun identity => by simp⟩
  | cons entry rest ih =>
    have here := within entry (List.mem_cons_self ..)
    obtain ⟨later, shown, has⟩ := @ih (ofWant state entry)
      (fun other member => within other (List.mem_cons_of_mem _ member))
      (locates.keeps state.nodes entry.1 entry.2 here good)
    have first : Shows state.nodes (ofWant state entry).nodes :=
      locates.shows state.nodes entry.1 entry.2 here good
    refine ⟨later, first.trans shown, fun identity => ?_⟩
    rw [List.foldl_cons, has, List.map_cons, List.mem_cons, ← or_assoc]
    refine or_congr_left ⟨locates.only state.nodes entry.1 entry.2 here good identity, ?_⟩
    rintro (old | rfl)
    · exact first.hasPseudo old
    · exact locates.present state.nodes entry.1 entry.2 here good

omit locates in
/-- What is made node by node is what the nodes want, one after the other. -/
theorem foldl_make {make : State σ → NodeId → State σ}
    {wantsOf : Node → List (PseudoKey × Option NodeId)} {P : State σ → Prop} {nodes : List Node}
    (each : ∀ state, ∀ node ∈ nodes, P state →
      make state node.id = (wantsOf node).foldl ofWant state ∧
        P ((wantsOf node).foldl ofWant state)) {state : State σ} (start : P state) :
    (nodes.map Node.id).foldl make state = (nodes.flatMap wantsOf).foldl ofWant state ∧
      P ((nodes.flatMap wantsOf).foldl ofWant state) := by
  induction nodes generalizing state with
  | nil => exact ⟨rfl, start⟩
  | cons node rest ih =>
    obtain ⟨made, next⟩ := each state node (List.mem_cons_self ..) start
    rw [List.map_cons, List.foldl_cons, List.flatMap_cons, List.foldl_append, made]
    exact ih (fun other known member => each other known (List.mem_cons_of_mem _ member)) next

omit locates in
theorem ofField_eq_foldl {state : State σ} {node : Node}
    (found : node? state.nodes node.id = some node) :
    ofField step state node.id = (fieldWants step node).foldl ofWant state := by
  rw [ofField, fieldWants, found, Option.bind_some]
  cases node.kind.field? <;> rfl

omit locates in
theorem ofReference_eq_foldl {isLocal : String → Bool} {state : State σ} {node : Node}
    (found : node? state.nodes node.id = some node)
    (locals : ∀ key, (pseudo? state.nodes ⟨.answerLocal, step, key⟩).isSome = isLocal key) :
    ofReference step state node.id = (referenceWants isLocal step node).foldl ofWant state := by
  have same : ∀ space key, kindFor? state.nodes step space key = needed? isLocal space key := by
    intro space key
    cases space <;> simp only [kindFor?, needed?, locals]
  rw [referenceWants]
  cases target : node.kind.reference?.bind Reference.keyedTarget? with
  | none => exact ofReference_eq_self (by rw [found, Option.bind_some, target])
  | some pair =>
    obtain ⟨space, key⟩ := pair
    obtain ⟨expression, isReference, keyed⟩ := Option.bind_eq_some_iff.1 target
    rw [ofReference_eq_elim (by rw [found, Option.bind_some, isReference]) keyed, same]
    dsimp only
    cases needed? isLocal space key <;> rfl

omit locates in
theorem ofRepeated_eq_foldl {state : State σ} {node : Node}
    (found : node? state.nodes node.id = some node) :
    ofRepeated step state node.id = (repeatedWants step node).foldl ofWant state := by
  rw [ofRepeated, repeatedWants, found, Option.bind_some]
  cases Item.keyOfKind? node.id node.kind <;> rfl

/-- What a node wants, looked up in good order. -/
theorem foldl_shown {initial : σ} {wanted : List (PseudoKey × Option NodeId)} {state : State σ}
    (within : ∀ entry ∈ wanted, entry.1.scope = step)
    (sound : Good state.nodes ∧ Shows initial state.nodes) :
    Good (wanted.foldl ofWant state).nodes ∧ Shows initial (wanted.foldl ofWant state).nodes := by
  obtain ⟨later, after, _⟩ := foldl_wants locates within sound.1
  exact ⟨later, sound.2.trans after⟩

variable {initial : σ}

theorem foldl_fields {fields : List Node}
    (found : ∀ node ∈ fields, node? initial node.id = some node) {state : State σ}
    (sound : Good state.nodes ∧ Shows initial state.nodes) :
    (fields.map Node.id).foldl (ofField step) state =
      (fields.flatMap (fieldWants step)).foldl ofWant state := by
  refine (foldl_make (P := fun state => Good state.nodes ∧ Shows initial state.nodes)
    (fun state node member sound => ⟨?_, ?_⟩) sound).1
  · exact ofField_eq_foldl (sound.2.node _ _ (found node member))
  · exact foldl_shown locates (fun _ => scope_of_fieldWants) sound

/-- References make no local answers, so the same ones are there for all of them. -/
theorem foldl_references {references : List Node}
    (found : ∀ node ∈ references, node? initial node.id = some node) {state : State σ}
    (sound : Good state.nodes ∧ Shows initial state.nodes) {isLocal : String → Bool}
    (locals : ∀ key, HasPseudo state.nodes ⟨.answerLocal, step, key⟩ ↔ isLocal key = true) :
    (references.map Node.id).foldl (ofReference step) state =
      (references.flatMap (referenceWants isLocal step)).foldl ofWant state := by
  refine (foldl_make (P := fun state => (Good state.nodes ∧ Shows initial state.nodes) ∧
    ∀ key, HasPseudo state.nodes ⟨.answerLocal, step, key⟩ ↔ isLocal key = true)
    (fun state node member known => ⟨?_, ?_, ?_⟩) ⟨sound, locals⟩).1
  · refine ofReference_eq_foldl (known.1.2.node _ _ (found node member)) fun key => ?_
    rw [Bool.eq_iff_iff, Option.isSome_iff_exists]
    exact known.2 key
  · exact foldl_shown locates (fun _ member => (scope_of_referenceWants member).1) known.1
  · intro key
    rw [(foldl_wants locates (fun _ member => (scope_of_referenceWants member).1) known.1.1).2.2,
      known.2]
    refine or_iff_left fun wanted => ?_
    obtain ⟨entry, inside, named⟩ := List.mem_map.1 wanted
    exact (scope_of_referenceWants inside).2 (by rw [named])

theorem foldl_repeated {repeated : List Node}
    (found : ∀ node ∈ repeated, node? initial node.id = some node) {state : State σ}
    (sound : Good state.nodes ∧ Shows initial state.nodes) :
    (repeated.map Node.id).foldl (ofRepeated step) state =
      (repeated.flatMap (repeatedWants step)).foldl ofWant state := by
  refine (foldl_make (P := fun state => Good state.nodes ∧ Shows initial state.nodes)
    (fun state node member sound => ⟨?_, ?_⟩) sound).1
  · exact ofRepeated_eq_foldl (sound.2.node _ _ (found node member))
  · exact foldl_shown locates (fun _ => scope_of_repeatedWants) sound

/-- **The pseudo-nodes of a step are made as its nodes want them**, one after the other. Local are
the answers that are there before, and those of the fields. -/
theorem run_eq_foldl (good : Good initial) {fields references repeated : List Node}
    (fieldsFound : ∀ node ∈ fields, node? initial node.id = some node)
    (referencesFound : ∀ node ∈ references, node? initial node.id = some node)
    (repeatedFound : ∀ node ∈ repeated, node? initial node.id = some node) :
    ∃ isLocal, (∀ key, isLocal key = true ↔ HasPseudo initial ⟨.answerLocal, step, key⟩ ∨
        ∃ node ∈ fields, ∃ field, node.kind = .field field ∧ field.code = key) ∧
      run initial step (fields.map Node.id) (references.map Node.id) (repeated.map Node.id) =
        (wants step isLocal fields references repeated).foldl ofWant ⟨initial, []⟩ := by
  have start : Good (⟨initial, []⟩ : State σ).nodes ∧
      Shows initial (⟨initial, []⟩ : State σ).nodes := ⟨good, .refl _⟩
  have fieldScope : ∀ entry ∈ fields.flatMap (fieldWants step), entry.1.scope = step := by
    intro entry member
    obtain ⟨node, _, wanted⟩ := List.mem_flatMap.1 member
    exact scope_of_fieldWants wanted
  have first := foldl_shown locates fieldScope start
  have has := (foldl_wants locates fieldScope start.1).2.2
  let withFields := (fields.flatMap (fieldWants step)).foldl ofWant (⟨initial, []⟩ : State σ)
  let isLocal := fun key => (pseudo? withFields.nodes ⟨.answerLocal, step, key⟩).isSome
  have locals : ∀ key, HasPseudo withFields.nodes ⟨.answerLocal, step, key⟩ ↔
      isLocal key = true := fun key => Option.isSome_iff_exists.symm
  have referenceScope : ∀ entry ∈ references.flatMap (referenceWants isLocal step),
      entry.1.scope = step := by
    intro entry member
    obtain ⟨node, _, wanted⟩ := List.mem_flatMap.1 member
    exact (scope_of_referenceWants wanted).1
  have second := foldl_shown locates referenceScope first
  refine ⟨isLocal, fun key => ?_, ?_⟩
  · rw [← locals, has]
    refine or_congr_right ⟨fun member => ?_, ?_⟩
    · obtain ⟨entry, known, same⟩ := List.mem_map.1 member
      obtain ⟨node, inside, wanted⟩ := List.mem_flatMap.1 known
      obtain ⟨field, isField, rfl | rfl⟩ := mem_fieldWants.1 wanted
      · cases same
      · cases same
        exact ⟨node, inside, field, isField, rfl⟩
    · rintro ⟨node, inside, field, isField, rfl⟩
      exact List.mem_map.2 ⟨_, List.mem_flatMap.2
        ⟨node, inside, mem_fieldWants.2 ⟨field, isField, .inr rfl⟩⟩, rfl⟩
  · rw [run, foldl_fields locates fieldsFound start,
      foldl_references locates referencesFound first locals,
      foldl_repeated locates repeatedFound second, wants, List.foldl_append, List.foldl_append]

end

end Synthesis

end FormFlow
