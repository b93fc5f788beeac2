import FormFlow.Proofs.Wiring.Edges
import FormFlow.Proofs.Wiring.PlainForm

/-!
# What wiring a node fails on

Of all nodes only references and pseudo-nodes can make wiring fail. A reference fails if the
options do not admit it (`Pass.failure?_reference`), and a pseudo-node if what it was made for is
not there (`Pass.failure?_pseudo`).

The check of the references inside templates asks for exactly what the options ask of a reference
when it is wired (`WiringContext.templateFault?_eq_none_iff`). In a registered form every reference
inside a template is therefore admitted (`WiredForm.Registered.admits`).
-/

set_option autoImplicit false

namespace FormFlow

open NodeSource

/-- The options admit a reference: it stands in a field if it reads one and has to, and it has a
key if its namespace needs one and may not be left out. -/
structure WiringConfig.Admits (config : WiringConfig) (expression : Reference) (inField : Prop) :
    Prop where
  enclosed : expression.selected? = some .selfValue → config.strictSelfReferences = true → inField
  keyed : ∀ space, expression.selected? = some space → space.isKeyed = true →
    config.malformedReferences = .reject → (expression.lookupKey? space).isSome = true

/-- A reference is admitted if another one is that selects the same and has a key if that has. -/
theorem WiringConfig.Admits.mono {config : WiringConfig} {expression other : Reference}
    {inField otherIn : Prop} (admits : config.Admits expression inField)
    (selected : other.selected? = expression.selected?)
    (keyed : ∀ space, (expression.lookupKey? space).isSome = true →
      (other.lookupKey? space).isSome = true)
    (field : inField → otherIn) : config.Admits other otherIn where
  enclosed := fun selects strict => field (admits.enclosed (selected ▸ selects) strict)
  keyed := fun space selects needs rejects =>
    keyed space (admits.keyed space (selected ▸ selects) needs rejects)

namespace WiringContext

variable {σ : Type} [NodeSource σ] {ctx : WiringContext σ} {id : NodeId} {node : Node}
  {expression : Reference}

/-- Whether a reference stands in a field is seen on the way up. -/
theorem isNone_enclosingField? (found : node? ctx.nodes id = some node) :
    (ctx.enclosingField? id).isNone = true ↔
      ¬∃ outer, enclosingAbove? ctx.nodes node NodeKind.isField = some outer := by
  simp only [enclosingField?]
  rw [found]
  simp only [Option.bind_eq_bind, Option.bind_some]
  cases encloses : enclosingAbove? ctx.nodes node NodeKind.isField with
  | none => simp
  | some outer =>
    have isField : outer.kind.isField = true := by simpa using List.find?_some encloses
    cases kind : outer.kind <;> rw [kind] at isField <;> cases isField
    simp [kind, NodeKind.field?]

omit [NodeSource σ] in
/-- A key can be had unless the reference has none and that is rejected. -/
theorem keyOf_eq_ok_of (space : Namespace) (id : NodeId)
    (keyed : ctx.config.malformedReferences = .reject →
      (expression.lookupKey? space).isSome = true) :
    ∃ entry, ctx.keyOf space id expression = .ok entry := by
  cases key : expression.lookupKey? space with
  | some found => exact ⟨_, ctx.keyOf_eq_ok_iff.2 (.inl ⟨found, key, rfl⟩)⟩
  | none =>
    cases policy : ctx.config.malformedReferences with
    | skip => exact ⟨_, ctx.keyOf_eq_ok_iff.2 (.inr ⟨key, policy, rfl⟩)⟩
    | reject =>
      have needed := keyed policy
      rw [key] at needed
      cases needed

/-- The check of a reference inside a template asks whether the options admit it. -/
theorem templateFault?_eq_none_iff (found : node? ctx.nodes id = some node)
    (isReference : node.kind = .reference expression) :
    ctx.templateFault? id = none ↔ ctx.config.Admits expression
      (∃ outer, enclosingAbove? ctx.nodes node NodeKind.isField = some outer) := by
  simp only [templateFault?]
  rw [found]
  simp only [Option.bind_eq_bind, Option.bind_some, isReference, NodeKind.reference?]
  cases selected : expression.selected? with
  | none =>
    refine ⟨fun _ => ⟨fun selects => ?_, fun space selects => ?_⟩, fun _ => rfl⟩
    · cases selected.symm.trans selects
    · cases selected.symm.trans selects
  | some space =>
    have keyed : (∃ entry, ctx.keyOf space id expression = .ok entry) ↔
        (ctx.config.malformedReferences = .reject →
          (expression.lookupKey? space).isSome = true) := by
      refine ⟨?_, ctx.keyOf_eq_ok_of space id⟩
      rintro ⟨entry, found⟩ rejects
      rcases ctx.keyOf_eq_ok_iff.1 found with ⟨key, has, _⟩ | ⟨_, skips, _⟩
      · rw [has]
        rfl
      · cases rejects.symm.trans skips
    have byKey : space.isKeyed = true → ((∃ entry, ctx.keyOf space id expression = .ok entry) ↔
        ctx.config.Admits expression
          (∃ outer, enclosingAbove? ctx.nodes node NodeKind.isField = some outer)) := by
      intro needs
      have admits : ctx.config.Admits expression
          (∃ outer, enclosingAbove? ctx.nodes node NodeKind.isField = some outer) ↔
            (ctx.config.malformedReferences = .reject →
              (expression.lookupKey? space).isSome = true) := by
        refine ⟨fun admits => admits.keyed space selected needs, fun has => ⟨?_, ?_⟩⟩
        · intro selects
          cases selected.symm.trans selects
          cases needs
        · intro other selects _
          cases selected.symm.trans selects
          exact has
      rw [admits, keyed]
    cases space with
    | selfValue =>
      have inside := isNone_enclosingField? found
      constructor
      · intro passes
        refine ⟨fun _ strict => ?_, fun other selects needs => ?_⟩
        · by_contra outside
          simp [strict, inside.2 outside] at passes
        · cases selected.symm.trans selects
          cases needs
      · intro admits
        refine if_neg fun both => ?_
        obtain ⟨strict, outside⟩ := Bool.and_eq_true_iff.1 both
        exact inside.1 outside (admits.enclosed selected strict)
    | item =>
      refine ⟨fun _ => ⟨fun selects => ?_, fun other selects needs => ?_⟩, fun _ => rfl⟩
      · cases selected.symm.trans selects
      · cases selected.symm.trans selects
        cases needs
    | answers | post | query | params | data =>
      rw [← byKey rfl, Option.bind_some]
      dsimp only
      split
      · rename_i entry got
        exact iff_of_true rfl ⟨entry, got⟩
      · rename_i error got
        refine iff_of_false (Option.some_ne_none _) ?_
        rintro ⟨entry, other⟩
        cases got.symm.trans other

end WiringContext

/-! ## Drafts without a failure -/

namespace Pass

variable {σ : Type} [NodeSource σ] {ctx : WiringContext σ} {id : NodeId} {node : Node}

omit [NodeSource σ] in
theorem failure?_load (ctx : WiringContext σ) (family : Family) (pseudo : NodeId) (key : String) :
    (ctx.load family pseudo key).failure? = none := by
  rw [WiringContext.load]
  split <;> rfl

omit [NodeSource σ] in
theorem failure?_formatters (ctx : WiringContext σ) (id : NodeId) (code : String)
    (position : Nat) (ids : List NodeId) :
    (Answer.formatters ctx id code position ids).failure? = none := by
  induction ids generalizing position with
  | nil => rfl
  | cons formatter rest ih =>
    rw [Answer.formatters]
    exact Draft.failure?_append.2 ⟨rfl, ih (position + 1)⟩

theorem failure?_fieldProducers (ctx : WiringContext σ) (id : NodeId) (code : String)
    (field : Field) : (Answer.fieldProducers ctx id code field).failure? = none := by
  simp only [Answer.fieldProducers, Draft.failure?_append]
  refine ⟨⟨⟨?_, failure?_formatters ..⟩, ?_⟩, failure?_load ..⟩
  · split <;> rfl
  · split <;> rfl

/-- Of a pseudo-node only the producers are asked for. -/
theorem single_pseudo {definition : Pseudo} (found : node? ctx.nodes id = some node)
    (isPseudo : node.kind = .pseudo definition) :
    single ctx id = match definition.kind with
      | .post => KeyedSource.post.producers ctx id definition.key
      | .query => KeyedSource.query.producers ctx id definition.key
      | .params => KeyedSource.params.producers ctx id definition.key
      | .data => KeyedSource.data.producers ctx id definition.key
      | .answerLocal => Answer.localProducers ctx id definition
      | .answerRemote => ctx.load .answer id definition.key
      | .item => Item.producer ctx id definition := by
  have made : ∀ kind make, ctx.ofPseudo kind id make =
      if definition.kind = kind then make definition else [] := by
    intro kind make
    rw [WiringContext.ofPseudo, found, Option.bind_some, isPseudo]
    rfl
  have noReference : ∀ space make, ctx.ofReference space id make = [] := by
    intro space make
    rw [WiringContext.ofReference, found, Option.bind_some, isPseudo]
    rfl
  have noKey : ∀ space make, ctx.ofKey space id make = [] := fun space make => noReference space _
  simp only [single, Family.all, List.flatMap_cons, List.flatMap_nil, Family.single,
    KeyedSource.single, Answer.single, SelfValue.single, Item.single, made, noReference, noKey,
    List.append_nil]
  cases definition.kind <;> simp [KeyedSource.post, KeyedSource.query, KeyedSource.params,
    KeyedSource.data]

/-- Neither a pseudo-node nor a reference: nothing is asked for. -/
theorem single_other (found : node? ctx.nodes id = some node) (noPseudo : node.kind.pseudo? = none)
    (noReference : node.kind.reference? = none) : single ctx id = [] := by
  have noMade : ∀ kind make, ctx.ofPseudo kind id make = [] := by
    intro kind make
    rw [WiringContext.ofPseudo, found, Option.bind_some, noPseudo]
  have noRead : ∀ space make, ctx.ofReference space id make = [] := by
    intro space make
    rw [WiringContext.ofReference, found, Option.bind_some, noReference]
  have noKey : ∀ space make, ctx.ofKey space id make = [] := fun space make => noRead space _
  simp [single, Family.all, Family.single, KeyedSource.single, Answer.single, SelfValue.single,
    Item.single, noMade, noRead, noKey]

/-- A reference that the options admit does not fail. -/
theorem failure?_reference {expression : Reference} (found : node? ctx.nodes id = some node)
    (isReference : node.kind = .reference expression)
    (admits : ctx.config.Admits expression
      (∃ outer, enclosingAbove? ctx.nodes node NodeKind.isField = some outer)) :
    (single ctx id).failure? = none := by
  have byKey : ∀ space, expression.selected? = some space → space.isKeyed = true →
      ∀ make, (∀ entry, (make entry).failure? = none) →
        (keyReader ctx space id expression make).failure? = none := by
    intro space selected needs make silent
    obtain ⟨entry, known⟩ := ctx.keyOf_eq_ok_of space id (admits.keyed space selected needs)
    rw [keyReader, known]
    cases entry with
    | none => rfl
    | some entry => exact silent entry
  have looks : ∀ (source : KeyedSource) entry, (source.reader ctx entry).failure? = none := by
    intro source entry
    rw [KeyedSource.reader]
    split <;> rfl
  rw [single_reference found isReference]
  cases selected : expression.selected? with
  | none => rfl
  | some space =>
    cases space with
    | post => exact byKey _ selected rfl _ (looks _)
    | query => exact byKey _ selected rfl _ (looks _)
    | params => exact byKey _ selected rfl _ (looks _)
    | data => exact byKey _ selected rfl _ (looks _)
    | answers =>
      refine byKey _ selected rfl _ fun entry => ?_
      rw [Answer.reader]
      split <;> rfl
    | selfValue =>
      change (SelfValue.reader ctx id).failure? = none
      rw [SelfValue.reader]
      cases inField : ctx.enclosingField? id with
      | none =>
        have outside := (ctx.isNone_enclosingField? found).1 (by rw [inField]; rfl)
        dsimp only
        rw [if_neg fun strict => outside (admits.enclosed selected strict)]
        rfl
      | some field =>
        dsimp only
        split <;> rfl
    | item =>
      change (Item.reader ctx id).failure? = none
      rw [Item.reader]
      split
      · rfl
      · split <;> rfl

/-- An item that was made for a collection or an iteration that is there has a collection. -/
theorem exists_collectionOf {definition : Pseudo} {origin : NodeId} {outer : Node} {key : String}
    (made : definition.origin = some origin) (there : node? ctx.nodes origin = some outer)
    (keyed : Item.keyOfKind? origin outer.kind = some key)
    (iterations : ∀ collection index, outer.kind = .iteration collection index →
      ∃ top, node? ctx.nodes collection = some top ∧ top.kind.isCollection = true) :
    ∃ collection index top, Item.collectionOf ctx id definition = .ok (collection, index) ∧
      node? ctx.nodes collection = some top ∧ top.kind.isCollection = true := by
  simp only [Item.collectionOf]
  rw [made]
  dsimp only
  rw [there]
  cases shape : outer.kind with
  | collection inner =>
    exact ⟨origin, none, outer, by dsimp only; rw [shape], there, by rw [shape]; rfl⟩
  | iteration collection index =>
    obtain ⟨top, known, isCollection⟩ := iterations collection index shape
    exact ⟨_, _, top, by dsimp only; rw [shape], known, isCollection⟩
  | _ =>
    rw [shape] at keyed
    cases keyed

/-- A pseudo-node does not fail if what it was made for is there, and iterations have their
collections. -/
theorem failure?_pseudo {definition : Pseudo} (found : node? ctx.nodes id = some node)
    (isPseudo : node.kind = .pseudo definition)
    (sourced : Synthesis.Sourced (fun id node => node? ctx.nodes id = some node)
      definition.toPseudoKey definition.origin)
    (iterations : ∀ id node collection index, node? ctx.nodes id = some node →
      node.kind = .iteration collection index →
        ∃ outer, node? ctx.nodes collection = some outer ∧ outer.kind.isCollection = true) :
    (single ctx id).failure? = none := by
  rw [single_pseudo found isPseudo]
  cases kind : definition.kind with
  | post => rfl
  | query => rfl
  | params => rfl
  | data => exact failure?_load ..
  | answerRemote => exact failure?_load ..
  | answerLocal =>
    obtain ⟨origin, outer, field, made, there, isField⟩ := sourced.answer kind
    have own : Answer.originField ctx id definition = .ok field := by
      rw [Answer.originField, made]
      dsimp only
      rw [there]
      dsimp only
      rw [isField]
      rfl
    change (Answer.localProducers ctx id definition).failure? = none
    rw [Answer.localProducers, own]
    exact failure?_fieldProducers ..
  | item =>
    obtain ⟨origin, outer, made, there, keyed⟩ := sourced.item kind
    obtain ⟨collection, index, top, same, known, isCollection⟩ :=
      exists_collectionOf made there keyed fun _ _ => iterations _ _ _ _ there
    obtain ⟨inner, shape⟩ := NodeKind.isCollection_iff.1 isCollection
    have defined : Item.definitionOf ctx collection = .ok inner := by
      rw [Item.definitionOf, WiringContext.get_of_found known]
      dsimp only [bind, Except.bind]
      rw [shape]
      rfl
    change (Item.producer ctx id definition).failure? = none
    rw [Item.producer, same]
    dsimp only [Draft.after]
    rw [defined]
    dsimp only
    split <;> rfl

end Pass

/-! ## Registered forms -/

/-- Every reference inside a template of a registered form is admitted. -/
theorem WiredForm.Registered.admits {form : Form} {config : WiringConfig} {wired : WiredForm}
    (registered : Registered form config wired) (coherent : form.nodes.Coherent)
    (plain : form.Plain) {id step : NodeId} {node : Node} {expression : Reference}
    (found : node? wired.form.nodes id = some node)
    (isReference : node.kind = .reference expression)
    (templated : inTemplate wired.form.nodes node = true)
    (owned : owningStep? wired.form.nodes id = some step) :
    config.Admits expression
      (∃ outer, enclosingAbove? wired.form.nodes node NodeKind.isField = some outer) := by
  have listed := registered.step_listed coherent found (by rw [isReference]; rfl) owned
  have member : id ∈ wired.membership.within step .templateReference :=
    (registered.mem_members_iff coherent (registered.unchanged coherent plain)).2
      ⟨node, found, roleOf?_eq_templateReference_iff.2 ⟨⟨expression, isReference⟩, templated⟩,
        owned⟩
  -- The check is a list of errors, so it does not fail only if it finds nothing.
  have checked : (context wired config step).templateFault? id = none := by
    have silent := (Draft.failure?_append.1 (registered.silent listed)).1
    cases fault : (context wired config step).templateFault? id with
    | none => rfl
    | some error =>
      have reported : .error error ∈ (context wired config step).templateCheck :=
        List.mem_map_of_mem (List.mem_filterMap.2 ⟨id, member, fault⟩)
      exact absurd reported (Draft.failure?_eq_none_iff.1 silent error)
  exact (WiringContext.templateFault?_eq_none_iff found isReference).1 checked

end FormFlow
