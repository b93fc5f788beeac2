import FormFlow.Proofs.Wiring.Faultless

/-!
# Drafts under stricter options

The options say which references fail, and they say nothing else. What is drafted for a step under
any options is what is drafted under the loosest, unless it fails, and then with a reference of the
step that the options refuse (`Pass.stepDraft_tightens`). Conversely a reference that they refuse
makes the draft fail (`WiringContext.Refuses.exists_error`). In a template the check of the template
references finds it, outside one the family of its namespace.

Both are put together from the places that read the options: the key of a reference, the check of a
template reference, and the reader of the enclosing field. A draft that is tightened in its parts is
tightened as a whole (`Draft.Tightens`).
-/

set_option autoImplicit false

namespace FormFlow

open NodeSource

/-- The error that a draft fails with is in it. -/
theorem Draft.mem_of_failure? {draft : Draft} {error : WiringError}
    (failed : draft.failure? = some error) : .error error ∈ draft := by
  obtain ⟨entry, member, found⟩ := List.exists_of_findSome?_eq_some failed
  cases entry with
  | ok c => cases found
  | error other =>
    cases found
    exact member

/-! ## Tightening -/

/-- A value under strict options is the one under loose options, or it fails as refused. -/
structure Except.Tightens {ε α : Type} (Refused : ε → Prop) (strict loose : Except ε α) : Prop where
  ok : ∀ value, strict = .ok value → loose = .ok value
  error : ∀ error, strict = .error error → Refused error ∨ loose = .error error

namespace Except.Tightens

variable {ε α β : Type} {Refused : ε → Prop}

theorem refl (value : Except ε α) : Tightens Refused value value :=
  ⟨fun _ same => same, fun _ same => .inr same⟩

theorem bind {strict loose : Except ε α} {next other : α → Except ε β}
    (first : Tightens Refused strict loose)
    (later : ∀ value, Tightens Refused (next value) (other value)) :
    Tightens Refused (strict >>= next) (loose >>= other) := by
  cases run : strict with
  | ok value =>
    rw [first.ok value run]
    exact later value
  | error error =>
    refine ⟨nofun, ?_⟩
    rintro _ ⟨⟩
    refine (first.error error run).imp_right fun same => ?_
    rw [same]
    rfl

theorem mapM {strict loose : α → Except ε β} {items : List α}
    (each : ∀ item ∈ items, Tightens Refused (strict item) (loose item)) :
    Tightens Refused (items.mapM strict) (items.mapM loose) := by
  induction items with
  | nil => exact .refl _
  | cons item rest ih =>
    rw [List.mapM_cons, List.mapM_cons]
    refine (each item (List.mem_cons_self ..)).bind fun value => ?_
    exact (ih fun other later => each other (List.mem_cons_of_mem _ later)).bind fun _ => .refl _

end Except.Tightens

/-- A draft under strict options is the one under loose options, or it fails as refused. -/
structure Draft.Tightens (Refused : WiringError → Prop) (strict loose : Draft) : Prop where
  same : strict.failure? = none → strict = loose
  error : ∀ error, .error error ∈ strict → Refused error ∨ .error error ∈ loose

namespace Draft.Tightens

variable {α : Type} {Refused : WiringError → Prop} {strict loose : Draft}

theorem refl (draft : Draft) : Tightens Refused draft draft :=
  ⟨fun _ => rfl, fun _ member => .inr member⟩

theorem mono {Other : WiringError → Prop} (tightens : Tightens Refused strict loose)
    (refused : ∀ error, Refused error → Other error) : Tightens Other strict loose :=
  ⟨tightens.same, fun error member => (tightens.error error member).imp_left (refused error)⟩

theorem append {other another : Draft} (first : Tightens Refused strict loose)
    (second : Tightens Refused other another) :
    Tightens Refused (strict ++ other) (loose ++ another) where
  same := by
    intro silent
    obtain ⟨one, two⟩ := failure?_append.1 silent
    rw [first.same one, second.same two]
  error := by
    intro error member
    rcases List.mem_append.1 member with one | two
    · exact (first.error error one).imp_right (List.mem_append_left _)
    · exact (second.error error two).imp_right (List.mem_append_right _)

theorem flatMap {items : List α} {draft other : α → Draft}
    (each : ∀ item ∈ items, Tightens Refused (draft item) (other item)) :
    Tightens Refused (items.flatMap draft) (items.flatMap other) := by
  induction items with
  | nil => exact .refl _
  | cons item rest ih =>
    rw [List.flatMap_cons, List.flatMap_cons]
    exact (each item (List.mem_cons_self ..)).append
      (ih fun another later => each another (List.mem_cons_of_mem _ later))

theorem after {value other : Except WiringError α} (values : Except.Tightens Refused value other)
    (draft : α → Draft) : Tightens Refused (Draft.after value draft) (Draft.after other draft) := by
  cases run : value with
  | ok found =>
    rw [values.ok found run]
    exact .refl _
  | error error =>
    refine ⟨nofun, fun other member => ?_⟩
    cases List.mem_singleton.1 member
    refine (values.error error run).imp_right fun same => ?_
    rw [same]
    exact List.mem_singleton_self _

end Draft.Tightens

/-! ## What the options refuse -/

/-- A path of one segment selects a namespace and has no key. -/
theorem Reference.path_eq_iff {expression : Reference} {space : Namespace} :
    expression.path = [space.text] ↔
      expression.isIn space = true ∧ expression.lookupKey? space = none := by
  rw [lookupKey?, isIn]
  cases expression.path with
  | nil => simp
  | cons first rest =>
    cases rest with
    | nil => simp [eq_comm]
    | cons second rest =>
      by_cases here : first = space.text <;> simp [here]

/-- The options that leave out whatever can be left out admit every reference. -/
theorem WiringConfig.admits_default (expression : Reference) (inField : Prop) :
    WiringConfig.default.Admits expression inField where
  enclosed := fun _ strict => by cases strict
  keyed := fun _ _ _ rejects => by cases rejects

namespace WiringContext

variable {σ : Type} [NodeSource σ]

/-- The context under the options that leave out whatever can be left out. -/
def loosened (ctx : WiringContext σ) : WiringContext σ := { ctx with config := .default }

/-- An error that the options ask for, with a reference of the step that it names. -/
inductive Refuses (ctx : WiringContext σ) : WiringError → Prop where
  | malformed {id : NodeId} {expression : Reference} {space : Namespace}
    (listed : id ∈ ctx.members.references ++ ctx.members.templateReferences)
    (reads : ctx.expression? id = some expression)
    (rejects : ctx.config.malformedReferences = .reject) (keyed : space.isKeyed = true)
    (bare : expression.path = [space.text]) : Refuses ctx (.malformedReference id expression.path)
  | outside {id : NodeId} {expression : Reference}
    (listed : id ∈ ctx.members.references ++ ctx.members.templateReferences)
    (reads : ctx.expression? id = some expression)
    (strict : ctx.config.strictSelfReferences = true)
    (selects : expression.isIn .selfValue = true) (outside : ctx.enclosingField? id = none) :
    Refuses ctx (.selfOutsideField id)

variable {ctx : WiringContext σ} {id : NodeId} {expression : Reference} {space : Namespace}

omit [NodeSource σ] in
/-- Without a key the policy decides. -/
theorem keyOf_eq_error (rejects : ctx.config.malformedReferences = .reject)
    (absent : expression.lookupKey? space = none) :
    ctx.keyOf space id expression = .error (.malformedReference id expression.path) := by
  rw [keyOf, absent]
  dsimp only
  rw [withoutKey, rejects]
  rfl

theorem keyOf_tightens (listed : id ∈ ctx.members.references ++ ctx.members.templateReferences)
    (reads : ctx.expression? id = some expression) (keyed : space.isKeyed = true)
    (within : expression.isIn space = true) :
    Except.Tightens ctx.Refuses (ctx.keyOf space id expression)
      (ctx.loosened.keyOf space id expression) := by
  constructor
  · intro entry found
    refine ctx.loosened.keyOf_eq_ok_iff.2 ((ctx.keyOf_eq_ok_iff.1 found).imp_right ?_)
    exact fun ⟨absent, _, same⟩ => ⟨absent, rfl, same⟩
  · intro error failed
    refine .inl ?_
    cases key : expression.lookupKey? space with
    | some key =>
      cases failed.symm.trans (ctx.keyOf_eq_ok_iff.2 (.inl ⟨_, key, rfl⟩))
    | none =>
      cases policy : ctx.config.malformedReferences with
      | skip => cases failed.symm.trans (ctx.keyOf_eq_ok_iff.2 (.inr ⟨key, policy, rfl⟩))
      | reject =>
        cases failed.symm.trans (keyOf_eq_error policy key)
        exact .malformed listed reads policy keyed (Reference.path_eq_iff.2 ⟨within, key⟩)

theorem build_tightens (keyed : space.isKeyed = true) :
    Except.Tightens ctx.Refuses (ReferenceIndex.build ctx space)
      (ReferenceIndex.build ctx.loosened space) := by
  refine Except.Tightens.bind (.mapM fun entry member => ?_) fun _ => .refl _
  obtain ⟨listed, reads, within⟩ := mem_selecting_iff.1 member
  exact keyOf_tightens (List.mem_append_left _ listed) reads keyed within

/-! ## Templates -/

/-- What the check of a template reference finds is refused. -/
theorem refuses_of_templateFault? (listed : id ∈ ctx.members.templateReferences)
    {error : WiringError} (fault : ctx.templateFault? id = some error) : ctx.Refuses error := by
  have member := List.mem_append_right ctx.members.references listed
  simp only [templateFault?] at fault
  obtain ⟨node, found, fault⟩ := Option.bind_eq_some_iff.1 fault
  obtain ⟨expression, isReference, fault⟩ := Option.bind_eq_some_iff.1 fault
  obtain ⟨space, selected, fault⟩ := Option.bind_eq_some_iff.1 fault
  have reads : ctx.expression? id = some expression := by
    rw [expression?, found, Option.bind_some, isReference]
  have within := Reference.isIn_iff.2 selected
  have byKey : space.isKeyed = true →
      ∀ {other}, ctx.keyOf space id expression = .error other → ctx.Refuses other := by
    intro keyed other failed
    refine ((keyOf_tightens member reads keyed within).error _ failed).resolve_right ?_
    obtain ⟨entry, found⟩ := @keyOf_eq_ok_of _ ctx.loosened expression space id fun rejects => by
      cases rejects
    intro also
    cases found.symm.trans also
  cases space with
  | selfValue =>
    obtain ⟨both, same⟩ := Option.ite_none_right_eq_some.1 fault
    obtain ⟨strict, outside⟩ := Bool.and_eq_true_iff.1 both
    cases same
    exact .outside member reads strict within (Option.isNone_iff_eq_none.1 outside)
  | item => cases fault
  | answers | post | query | params | data =>
    dsimp only at fault
    split at fault
    · cases fault
    · rename_i failed
      cases fault
      exact byKey rfl failed

/-- Under the loosest options the check finds nothing. -/
theorem templateFault?_loosened (id : NodeId) : ctx.loosened.templateFault? id = none := by
  cases found : node? ctx.loosened.nodes id with
  | none =>
    simp only [templateFault?]
    rw [found]
    rfl
  | some node =>
    cases isReference : node.kind.reference? with
    | none =>
      simp only [templateFault?]
      rw [found, Option.bind_eq_bind, Option.bind_some, isReference]
      rfl
    | some expression =>
      exact (templateFault?_eq_none_iff found (NodeKind.reference?_eq_some_iff.1 isReference)).2
        (WiringConfig.admits_default ..)

theorem templateCheck_tightens :
    Draft.Tightens ctx.Refuses ctx.templateCheck ctx.loosened.templateCheck := by
  have nothing : ctx.loosened.templateCheck = [] := by
    rw [templateCheck, List.filterMap_eq_nil_iff.2 fun id _ => templateFault?_loosened id]
    rfl
  rw [nothing]
  constructor
  · intro silent
    rw [templateCheck, List.map_eq_nil_iff, List.filterMap_eq_nil_iff]
    intro id listed
    refine Option.eq_none_iff_forall_ne_some.2 fun error fault => ?_
    exact Draft.failure?_eq_none_iff.1 silent error
      (List.mem_map_of_mem (List.mem_filterMap.2 ⟨id, listed, fault⟩))
  · intro error member
    obtain ⟨_, found, same⟩ := List.mem_map.1 member
    cases same
    obtain ⟨id, listed, fault⟩ := List.mem_filterMap.1 found
    exact .inl (refuses_of_templateFault? listed fault)

end WiringContext

/-! ## Families -/

section

variable {σ : Type} [NodeSource σ] {ctx : WiringContext σ}

theorem KeyedSource.draft_tightens (source : KeyedSource)
    (keyed : source.kind.reads.isKeyed = true) :
    Draft.Tightens ctx.Refuses (source.draft ctx) (source.draft ctx.loosened) :=
  .after (WiringContext.build_tightens keyed) _

omit [NodeSource σ] in
theorem Answer.formatters_loosened (id : NodeId) (code : String) (position : Nat)
    (ids : List NodeId) :
    formatters ctx.loosened id code position ids = formatters ctx id code position ids := by
  induction ids generalizing position with
  | nil => rfl
  | cons formatter rest ih =>
    rw [formatters, formatters, ih]
    rfl

theorem Answer.localNode_loosened (index : ReferenceIndex) :
    localNode ctx.loosened index = localNode ctx index := by
  have producers : fieldProducers ctx.loosened = fieldProducers ctx := by
    funext id code field
    rw [fieldProducers, fieldProducers, formatters_loosened]
    rfl
  funext id
  simp only [localNode, localProducers, producers]
  rfl

theorem Answer.draft_tightens :
    Draft.Tightens ctx.Refuses (Answer.draft ctx) (Answer.draft ctx.loosened) := by
  have loose : Answer.draft ctx.loosened =
      Draft.after (ReferenceIndex.build ctx.loosened .answers) fun index =>
        (ctx.pseudoIds .answerLocal).flatMap (localNode ctx index) ++
          (ctx.pseudoIds .answerRemote).flatMap (remoteNode ctx index) := by
    simp only [Answer.draft, localNode_loosened]
    rfl
  rw [loose]
  exact .after (WiringContext.build_tightens rfl) _

/-- A reference in no field is refused, or it asks for nothing. -/
theorem SelfValue.reader_tightens {id : NodeId} {expression : Reference}
    (listed : id ∈ ctx.members.references) (reads : ctx.expression? id = some expression)
    (within : expression.isIn .selfValue = true) :
    Draft.Tightens ctx.Refuses (reader ctx id) (reader ctx.loosened id) := by
  cases inField : ctx.enclosingField? id with
  | some field =>
    have same : reader ctx.loosened id = reader ctx id := by
      have alsoInField : ctx.loosened.enclosingField? id = some field := inField
      rw [reader, reader, inField, alsoInField]
      rfl
    rw [same]
    exact .refl _
  | none =>
    have loose : reader ctx.loosened id = [] := by
      have alsoOutside : ctx.loosened.enclosingField? id = none := inField
      rw [reader, alsoOutside]
      rfl
    rw [loose, reader, inField]
    dsimp only
    split
    · rename_i strict
      constructor
      · intro silent
        cases silent
      intro error member
      refine .inl ?_
      cases List.mem_singleton.1 member
      exact .outside (List.mem_append_left _ listed) reads strict within inField
    · exact .refl _

theorem SelfValue.draft_tightens :
    Draft.Tightens ctx.Refuses (SelfValue.draft ctx) (SelfValue.draft ctx.loosened) := by
  refine Draft.Tightens.flatMap fun entry member => ?_
  obtain ⟨listed, reads, within⟩ := WiringContext.mem_selecting_iff.1 member
  exact reader_tightens listed reads within

theorem Family.draft_tightens (family : Family) :
    Draft.Tightens ctx.Refuses (family.draft ctx) (family.draft ctx.loosened) := by
  cases family with
  | post => exact KeyedSource.post.draft_tightens rfl
  | query => exact KeyedSource.query.draft_tightens rfl
  | params => exact KeyedSource.params.draft_tightens rfl
  | data => exact KeyedSource.data.draft_tightens rfl
  | answer => exact Answer.draft_tightens
  | selfValue => exact SelfValue.draft_tightens
  | item => exact .refl _

/-- **What is drafted for a step under any options is what is drafted under the loosest**, unless it
fails, and then with a reference that the options refuse. -/
theorem Pass.stepDraft_tightens :
    Draft.Tightens ctx.Refuses (stepDraft ctx) (stepDraft ctx.loosened) :=
  WiringContext.templateCheck_tightens.append (.flatMap fun family _ => family.draft_tightens)

/-! ## What is refused fails -/

/-- A reference without a key leaves no index where it is refused. -/
theorem ReferenceIndex.exists_build_eq_error {id : NodeId} {expression : Reference}
    {space : Namespace} (known : (id, expression) ∈ ctx.references space)
    (rejects : ctx.config.malformedReferences = .reject)
    (absent : expression.lookupKey? space = none) :
    ∃ error, ReferenceIndex.build ctx space = .error error := by
  cases built : ReferenceIndex.build ctx space with
  | error error => exact ⟨error, rfl⟩
  | ok index =>
    obtain ⟨entries, mapped, _⟩ := Except.bind_eq_ok_iff.1 built
    obtain ⟨entry, -, found⟩ := Except.exists_of_mem_mapM mapped known
    cases found.symm.trans (WiringContext.keyOf_eq_error rejects absent)

/-- Of the references in a keyed namespace some family needs the index. -/
theorem Family.exists_error_mem_draft {space : Namespace} (keyed : space.isKeyed = true)
    {error : WiringError} (failed : ReferenceIndex.build ctx space = .error error) :
    ∃ family : Family, .error error ∈ family.draft ctx := by
  have source : ∀ source : KeyedSource, source.kind.reads = space →
      .error error ∈ source.draft ctx := by
    rintro source rfl
    rw [KeyedSource.draft, failed]
    exact List.mem_singleton_self _
  cases space with
  | answers =>
    refine ⟨.answer, ?_⟩
    rw [Family.draft, Answer.draft, failed]
    exact List.mem_singleton_self _
  | post => exact ⟨.post, source .post rfl⟩
  | query => exact ⟨.query, source .query rfl⟩
  | params => exact ⟨.params, source .params rfl⟩
  | data => exact ⟨.data, source .data rfl⟩
  | selfValue => cases keyed
  | item => cases keyed

/-- **The draft of a step fails if the options refuse a reference of the step**, in a template or
not. -/
theorem WiringContext.Refuses.exists_error {refused : WiringError} (refuses : ctx.Refuses refused) :
    ∃ error, .error error ∈ Pass.stepDraft ctx := by
  have ofFamily : ∀ {error}, (∃ family : Family, .error error ∈ family.draft ctx) →
      ∃ error, .error error ∈ Pass.stepDraft ctx := by
    rintro error ⟨family, member⟩
    refine ⟨error, List.mem_append_right _ (List.mem_flatMap.2 ⟨family, ?_, member⟩)⟩
    cases family <;> decide
  have ofTemplate : ∀ {id expression}, id ∈ ctx.members.templateReferences →
      ctx.expression? id = some expression → (∀ inField : Prop,
        (inField → ctx.enclosingField? id ≠ none) → ¬ctx.config.Admits expression inField) →
      ∃ error, .error error ∈ Pass.stepDraft ctx := by
    intro id expression listed reads rejected
    obtain ⟨node, found, isReference⟩ := Option.bind_eq_some_iff.1 reads
    cases fault : ctx.templateFault? id with
    | some error =>
      exact ⟨error, List.mem_append_left _
        (List.mem_map_of_mem (List.mem_filterMap.2 ⟨id, listed, fault⟩))⟩
    | none =>
      have admits := (WiringContext.templateFault?_eq_none_iff found
        (NodeKind.reference?_eq_some_iff.1 isReference)).1 fault
      refine absurd admits (rejected _ fun inField outside => ?_)
      exact (WiringContext.isNone_enclosingField? found).1 (by rw [outside]; rfl) inField
  cases refuses with
  | @malformed id expression space listed reads rejects keyed bare =>
    obtain ⟨within, absent⟩ := Reference.path_eq_iff.1 bare
    rcases List.mem_append.1 listed with plain | templated
    · obtain ⟨error, failed⟩ := ReferenceIndex.exists_build_eq_error
        (WiringContext.mem_selecting_iff.2 ⟨plain, reads, within⟩) rejects absent
      exact ofFamily (Family.exists_error_mem_draft keyed failed)
    · refine ofTemplate templated reads fun inField _ admits => ?_
      have present := admits.keyed space (Reference.isIn_iff.1 within) keyed rejects
      rw [absent] at present
      cases present
  | @outside id expression listed reads strict selects outside =>
    rcases List.mem_append.1 listed with plain | templated
    · have failed : .error (.selfOutsideField id) ∈ SelfValue.reader ctx id := by
        rw [SelfValue.reader, outside]
        dsimp only
        rw [if_pos strict]
        exact List.mem_singleton_self _
      exact ofFamily ⟨.selfValue, List.mem_flatMap.2 ⟨(id, expression),
        WiringContext.mem_selecting_iff.2 ⟨plain, reads, selects⟩, failed⟩⟩
    · refine ofTemplate templated reads fun inField inside admits => ?_
      exact inside (admits.enclosed (Reference.isIn_iff.1 selects) strict) outside

end

end FormFlow
