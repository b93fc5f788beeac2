import FormFlow.Proofs.Form.Made
import FormFlow.Proofs.Wiring.Exactness
import FormFlow.Proofs.Wiring.Strictness

/-!
# What the options of wiring decide

The options decide whether a form is wired, and not what it is wired to (`WiredForm.wire_decided`).
A form that is wired under the loosest options fails under others exactly if these refuse one of its
references (`Form.Refuses`), and the error names such a reference. Otherwise it is wired to the same
result. Every form that calls make is wired under the loosest options.

Whether a reference stands in a field is seen after the pseudo-nodes are made. It is the same before
unless one of them was given the identifier of a missing parent. That can also put a cycle into the
nodes, in which a search for the field never ends. Both are shown by `WiredForm.Orphan` and
`WiredForm.Looped`, and the options are said to decide where the wired nodes have no cycle.
-/

set_option autoImplicit false

namespace FormFlow

open NodeSource

/-! ## Nothing fails under the loosest options -/

namespace Pass

variable {ctx : WiringContext NodeStore} (coherent : ctx.nodes.Coherent)
  (loose : ctx.config = .default)

theorem failure?_feed (ctx : WiringContext NodeStore) (family : Family) (pseudo : NodeId)
    (key : String) (space : Namespace) (readers : List NodeId) :
    (ctx.feed family pseudo key space readers).failure? = none := by
  refine Draft.failure?_eq_none_iff.2 fun error member => ?_
  obtain ⟨_, _, same⟩ := List.mem_map.1 member
  cases same

include loose in
theorem exists_build_eq_ok (space : Namespace) :
    ∃ index, ReferenceIndex.build ctx space = .ok index := by
  cases mapped : (ctx.references space).mapM fun entry => ctx.keyOf space entry.1 entry.2 with
  | ok entries => exact ⟨_, by rw [ReferenceIndex.build, mapped]; rfl⟩
  | error error =>
    obtain ⟨⟨id, expression⟩, -, failed⟩ := Except.exists_of_mapM_eq_error mapped
    have lenient : ctx.config.malformedReferences ≠ .reject := by
      rw [loose]
      decide
    obtain ⟨entry, found⟩ :=
      @WiringContext.keyOf_eq_ok_of _ ctx expression space id fun rejects => absurd rejects lenient
    cases failed.symm.trans found

include coherent in
/-- The pseudo-nodes of a kind are found, so that nothing fails but what is drafted for them. -/
theorem failure?_pseudoIds {kind : PseudoKind} {draft : NodeId → Pseudo → Draft}
    (silent : ∀ id definition, ctx.definition? id = some definition → definition.kind = kind →
      (draft id definition).failure? = none) :
    Draft.failure? ((ctx.pseudoIds kind).flatMap fun id =>
      Draft.after (ctx.pseudo id) (draft id)) = none := by
  refine Draft.failure?_flatMap.2 fun id listed => ?_
  obtain ⟨definition, found, isKind, -⟩ := (WiringContext.mem_pseudoIds_iff coherent).1 listed
  rw [WiringContext.pseudo_of_definition? found]
  exact silent id definition found isKind

include coherent in
theorem failure?_keyed (loose : ctx.config = .default) (source : KeyedSource) :
    (source.draft ctx).failure? = none := by
  obtain ⟨index, built⟩ := exists_build_eq_ok loose source.kind.reads
  rw [KeyedSource.draft, built]
  refine failure?_pseudoIds coherent fun id definition _ _ => Draft.failure?_append.2
    ⟨?_, failure?_feed ..⟩
  rw [KeyedSource.producers]
  split
  · rfl
  · exact failure?_load ..

/-- What is drafted for a pseudo-node. -/
theorem single_of_definition? {id : NodeId} {definition : Pseudo}
    (found : ctx.definition? id = some definition) :
    (definition.kind = .answerLocal → single ctx id = Answer.localProducers ctx id definition) ∧
      (definition.kind = .item → single ctx id = Item.producer ctx id definition) := by
  obtain ⟨node, present, isPseudo⟩ := Option.bind_eq_some_iff.1 found
  have drafted := single_pseudo present (NodeKind.pseudo?_eq_some_iff.1 isPseudo)
  constructor <;> intro kind <;> rw [drafted, kind]

/-- Where what pseudo-nodes were made for is there, the draft of a step does not fail. -/
theorem failure?_stepDraft (coherent : ctx.nodes.Coherent) (loose : ctx.config = .default)
    (sourced : ∀ id definition, ctx.definition? id = some definition →
      (single ctx id).failure? = none) : (stepDraft ctx).failure? = none := by
  refine Draft.failure?_append.2 ⟨?_, Draft.failure?_flatMap.2 fun family _ => ?_⟩
  · have same : ctx.loosened = ctx := by rw [WiringContext.loosened, ← loose]
    have nothing : ∀ id, ctx.templateFault? id = none := fun id =>
      same ▸ WiringContext.templateFault?_loosened id
    rw [WiringContext.templateCheck, List.filterMap_eq_nil_iff.2 fun id _ => nothing id]
    rfl
  · cases family with
    | post => exact failure?_keyed coherent loose _
    | query => exact failure?_keyed coherent loose _
    | params => exact failure?_keyed coherent loose _
    | data => exact failure?_keyed coherent loose _
    | answer =>
      obtain ⟨index, built⟩ := exists_build_eq_ok loose .answers
      rw [Family.draft, Answer.draft, built]
      refine Draft.failure?_append.2 ⟨?_, ?_⟩
      · refine failure?_pseudoIds coherent fun id definition found kind =>
          Draft.failure?_append.2 ⟨?_, failure?_feed ..⟩
        rw [← (single_of_definition? found).1 kind]
        exact sourced id definition found
      · refine failure?_pseudoIds coherent fun id definition found kind =>
          Draft.failure?_append.2 ⟨failure?_load .., ?_⟩
        split
        · rfl
        · exact failure?_feed ..
    | selfValue =>
      refine Draft.failure?_flatMap.2 fun entry _ => ?_
      rw [SelfValue.reader, loose]
      split
      · rfl
      · split
        · exact failure?_feed ..
        · rfl
    | item =>
      refine failure?_pseudoIds coherent fun id definition found kind =>
        Draft.failure?_append.2 ⟨?_, failure?_feed ..⟩
      rw [← (single_of_definition? found).2 kind]
      exact sourced id definition found

end Pass

/-- What pseudo-nodes are needed for is there. -/
theorem NodeStore.Needs.sourced {store later : NodeStore} {definition : Pseudo}
    (needs : store.Needs definition)
    (found : ∀ node ∈ store.nodes, node? later node.id = some node) :
    Synthesis.Sourced (fun id node => node? later id = some node) definition.toPseudoKey
      definition.origin := by
  cases needs with
  | submitted => exact ⟨nofun, nofun⟩
  | answer declares =>
    obtain ⟨_, node, _, _, rfl, ⟨closed, field, isField, -⟩, -⟩ := declares
    exact ⟨fun _ => ⟨_, node, field, rfl, found node closed.member, isField⟩, nofun⟩
  | foreign kind isForeign => rcases isForeign with rfl | rfl <;> exact ⟨nofun, nofun⟩
  | named kind isNamed => rcases isNamed with rfl | rfl | rfl <;> exact ⟨nofun, nofun⟩
  | @item step node definition closed isCollection =>
    refine ⟨nofun, fun _ => ⟨_, node, rfl, found node closed.member, ?_⟩⟩
    rw [isCollection]
    rfl

/-- **A form that calls make can be wired.** -/
theorem Form.Made.exists_wire {form : Form} (made : form.Made) :
    ∃ wired, WiredForm.wire form .default = .ok wired := by
  have coherent := made.composed.spec.1
  have plain := made.plain
  have grows := furnished_grows coherent
  obtain ⟨scopes, built⟩ := made.exists_scopes
  refine (WiredForm.exists_wire_iff coherent).2
    ⟨scopes, built, Draft.failure?_flatMap.2 fun step _ => ?_⟩
  refine @Pass.failure?_stepDraft (form.context scopes .default step)
    (furnished_coherent coherent) rfl ?_
  intro id definition found
  obtain ⟨node, present, isPseudo⟩ := Option.bind_eq_some_iff.1 found
  rw [NodeKind.pseudo?_eq_some_iff] at isPseudo
  have member := List.mem_of_find?_eq_some (present : form.furnished.node? id = some node)
  have needs := (pseudo_furnished_iff coherent plain.wellPlaced.upright plain.pseudos
    plain.iterations).1 ⟨node, member, isPseudo⟩
  refine Pass.failure?_pseudo present isPseudo (needs.sourced fun node known =>
    grows.node?_of_found (NodeStore.node?_of_mem coherent known)) ?_
  -- Pseudo-nodes are no iterations, and the form has none.
  intro id other collection index there isIteration
  obtain ⟨added, appends, -⟩ := form.furnished_appends
  have listed : other ∈ form.furnished.nodes :=
    List.mem_of_find?_eq_some (there : form.furnished.node? id = some other)
  rw [appends.nodes] at listed
  rcases List.mem_append.1 listed with known | new
  · have single := plain.iterations other known
    rw [isIteration] at single
    cases single
  · obtain ⟨_, isPseudo, -⟩ := appends.pseudos other new
    cases isIteration.symm.trans isPseudo

/-- Pseudo-nodes bring no cycle unless one is given the identifier of a missing parent. -/
theorem Form.acyclic_furnished {form : Form} (coherent : form.nodes.Coherent)
    (acyclic : Acyclic form.nodes)
    (uncaptured : WiredForm.Uncaptured form.nodes form.furnished) : Acyclic form.furnished := by
  have grows := furnished_grows coherent
  have kept : ∀ {start path}, Ascends form.nodes start path →
      (∀ id, start = some id → form.nodes.node? id = none → form.furnished.node? id = none) →
        Ascends form.furnished start path :=
    fun ascends => WiredForm.ascends_of_grows coherent grows uncaptured ascends
  refine acyclic_of_ascends fun start => ?_
  cases start with
  | none => exact ⟨[], .top⟩
  | some id =>
    cases found : node? form.furnished id with
    | none => exact ⟨[], .gone found⟩
    | some node =>
      obtain ⟨path, ascends⟩ := acyclic.ascends node.parent
      obtain ⟨made, appends, -⟩ := form.furnished_appends
      have member := List.mem_of_find?_eq_some (found : form.furnished.node? id = some node)
      rw [appends.nodes] at member
      refine ⟨node :: path, .step found (kept ascends ?_)⟩
      rcases List.mem_append.1 member with old | new
      · exact uncaptured node old
      · -- A pseudo-node stands under a step, which is there.
        obtain ⟨definition, -, within, contained⟩ := appends.pseudos node new
        obtain ⟨step, known, -, same⟩ := mem_steps.1 within
        rintro outer direct absent
        cases contained.symm.trans direct
        rw [← same] at absent
        cases (NodeStore.node?_of_mem coherent known).symm.trans absent

/-! ## Options decide failure and nothing else -/

/-- A node is in no field if none is on its way up. -/
theorem WiringContext.enclosingField?_eq_none_iff {ctx : WiringContext NodeStore} {id : NodeId}
    {node : Node} (found : node? ctx.nodes id = some node) :
    ctx.enclosingField? id = none ↔ ∀ outer ∈ above ctx.nodes node, outer.kind.isField = false := by
  rw [← Option.isNone_iff_eq_none, isNone_enclosingField? found, ← Option.ne_none_iff_exists',
    Classical.not_not, enclosingAbove?, List.find?_eq_none]
  simp only [Bool.not_eq_true]

/-- An error that the options ask for, with a reference of the form that it names. In what a
reference stands is seen in `nodes`. -/
inductive Form.Refuses (form : Form) (nodes : NodeStore) (config : WiringConfig) :
    WiringError → Prop where
  | malformed {node : Node} {expression : Reference} {space : Namespace}
    (member : node ∈ form.nodes.nodes) (isReference : node.kind = .reference expression)
    (owned : (owningStep? form.nodes node.id).isSome = true)
    (rejects : config.malformedReferences = .reject) (keyed : space.isKeyed = true)
    (bare : expression.path = [space.text]) :
    Refuses form nodes config (.malformedReference node.id expression.path)
  | outside {node : Node} {expression : Reference}
    (member : node ∈ form.nodes.nodes) (isReference : node.kind = .reference expression)
    (owned : (owningStep? form.nodes node.id).isSome = true)
    (strict : config.strictSelfReferences = true) (selects : expression.isIn .selfValue = true)
    (outside : ∀ outer ∈ above nodes node, outer.kind.isField = false) :
    Refuses form nodes config (.selfOutsideField node.id)

namespace Form

variable {form : Form} {config : WiringConfig} {scopes : ScopeTree}

/-- Refused is the same where the same nodes are above. -/
theorem Refuses.congr {nodes later : NodeStore}
    (same : ∀ node ∈ form.nodes.nodes, above later node = above nodes node) {error : WiringError}
    (refuses : form.Refuses nodes config error) : form.Refuses later config error := by
  cases refuses with
  | malformed member isReference owned rejects keyed bare =>
    exact .malformed member isReference owned rejects keyed bare
  | outside member isReference owned strict selects outside =>
    exact .outside member isReference owned strict selects (same _ member ▸ outside)

/-- The references of a step, in templates and outside. -/
theorem mem_references {step id : NodeId} :
    id ∈ ((StepMembership.build form.nodes).members step).references ++
        ((StepMembership.build form.nodes).members step).templateReferences ↔
      ∃ node ∈ form.nodes.nodes, node.id = id ∧ (∃ expression, node.kind = .reference expression) ∧
        owningStep? form.nodes node.id = some step := by
  rw [List.mem_append]
  simp only [StepMembership.members, WiredForm.Registered.mem_within_build,
    WiredForm.Registered.roleOf?_eq_reference_iff,
    WiredForm.Registered.roleOf?_eq_templateReference_iff]
  constructor
  · rintro (⟨node, member, named, ⟨isReference, -⟩, owned⟩ |
      ⟨node, member, named, ⟨isReference, -⟩, owned⟩) <;>
      exact ⟨node, member, named, isReference, owned⟩
  · rintro ⟨node, member, named, isReference, owned⟩
    cases templated : inTemplate form.nodes node with
    | false => exact .inl ⟨node, member, named, ⟨isReference, templated⟩, owned⟩
    | true => exact .inr ⟨node, member, named, ⟨isReference, templated⟩, owned⟩

section

variable (coherent : form.nodes.Coherent)
include coherent

/-- A reference of a step is found among the nodes of the form, and with its pseudo-nodes. -/
theorem exists_of_context {step id : NodeId} {expression : Reference}
    (listed : id ∈ (form.context scopes config step).members.references ++
      (form.context scopes config step).members.templateReferences)
    (reads : (form.context scopes config step).expression? id = some expression) :
    ∃ node ∈ form.nodes.nodes, node.id = id ∧ node.kind = .reference expression ∧
      owningStep? form.nodes node.id = some step ∧ node? form.furnished id = some node := by
  obtain ⟨node, member, rfl, -, owned⟩ := mem_references.1 listed
  have found : node? form.furnished node.id = some node :=
    (furnished_grows coherent).node?_of_found (NodeStore.node?_of_mem coherent member)
  obtain ⟨other, there, isReference⟩ := Option.bind_eq_some_iff.1 reads
  cases found.symm.trans there
  exact ⟨node, member, rfl, NodeKind.reference?_eq_some_iff.1 isReference, owned, found⟩

/-- What is refused in the context of a step is refused in the form. -/
theorem refuses_of_context {step : NodeId} {error : WiringError}
    (refuses : (form.context scopes config step).Refuses error) :
    form.Refuses form.furnished config error := by
  cases refuses with
  | malformed listed reads rejects keyed bare =>
    obtain ⟨node, member, rfl, isReference, owned, -⟩ := exists_of_context coherent listed reads
    exact .malformed member isReference (by rw [owned]; rfl) rejects keyed bare
  | outside listed reads strict selects outside =>
    obtain ⟨node, member, rfl, isReference, owned, found⟩ :=
      exists_of_context coherent listed reads
    exact .outside member isReference (by rw [owned]; rfl) strict selects
      ((WiringContext.enclosingField?_eq_none_iff found).1 outside)

/-- What is refused in the form is refused in the context of a step. -/
theorem exists_context_refuses {error : WiringError}
    (refuses : form.Refuses form.furnished config error) :
    ∃ step ∈ form.steps, (form.context scopes config step).Refuses error := by
  have listed : ∀ {node expression}, node ∈ form.nodes.nodes → node.kind = .reference expression →
      (owningStep? form.nodes node.id).isSome = true → ∃ step ∈ form.steps,
        node.id ∈ (form.context scopes config step).members.references ++
          (form.context scopes config step).members.templateReferences ∧
        (form.context scopes config step).expression? node.id = some expression ∧
        node? form.furnished node.id = some node := by
    intro node expression member isReference isOwned
    obtain ⟨step, owned⟩ := Option.isSome_iff_exists.1 isOwned
    have present := NodeStore.node?_of_mem coherent member
    have found : node? form.furnished node.id = some node :=
      (furnished_grows coherent).node?_of_found present
    obtain ⟨outer, there, isStep⟩ := node?_of_owningStep? present (by rw [isReference]; rfl) owned
    obtain ⟨outerMember, rfl⟩ := (NodeStore.node?_eq_some_iff coherent).1 there
    refine ⟨_, mem_steps.2 ⟨outer, outerMember, isStep, rfl⟩, ?_, ?_, found⟩
    · exact mem_references.2 ⟨node, member, rfl, ⟨expression, isReference⟩, owned⟩
    · exact Option.bind_eq_some_iff.2 ⟨node, found, by rw [isReference]; rfl⟩
  cases refuses with
  | malformed member isReference owned rejects keyed bare =>
    obtain ⟨step, isStep, known, reads, -⟩ := listed member isReference owned
    exact ⟨step, isStep, .malformed known reads rejects keyed bare⟩
  | outside member isReference owned strict selects outside =>
    obtain ⟨step, isStep, known, reads, found⟩ := listed member isReference owned
    exact ⟨step, isStep, .outside known reads strict selects
      ((WiringContext.enclosingField?_eq_none_iff found).2 outside)⟩

/-- The draft of a form under any options is the one under the loosest, or it fails as refused. -/
theorem draft_tightens : Draft.Tightens (form.Refuses form.furnished config)
    (form.draft scopes config) (form.draft scopes .default) :=
  .flatMap fun step _ => (@Pass.stepDraft_tightens _ _ (form.context scopes config step)).mono
    fun _ => refuses_of_context coherent

/-- It fails if something is refused. -/
theorem exists_failure_draft (built : ScopeTree.build form.nodes = .ok scopes)
    {refused : WiringError} (refuses : form.Refuses form.furnished config refused) :
    (form.draft scopes config).failure? ≠ none := by
  obtain ⟨step, isStep, inContext⟩ := @exists_context_refuses form config scopes coherent _ refuses
  obtain ⟨error, member⟩ := inContext.exists_error
  intro silent
  refine Draft.failure?_eq_none_iff.1 silent error (List.mem_flatMap.2 ⟨step, ?_, member⟩)
  rw [steps_eq built]
  exact isStep

end

end Form

namespace WiredForm

/-- **The options decide failure exactly, and never the result.** Every form that calls of its own
make is wired under the loosest options. A form that is wired under these fails under other options
exactly if they refuse one of its references, and with an error that names such a reference.
Otherwise only the options differ. What a reference stands in is seen in the wired form, the nodes
of which must have no cycle either, so that every search ends. Both are what is seen in the form if
no pseudo-node was given the identifier of a missing parent. -/
theorem wire_decided :
    (∀ form : Form, form.Made → form.Composed ∧ Acyclic form.nodes ∧
      ∃ loose, wire form .default = .ok loose ∧ Uncaptured form.nodes loose.form.nodes) ∧
    ∀ (form : Form) (loose : WiredForm) (config : WiringConfig), form.Composed →
      Acyclic form.nodes → wire form .default = .ok loose →
        (Uncaptured form.nodes loose.form.nodes → Acyclic loose.form.nodes ∧ ∀ error,
          form.Refuses loose.form.nodes config error ↔ form.Refuses form.nodes config error) ∧
        (Acyclic loose.form.nodes →
          ((∃ error, wire form config = .error error) ↔
            ∃ error, form.Refuses loose.form.nodes config error) ∧
          (∀ error, wire form config = .error error →
            form.Refuses loose.form.nodes config error) ∧
          (∀ wired, wire form config = .ok wired → wired = { loose with config := config })) := by
  refine ⟨fun form made => ?_, fun form loose config composed acyclic accepted => ?_⟩
  · obtain ⟨loose, accepted⟩ := made.exists_wire
    refine ⟨made.composed, made.plain.acyclic, loose, accepted, ?_⟩
    intro node member parent contained missing
    have present := made.plain.contained node member parent contained
    rw [NodeStore.contains, missing] at present
    cases present
  · have coherent := composed.spec.1
    obtain ⟨scopes, built, silent, rfl⟩ := (wire_eq_ok_iff coherent).1 accepted
    have tightens := @Form.draft_tightens form config scopes coherent
    have refused : ∀ {error}, (form.draft scopes config).failure? = some error →
        form.Refuses form.furnished config error := by
      intro error failed
      refine (tightens.error error (Draft.mem_of_failure? failed)).resolve_right ?_
      exact Draft.failure?_eq_none_iff.1 silent error
    have fails : ∀ {error}, wire form config = .error error ↔
        (form.draft scopes config).failure? = some error := by
      intro error
      rw [wire_eq coherent built]
      cases (form.draft scopes config).failure? <;> simp
    refine ⟨fun uncaptured => ⟨Form.acyclic_furnished coherent acyclic uncaptured, fun error => ?_⟩,
      fun _ => ⟨⟨?_, ?_⟩, fun error failed => refused (fails.1 failed), ?_⟩⟩
    · have unchanged : Unchanged form.nodes form.furnished :=
        unchanged_of_grows coherent acyclic (Form.furnished_grows coherent) uncaptured
      exact ⟨.congr fun node member => (unchanged.above node member).symm,
        .congr fun node member => unchanged.above node member⟩
    · rintro ⟨error, failed⟩
      exact ⟨error, refused (fails.1 failed)⟩
    · rintro ⟨error, refuses⟩
      obtain ⟨other, failed⟩ := Option.ne_none_iff_exists'.1
        (Form.exists_failure_draft coherent built refuses)
      exact ⟨other, fails.2 failed⟩
    · intro wired wiring
      obtain ⟨others, again, quiet, rfl⟩ := (wire_eq_ok_iff coherent).1 wiring
      cases built.symm.trans again
      rw [Form.wiredBy, Form.wiredBy, tightens.same quiet]

/-! References that are refused in a template. -/

namespace Checked

def form : Form :=
  ⟨"rows", {
    nodes := [
      ⟨⟨0⟩, none, .journey "rows"⟩,
      ⟨⟨1⟩, some ⟨0⟩, .step "/rows"⟩,
      ⟨⟨2⟩, some ⟨1⟩, .field ⟨"name", "text", [], none⟩⟩,
      ⟨⟨3⟩, some ⟨2⟩, .reference ⟨["@self"]⟩⟩,
      ⟨⟨4⟩, some ⟨1⟩, .collection ⟨"row", none⟩⟩,
      ⟨⟨5⟩, some ⟨4⟩, .reference ⟨["query"]⟩⟩,
      ⟨⟨6⟩, some ⟨4⟩, .reference ⟨["@self"]⟩⟩]
    containment := [(⟨0⟩, ⟨1⟩), (⟨1⟩, ⟨2⟩), (⟨2⟩, ⟨3⟩), (⟨1⟩, ⟨4⟩), (⟨4⟩, ⟨5⟩), (⟨4⟩, ⟨6⟩)]
    references := [⟨3⟩, ⟨5⟩, ⟨6⟩]
    identities := []
    nextId := 7 }⟩

theorem made : form.Made := by
  have journey := Form.Made.call (.addJourney none "rows") nofun (.empty "rows")
  have step := journey.call (.addStep ⟨0⟩ "/rows") nofun
  have field := step.call (.addField ⟨1⟩ "name" "text") nofun
  have inField := field.call (.addReference ⟨2⟩ ["@self"]) nofun
  have row := inField.call (.addCollection ⟨1⟩ "row" none) nofun
  have keyless := row.call (.addReference ⟨4⟩ ["query"]) nofun
  exact keyless.call (.addReference ⟨4⟩ ["@self"]) nofun

def loose : WiredForm := (wire form .default).toOption.getD default

theorem templates_decided :
    (∃ error, wire form ⟨.skip, true⟩ = .error error) ∧
      form.Refuses loose.form.nodes ⟨.reject, false⟩ (.malformedReference ⟨5⟩ ["query"]) := by
  obtain ⟨composed, acyclic, wired, accepted, uncaptured⟩ := wire_decided.1 form made
  obtain rfl : loose = wired := by
    rw [loose, accepted]
    rfl
  have decided := fun config => wire_decided.2 form loose config composed acyclic accepted
  have whole := ((decided .default).1 uncaptured).1
  refine ⟨((decided ⟨.skip, true⟩).2 whole).1.2 ⟨.selfOutsideField ⟨6⟩, ?_⟩,
    ((decided ⟨.reject, false⟩).2 whole).2.1 _ rfl⟩
  have member : (⟨⟨6⟩, some ⟨4⟩, .reference ⟨["@self"]⟩⟩ : Node) ∈ form.nodes.nodes := by
    simp [form]
  exact .outside member rfl rfl rfl rfl (by decide)

end Checked

/-! A pseudo-node that takes the place of a missing parent. -/

namespace Orphan

def form : Form :=
  ⟨"form", {
    nodes := [
      ⟨⟨0⟩, none, .field ⟨"f", "text", [], none⟩⟩,
      ⟨⟨1⟩, some ⟨0⟩, .step "/s"⟩,
      ⟨⟨2⟩, some ⟨1⟩, .reference ⟨["query", "a"]⟩⟩,
      ⟨⟨3⟩, some ⟨5⟩, .step "/t"⟩,
      ⟨⟨4⟩, some ⟨3⟩, .reference ⟨["@self"]⟩⟩]
    containment := [(⟨0⟩, ⟨1⟩), (⟨1⟩, ⟨2⟩), (⟨5⟩, ⟨3⟩), (⟨3⟩, ⟨4⟩)]
    references := [⟨2⟩, ⟨4⟩]
    identities := []
    nextId := 5 }⟩

def text : String :=
  "[\"form\",[[[0,null,[\"field\",\"f\",\"text\"]],[1,0,[\"step\",\"/s\"]]," ++
    "[2,1,[\"reference\",[\"query\",\"a\"]]],[3,5,[\"step\",\"/t\"]]," ++
      "[4,3,[\"reference\",[\"@self\"]]]],5]]"

theorem composed : form.Composed := .ofText (by cbv : Form.ofText text = .ok form)

theorem acyclic : Acyclic form.nodes :=
  NodeStore.acyclic_of_descends (fun id => id.val % 5) (by decide)

def loose : WiredForm := (wire form .default).toOption.getD default

end Orphan

/-! A pseudo-node that takes the place of a missing parent and closes a cycle: the item of the
collection is the parent of the step that it is made in. -/

namespace Looped

def form : Form :=
  ⟨"form", {
    nodes := [
      ⟨⟨0⟩, none, .journey "survey"⟩,
      ⟨⟨1⟩, some ⟨4⟩, .step "/s"⟩,
      ⟨⟨2⟩, some ⟨1⟩, .collection ⟨"row", none⟩⟩,
      ⟨⟨3⟩, some ⟨2⟩, .reference ⟨["@self"]⟩⟩]
    containment := [(⟨4⟩, ⟨1⟩), (⟨1⟩, ⟨2⟩), (⟨2⟩, ⟨3⟩)]
    references := [⟨3⟩]
    identities := []
    nextId := 4 }⟩

def text : String :=
  "[\"form\",[[[0,null,[\"journey\",\"survey\"]],[1,4,[\"step\",\"/s\"]]," ++
    "[2,1,[\"collection\",\"row\"]],[3,2,[\"reference\",[\"@self\"]]]],4]]"

theorem composed : form.Composed := .ofText (by cbv : Form.ofText text = .ok form)

theorem acyclic : Acyclic form.nodes :=
  NodeStore.acyclic_of_descends (fun id => (id.val + 1) % 5) (by decide)

def loose : WiredForm := (wire form .default).toOption.getD default

/-- The search for a field around the reference goes round in the cycle. -/
theorem not_ascends : ¬∃ path, Ascends loose.form.nodes (some ⟨2⟩) path := by
  rintro ⟨path, ascends⟩
  have inside : ∀ inner outer, (loose.form.nodes.node? inner).bind Node.parent = some outer →
      Inside loose.form.nodes inner outer := by
    intro inner outer contained
    exact Option.bind_eq_some_iff.1 contained
  -- From the collection to its step, to the item of the collection, and to the step again.
  obtain ⟨fromStep, ascends, -⟩ := ascends.exists_shorter (.single (inside ⟨2⟩ ⟨1⟩ rfl))
  obtain ⟨again, around, less⟩ := ascends.exists_shorter
    ((Relation.TransGen.single (inside ⟨1⟩ ⟨4⟩ rfl)).tail (inside ⟨4⟩ ⟨1⟩ rfl))
  rw [ascends.unique around] at less
  exact Nat.lt_irrefl _ less

end Looped

/-- In the first form the last reference is in no field, and yet it is not refused: it is below the
pseudo-node of the other step, which is in one. In the second form whether the reference is in a
field is never found out. -/
theorem Orphan.decided_differs :
    (¬∀ (form : Form) (loose : WiredForm) (config : WiringConfig),
      form.Composed → Acyclic form.nodes → wire form .default = .ok loose →
        ((∃ error, wire form config = .error error) ↔
          ∃ error, form.Refuses form.nodes config error)) ∧
    ∃ (form : Form) (loose : WiredForm) (node : Node), form.Composed ∧ Acyclic form.nodes ∧
      wire form .default = .ok loose ∧ node ∈ form.nodes.nodes ∧
      node.kind = .reference ⟨["@self"]⟩ ∧ (owningStep? form.nodes node.id).isSome = true ∧
      ¬∃ path, Ascends loose.form.nodes node.parent path := by
  refine ⟨fun decides => ?_, Looped.form, Looped.loose, ⟨⟨3⟩, some ⟨2⟩, .reference ⟨["@self"]⟩⟩,
    Looped.composed, Looped.acyclic, rfl, by simp [Looped.form], rfl, rfl, Looped.not_ascends⟩
  have member : (⟨⟨4⟩, some ⟨3⟩, .reference ⟨["@self"]⟩⟩ : Node) ∈ Orphan.form.nodes.nodes := by
    simp [Orphan.form]
  obtain ⟨error, failed⟩ := (decides Orphan.form Orphan.loose ⟨.skip, true⟩ Orphan.composed
    Orphan.acyclic rfl).2 ⟨.selfOutsideField ⟨4⟩, .outside member rfl rfl rfl rfl (by decide)⟩
  have succeeds : (wire Orphan.form ⟨.skip, true⟩).toOption.isSome = true := rfl
  rw [failed] at succeeds
  cases succeeds

end WiredForm

end FormFlow
