import FormFlow.Proofs.Wiring.Whole

/-!
# The edges of a wired form

The graph of a form is what the draft of the form adds to an empty graph, so its edges are the
connections that the draft asks for (`WiredForm.Registered.exists_asked`,
`WiredForm.Registered.exists_edge`). Each of them fills a pseudo-node of a step, lets a reference
read a pseudo-node by its key, or leads into a reference that goes by its place
(`WiringContext.Asked`).

Here the draft of a step is read as it is, with the members that were listed before pseudo-nodes
were made. Nothing is assumed about where nodes stand, about iterations of the form or about
parents that are missing.
-/

set_option autoImplicit false

namespace FormFlow

open NodeSource

theorem Family.mem_all (family : Family) : family ∈ Family.all := by
  cases family <;> decide

/-- The family that fills the pseudo-nodes of a kind. -/
def PseudoKind.family : PseudoKind → Family
  | .answerLocal => .answer
  | .answerRemote => .answer
  | .post => .post
  | .query => .query
  | .params => .params
  | .data => .data
  | .item => .item

theorem PseudoKind.reads_isKeyed {kind : PseudoKind} :
    kind.reads.isKeyed = true ↔ kind ≠ .item := by
  cases kind <;> decide

/-! ## Connections in a draft -/

namespace Draft

theorem ok_mem_after {α : Type} {value : Except WiringError α} {draft : α → Draft}
    {c : Connection} :
    .ok c ∈ after value draft ↔ ∃ found, value = .ok found ∧ .ok c ∈ draft found := by
  cases value with
  | ok found => simp [after]
  | error error => simp [after]

theorem mem_after {α : Type} {value : Except WiringError α} {draft : α → Draft} {found : α}
    (given : value = .ok found) {entry : Except WiringError Connection}
    (member : entry ∈ draft found) : entry ∈ after value draft := by
  rw [given]
  exact member

theorem exists_of_after {α : Type} {value : Except WiringError α} {draft : α → Draft}
    (silent : (after value draft).failure? = none) : ∃ found, value = .ok found := by
  cases value with
  | ok found => exact ⟨found, rfl⟩
  | error error => cases silent

/-- What is offered for a connection is the metadata of one that is asked for. -/
theorem exists_of_offer? {draft : Draft} {triple : Triple} {metadata : EdgeMetadata}
    (offered : draft.offer? triple = some metadata) :
    ∃ c, .ok c ∈ draft ∧ c.triple = triple ∧ c.metadata = metadata := by
  obtain ⟨entry, member, found⟩ := List.exists_of_findSome?_eq_some offered
  cases entry with
  | error error => cases found
  | ok c =>
    obtain ⟨same, given⟩ := Option.ite_none_right_eq_some.1 found
    exact ⟨c, member, same, Option.some.inj given⟩

/-- Something is offered for every connection that is asked for. -/
theorem exists_offer? {draft : Draft} {c : Connection} (asked : .ok c ∈ draft) :
    ∃ metadata, draft.offer? c.triple = some metadata := by
  cases offered : draft.offer? c.triple with
  | some metadata => exact ⟨metadata, rfl⟩
  | none =>
    have nothing := List.findSome?_eq_none_iff.1 offered _ asked
    simp at nothing

/-- Producer and role of each connection of a draft. -/
def sources (draft : Draft) : List (NodeId × Role) :=
  draft.filterMap fun entry =>
    match entry with
    | .ok c => some (c.producer, c.role)
    | .error _ => none

theorem mem_sources_iff {draft : Draft} {producer : NodeId} {role : Role} :
    (producer, role) ∈ draft.sources ↔ ∃ c, .ok c ∈ draft ∧ c.producer = producer ∧
      c.role = role := by
  rw [sources, List.mem_filterMap]
  constructor
  · rintro ⟨entry, member, found⟩
    cases entry with
    | error error => cases found
    | ok c =>
      cases found
      exact ⟨c, member, rfl, rfl⟩
  · rintro ⟨c, member, rfl, rfl⟩
    exact ⟨.ok c, member, rfl⟩

@[simp]
theorem sources_append (first second : Draft) :
    (first ++ second).sources = first.sources ++ second.sources :=
  List.filterMap_append ..

end Draft

/-! ## The connections of a step -/

namespace WiringContext

section

variable {σ : Type} [NodeSource σ]

omit [NodeSource σ] in
theorem ok_mem_feed {ctx : WiringContext σ} {family : Family} {pseudo : NodeId} {key : String}
    {space : Namespace} {readers : List NodeId} {c : Connection} :
    .ok c ∈ ctx.feed family pseudo key space readers ↔
      c.consumer ∈ readers ∧ c = ⟨family, pseudo, c.consumer, .dataFlow, key, .reads space⟩ := by
  rw [feed, List.mem_map]
  constructor
  · rintro ⟨reader, member, same⟩
    cases same
    exact ⟨member, rfl⟩
  · rintro ⟨member, same⟩
    exact ⟨c.consumer, member, by rw [← same]⟩

/-- What fills a pseudo-node. -/
def producers (ctx : WiringContext σ) (id : NodeId) (definition : Pseudo) : Draft :=
  match definition.kind with
  | .answerLocal => Answer.localProducers ctx id definition
  | .answerRemote => ctx.load .answer id definition.key
  | .post => KeyedSource.post.producers ctx id definition.key
  | .query => KeyedSource.query.producers ctx id definition.key
  | .params => KeyedSource.params.producers ctx id definition.key
  | .data => KeyedSource.data.producers ctx id definition.key
  | .item => Item.producer ctx id definition

/-- What fills a pseudo-node leads into it. -/
theorem producers_into (ctx : WiringContext σ) (id : NodeId) (definition : Pseudo) :
    (ctx.producers id definition).Into id := by
  simp only [producers]
  split
  · exact Answer.localProducers_into ctx id definition
  · exact ctx.load_into id _ _
  · exact KeyedSource.producers_into ctx id _ _
  · exact KeyedSource.producers_into ctx id _ _
  · exact KeyedSource.producers_into ctx id _ _
  · exact KeyedSource.producers_into ctx id _ _
  · exact Item.producer_into ctx id definition

/-- What fills a pseudo-node is a connection of the family of its kind. -/
theorem filled_of_producers {ctx : WiringContext σ} {id : NodeId} {definition : Pseudo}
    {c : Connection} (member : .ok c ∈ ctx.producers id definition) :
    c.family = definition.kind.family ∧ ∃ property, c.purpose = .fills property := by
  have filled : ∀ family producer key property, .ok c ∈ ctx.fill family producer id key property →
      c.family = family ∧ ∃ property, c.purpose = .fills property := by
    intro family producer key property inside
    cases List.mem_singleton.1 inside
    exact ⟨rfl, property, rfl⟩
  have loaded : ∀ family key, .ok c ∈ ctx.load family id key →
      c.family = family ∧ ∃ property, c.purpose = .fills property := by
    intro family key inside
    rw [load] at inside
    split at inside
    · cases List.mem_singleton.1 inside
      exact ⟨rfl, _, rfl⟩
    · cases inside
  have formatted : ∀ code ids position, .ok c ∈ Answer.formatters ctx id code position ids →
      c.family = .answer ∧ ∃ property, c.purpose = .fills property := by
    intro code ids
    induction ids with
    | nil => exact fun _ inside => absurd inside (List.not_mem_nil)
    | cons formatter rest ih =>
      intro position inside
      exact (List.mem_append.1 inside).elim (filled _ _ _ _) (ih _)
  rw [producers] at member
  cases kind : definition.kind with
  | post | query | params =>
    rw [kind] at member
    cases member
  | data =>
    rw [kind] at member
    exact loaded _ _ member
  | answerRemote =>
    rw [kind] at member
    exact loaded _ _ member
  | answerLocal =>
    rw [kind] at member
    obtain ⟨field, _, inside⟩ := Draft.ok_mem_after.1 member
    simp only [Answer.fieldProducers, List.mem_append] at inside
    rcases inside with ((submitted | formatter) | default) | transition
    · split at submitted
      · exact filled _ _ _ _ submitted
      · cases submitted
    · exact formatted _ _ _ formatter
    · split at default
      · exact filled _ _ _ _ default
      · cases default
    · exact loaded _ _ transition
  | item =>
    rw [kind] at member
    obtain ⟨⟨collection, index⟩, _, inside⟩ := Draft.ok_mem_after.1 member
    obtain ⟨found, _, supplied⟩ := Draft.ok_mem_after.1 inside
    split at supplied
    · exact filled _ _ _ _ supplied
    · cases supplied

/-- What fills a pseudo-node reads nothing. -/
theorem reference_of_producers {ctx : WiringContext σ} {id : NodeId} {definition : Pseudo}
    {c : Connection} (member : .ok c ∈ ctx.producers id definition) :
    c.metadata.reference = none := by
  obtain ⟨_, property, purpose⟩ := filled_of_producers member
  rw [Connection.metadata, purpose]

/-- A reference of the step into a namespace has a key. -/
def AsksKey (ctx : WiringContext σ) (space : Namespace) (id : NodeId) (key : String) : Prop :=
  ∃ expression, (id, expression) ∈ ctx.references space ∧ expression.lookupKey? space = some key

/-- A pseudo-node of the step. -/
def Holds (ctx : WiringContext σ) (id : NodeId) (definition : Pseudo) : Prop :=
  ctx.definition? id = some definition ∧ definition.scope = ctx.step

/-- A reference finds a pseudo-node by its key: a remote answer only if there is no local one. -/
structure Finds (ctx : WiringContext σ) (definition : Pseudo) (reader : NodeId) : Prop where
  keyed : definition.kind.reads.isKeyed = true
  asks : ctx.AsksKey definition.kind.reads reader definition.key
  nearest : definition.kind = .answerRemote → ctx.find? .answerLocal definition.key = none

/-- What a step asks for: a connection that fills a pseudo-node of the step, one from such a node
to a reference that finds it, or one into a reference that goes by its place. -/
inductive Asked (ctx : WiringContext σ) (c : Connection) : Prop where
  | fills (id : NodeId) (definition : Pseudo) (held : ctx.Holds id definition)
      (filled : .ok c ∈ ctx.producers id definition)
  | reads (definition : Pseudo) (held : ctx.Holds c.producer definition)
      (found : ctx.Finds definition c.consumer) (role : c.role = .dataFlow)
      (metadata : c.metadata = ⟨some definition.key, none, some definition.kind.reads⟩)
  | placed (space : Namespace) (expression : Reference) (unkeyed : space.isKeyed = false)
      (listed : c.consumer ∈ ctx.members.references ++ ctx.members.templateReferences)
      (known : ctx.expression? c.consumer = some expression)
      (within : expression.isIn space = true)

end

section

variable {ctx : WiringContext NodeStore} (coherent : ctx.nodes.Coherent)
include coherent

/-- The pseudo-nodes of a kind draft one after the other. -/
theorem mem_pseudos_iff {kind : PseudoKind} {draft : NodeId → Pseudo → Draft}
    {entry : Except WiringError Connection} :
    (entry ∈ (ctx.pseudoIds kind).flatMap fun id => Draft.after (ctx.pseudo id) (draft id)) ↔
      ∃ id definition, ctx.Holds id definition ∧ definition.kind = kind ∧
        entry ∈ draft id definition := by
  rw [List.mem_flatMap]
  constructor
  · rintro ⟨id, member, drafted⟩
    obtain ⟨definition, known, same, here⟩ := (mem_pseudoIds_iff coherent).1 member
    rw [pseudo_of_definition? known] at drafted
    exact ⟨id, definition, ⟨known, here⟩, same, drafted⟩
  · rintro ⟨id, definition, ⟨known, here⟩, same, drafted⟩
    exact ⟨id, (mem_pseudoIds_iff coherent).2 ⟨definition, known, same, here⟩,
      Draft.mem_after (pseudo_of_definition? known) drafted⟩

omit coherent in
/-- A pseudo-node that is fed to the references with its key. -/
theorem asked_of_fed {family : Family} {id : NodeId} {definition : Pseudo} {c : Connection}
    {index : ReferenceIndex} (held : ctx.Holds id definition)
    (keyed : definition.kind.reads.isKeyed = true)
    (nearest : definition.kind = .answerRemote → ctx.find? .answerLocal definition.key = none)
    (built : ReferenceIndex.build ctx definition.kind.reads = .ok index)
    (fed : .ok c ∈ ctx.feed family id definition.key definition.kind.reads
      (index.get definition.key)) : ctx.Asked c := by
  obtain ⟨member, same⟩ := ok_mem_feed.1 fed
  have asks := (ReferenceIndex.mem_get_build built).1 member
  rw [same]
  exact .reads definition held ⟨keyed, asks, nearest⟩ rfl rfl

/-- A keyed source asks for what fills its pseudo-nodes and for their readers. -/
theorem asked_of_keyed (source : KeyedSource) (keyed : source.kind.reads.isKeyed = true)
    (direct : source.kind ≠ .answerRemote)
    (fills : ∀ id definition, definition.kind = source.kind →
      ctx.producers id definition = source.producers ctx id definition.key)
    {c : Connection} (member : .ok c ∈ source.draft ctx) : ctx.Asked c := by
  obtain ⟨index, built, member⟩ := Draft.ok_mem_after.1 member
  obtain ⟨id, definition, held, same, drafted⟩ := (mem_pseudos_iff coherent).1 member
  rcases List.mem_append.1 drafted with filled | fed
  · exact .fills id definition held (by rw [fills id definition same]; exact filled)
  · rw [← same] at keyed built fed direct
    exact asked_of_fed held keyed (fun remote => absurd remote direct) built fed

theorem asked_of_answer {c : Connection} (member : .ok c ∈ Answer.draft ctx) : ctx.Asked c := by
  obtain ⟨index, built, member⟩ := Draft.ok_mem_after.1 member
  rcases List.mem_append.1 member with near | far
  · obtain ⟨id, ⟨⟨kind, scope, key⟩, origin⟩, held, rfl, drafted⟩ :=
      (mem_pseudos_iff coherent).1 near
    rcases List.mem_append.1 drafted with filled | fed
    · exact .fills id _ held filled
    · exact asked_of_fed held rfl nofun built fed
  · obtain ⟨id, ⟨⟨kind, scope, key⟩, origin⟩, held, rfl, drafted⟩ :=
      (mem_pseudos_iff coherent).1 far
    rcases List.mem_append.1 drafted with filled | fed
    · exact .fills id _ held filled
    · split at fed
      · cases fed
      · rename_i absent
        exact asked_of_fed held rfl
          (fun _ => Option.not_isSome_iff_eq_none.1 absent) built fed

omit coherent in
theorem asked_of_self {c : Connection} (member : .ok c ∈ SelfValue.draft ctx) : ctx.Asked c := by
  obtain ⟨⟨reader, expression⟩, known, drafted⟩ := List.mem_flatMap.1 member
  obtain ⟨listed, isReference, within⟩ := mem_selecting_iff.1 known
  obtain rfl : c.consumer = reader := SelfValue.reader_into ctx reader c drafted
  exact .placed .selfValue expression rfl (List.mem_append_left _ listed) isReference within

theorem asked_of_item {c : Connection} (member : .ok c ∈ Item.draft ctx) : ctx.Asked c := by
  obtain ⟨id, ⟨⟨kind, scope, key⟩, origin⟩, held, rfl, drafted⟩ :=
    (mem_pseudos_iff coherent).1 member
  rcases List.mem_append.1 drafted with filled | fed
  · exact .fills id _ held filled
  · obtain ⟨reader, -⟩ := ok_mem_feed.1 fed
    obtain ⟨⟨other, expression⟩, known, keyed⟩ :=
      List.mem_filterMap.1 (ReferenceIndex.mem_get_ofKeys.1 reader)
    obtain ⟨_, _, same⟩ := Option.map_eq_some_iff.1 keyed
    cases same
    obtain ⟨listed, isReference, within⟩ := mem_selecting_iff.1 known
    exact .placed .item expression rfl (List.mem_append_right _ listed) isReference within

/-- Whatever is in the draft of a step is asked for in one of three ways. -/
theorem asked_of_mem {c : Connection} (member : .ok c ∈ Pass.stepDraft ctx) : ctx.Asked c := by
  rcases List.mem_append.1 member with check | families
  · obtain ⟨_, _, isError⟩ := List.mem_map.1 check
    cases isError
  · obtain ⟨family, -, drafted⟩ := List.mem_flatMap.1 families
    cases family with
    | post =>
      refine asked_of_keyed coherent .post rfl nofun (fun id definition isKind => ?_) drafted
      rw [producers, isKind]
      rfl
    | query =>
      refine asked_of_keyed coherent .query rfl nofun (fun id definition isKind => ?_) drafted
      rw [producers, isKind]
      rfl
    | params =>
      refine asked_of_keyed coherent .params rfl nofun (fun id definition isKind => ?_) drafted
      rw [producers, isKind]
      rfl
    | data =>
      refine asked_of_keyed coherent .data rfl nofun (fun id definition isKind => ?_) drafted
      rw [producers, isKind]
      rfl
    | answer => exact asked_of_answer coherent drafted
    | selfValue => exact asked_of_self drafted
    | item => exact asked_of_item coherent drafted

end

/-! ### Everything that can be asked for is asked for -/

/-- A draft has what fills a pseudo-node, and a connection to each reference that finds it. -/
structure Serves (ctx : WiringContext NodeStore) (draft : Draft) (id : NodeId)
    (definition : Pseudo) : Prop where
  fills : ∀ entry ∈ ctx.producers id definition, entry ∈ draft
  reads : ∀ reader, ctx.Finds definition reader →
    ∃ c, .ok c ∈ draft ∧ c.producer = id ∧ c.consumer = reader

theorem Serves.mono {ctx : WiringContext NodeStore} {draft more : Draft} {id : NodeId}
    {definition : Pseudo} (serves : ctx.Serves draft id definition)
    (within : ∀ entry ∈ draft, entry ∈ more) : ctx.Serves more id definition :=
  ⟨fun entry filled => within entry (serves.fills entry filled),
    fun reader finds => (serves.reads reader finds).imp fun c known =>
      ⟨within (.ok c) known.1, known.2⟩⟩

section

variable {ctx : WiringContext NodeStore} (coherent : ctx.nodes.Coherent) {id : NodeId}
  {definition : Pseudo} (held : ctx.Holds id definition)
include coherent held

/-- A family serves the pseudo-nodes that it drafts with what fills them and with their readers. -/
theorem serves_of_drafted (draft : NodeId → Pseudo → Draft) (family : Family)
    {index : ReferenceIndex}
    (built : ReferenceIndex.build ctx definition.kind.reads = .ok index)
    (fills : ∀ entry ∈ ctx.producers id definition, entry ∈ draft id definition)
    (reads : ∀ reader, ctx.Finds definition reader →
      ∀ entry ∈ ctx.feed family id definition.key definition.kind.reads
        (index.get definition.key), entry ∈ draft id definition) :
    ctx.Serves ((ctx.pseudoIds definition.kind).flatMap fun id =>
      Draft.after (ctx.pseudo id) (draft id)) id definition := by
  have drafted : ∀ entry ∈ draft id definition,
      entry ∈ (ctx.pseudoIds definition.kind).flatMap fun id =>
        Draft.after (ctx.pseudo id) (draft id) :=
    fun entry member => (mem_pseudos_iff coherent).2 ⟨id, definition, held, rfl, member⟩
  refine ⟨fun entry filled => drafted entry (fills entry filled), fun reader finds => ?_⟩
  refine ⟨⟨family, id, reader, .dataFlow, definition.key, .reads definition.kind.reads⟩,
    drafted _ (reads reader finds _ (ok_mem_feed.2 ⟨?_, rfl⟩)), rfl, rfl⟩
  exact (ReferenceIndex.mem_get_build built).2 finds.asks

theorem serves_of_keyed (source : KeyedSource) (same : definition.kind = source.kind)
    (fills : ctx.producers id definition = source.producers ctx id definition.key)
    (silent : (source.draft ctx).failure? = none) :
    ctx.Serves (source.draft ctx) id definition := by
  obtain ⟨index, built⟩ := Draft.exists_of_after silent
  refine Serves.mono (serves_of_drafted coherent held
    (fun id definition => source.producers ctx id definition.key ++
      ctx.feed source.family id definition.key source.kind.reads (index.get definition.key))
    source.family (same ▸ built) ?_ ?_) fun entry member => ?_
  · intro entry filled
    exact List.mem_append_left _ (fills ▸ filled)
  · intro reader _ entry fed
    exact List.mem_append_right _ (same ▸ fed)
  · rw [same] at member
    exact Draft.mem_after built member

theorem serves_of_answer (answer : definition.kind.reads = .answers)
    (silent : (Answer.draft ctx).failure? = none) :
    ctx.Serves (Answer.draft ctx) id definition := by
  obtain ⟨index, built⟩ := Draft.exists_of_after silent
  obtain ⟨⟨kind, scope, key⟩, origin⟩ := definition
  cases kind with
  | answerLocal =>
    refine Serves.mono (serves_of_drafted coherent held
      (fun id definition => Answer.localProducers ctx id definition ++
        ctx.feed .answer id definition.key .answers (index.get definition.key))
      .answer built ?_ ?_) fun entry member => ?_
    · exact fun entry filled => List.mem_append_left _ filled
    · exact fun reader _ entry fed => List.mem_append_right _ fed
    · exact Draft.mem_after built (List.mem_append_left _ member)
  | answerRemote =>
    refine Serves.mono (serves_of_drafted coherent held
      (fun id definition => ctx.load .answer id definition.key ++
        (if (ctx.find? .answerLocal definition.key).isSome then []
          else ctx.feed .answer id definition.key .answers (index.get definition.key)))
      .answer built ?_ ?_) fun entry member => ?_
    · exact fun entry filled => List.mem_append_left _ filled
    · intro reader finds entry fed
      refine List.mem_append_right _ ?_
      rw [finds.nearest rfl]
      exact fed
    · exact Draft.mem_after built (List.mem_append_right _ member)
  | post | query | params | data | item => cases answer

theorem serves_of_item (kind : definition.kind = .item) :
    ctx.Serves (Item.draft ctx) id definition := by
  refine ⟨fun entry filled => ?_, fun reader finds => ?_⟩
  · refine (mem_pseudos_iff coherent).2 ⟨id, definition, held, kind, List.mem_append_left _ ?_⟩
    rw [producers, kind] at filled
    exact filled
  · exact absurd kind (PseudoKind.reads_isKeyed.1 finds.keyed)

/-- The draft of a step that does not fail has everything that its pseudo-nodes ask for. -/
theorem serves_of_silent (silent : (Pass.stepDraft ctx).failure? = none) :
    ctx.Serves (Pass.stepDraft ctx) id definition := by
  have each : ∀ family : Family, (family.draft ctx).failure? = none := fun family =>
    Draft.failure?_flatMap.1 (Draft.failure?_append.1 silent).2 family family.mem_all
  have within : ∀ family : Family, ∀ entry ∈ family.draft ctx, entry ∈ Pass.stepDraft ctx :=
    fun family entry member =>
      List.mem_append_right _ (List.mem_flatMap.2 ⟨family, family.mem_all, member⟩)
  obtain ⟨⟨kind, scope, key⟩, origin⟩ := definition
  cases kind with
  | answerLocal => exact (serves_of_answer coherent held rfl (each .answer)).mono (within .answer)
  | answerRemote => exact (serves_of_answer coherent held rfl (each .answer)).mono (within .answer)
  | post => exact (serves_of_keyed coherent held .post rfl rfl (each .post)).mono (within .post)
  | query => exact (serves_of_keyed coherent held .query rfl rfl (each .query)).mono (within .query)
  | params =>
    exact (serves_of_keyed coherent held .params rfl rfl (each .params)).mono (within .params)
  | data => exact (serves_of_keyed coherent held .data rfl rfl (each .data)).mono (within .data)
  | item => exact (serves_of_item coherent held rfl).mono (within .item)

end

end WiringContext

/-! ## The edges of a form -/

namespace DependencyGraph

/-- If there is only one connection into a node, there is at most one edge into it. -/
theorem length_edgesTo_le_one {graph : DependencyGraph} (distinct : graph.triples.Nodup)
    {consumer : NodeId} (unique : ∀ edge ∈ graph.edgesTo consumer,
      ∀ other ∈ graph.edgesTo consumer, edge.triple = other.triple) :
    (graph.edgesTo consumer).length ≤ 1 := by
  have once : ((graph.edgesTo consumer).map Edge.triple).Nodup :=
    distinct.sublist (List.filter_sublist.map _)
  cases edges : graph.edgesTo consumer with
  | nil => exact Nat.zero_le _
  | cons first rest =>
    cases rest with
    | nil => exact Nat.le_refl _
    | cons second rest =>
      rw [edges] at unique once
      have same := unique first (by simp) second (by simp)
      simp [same] at once

end DependencyGraph

namespace WiredForm.Registered

variable {form : Form} {config : WiringConfig} {wired : WiredForm}
  (registered : Registered form config wired)
include registered

/-- An edge was asked for in a step of the form. -/
theorem exists_asked {edge : Edge} (member : edge ∈ wired.graph.edges) :
    ∃ step ∈ wired.scopes.steps, ∃ c, .ok c ∈ Pass.stepDraft (context wired config step) ∧
      c.triple = edge.triple ∧ c.metadata = edge.metadata := by
  have found := (DependencyGraph.mem_connections_iff registered.nodup_triples).1
    (List.mem_map_of_mem (f := fun edge : Edge => (edge.triple, edge.metadata)) member)
  rw [registered.graph, Draft.metadata?_applyTo registered.drafted] at found
  obtain ⟨c, asked, same, carried⟩ := Draft.exists_of_offer? found
  obtain ⟨step, listed, asked⟩ := List.mem_flatMap.1 asked
  exact ⟨step, listed, c, asked, same, carried⟩

/-- What is asked for in a step of the form is an edge. -/
theorem exists_edge {step : NodeId} (listed : step ∈ wired.scopes.steps) {c : Connection}
    (asked : .ok c ∈ Pass.stepDraft (context wired config step)) :
    ∃ edge ∈ wired.graph.edges, edge.triple = c.triple := by
  obtain ⟨metadata, offered⟩ := Draft.exists_offer?
    (List.mem_flatMap.2 ⟨step, listed, asked⟩ :
      .ok c ∈ Pass.formDraft wired.form.nodes wired.scopes wired.membership config)
  have found : c.triple ∈ wired.graph.triples := by
    rw [registered.graph, DependencyGraph.mem_triples_iff]
    exact ⟨metadata, (Draft.metadata?_applyTo registered.drafted ..).trans offered⟩
  exact List.mem_map.1 found

/-- The draft of a step of the form does not fail. -/
theorem silent {step : NodeId} (listed : step ∈ wired.scopes.steps) :
    (Pass.stepDraft (context wired config step)).failure? = none :=
  Draft.failure?_flatMap.1 registered.drafted step listed

end WiredForm.Registered

end FormFlow
