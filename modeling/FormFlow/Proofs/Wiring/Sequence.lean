import FormFlow.Proofs.Wiring.Alike
import FormFlow.Proofs.Wiring.Carried

/-!
# Filled first, read afterwards

Wiring connects a pseudo-node with what fills it before it lets references read it. In the pass over
a form this is so pseudo-node by pseudo-node; the references to an enclosing field read the answers
that an earlier family has filled. In the pass over a batch each family fills the pseudo-nodes of
the batch first and looks at its references after that. No two families fill the same kinds, and no
two steps have a pseudo-node in common.

A draft is `Draft.Sequenced` if it fills nothing that it has let a reference read. This is put
together from the drafts of families (`WiringContext.InTurn.families`) and of steps
(`WiringContext.sequenced_steps`), for a form in `WiredForm.Registered.sequenced` and for a batch in
`Pass.sequenced_wireNodes`.
-/

set_option autoImplicit false

namespace FormFlow

open NodeSource

/-- Two connections in an order in which they may be made: the second one does not fill what the
first one lets a reference read. -/
def InOrder (earlier later : Triple × EdgeMetadata) : Prop :=
  earlier.2.reference ≠ none → later.2.reference = none → later.1.consumer ≠ earlier.1.producer

/-! ## Drafts -/

theorem DependencyGraph.connections_add (graph : DependencyGraph) (triple : Triple)
    (metadata : EdgeMetadata) : (graph.add triple metadata).1.connections =
      if graph.contains triple then graph.connections
      else graph.connections ++ [(triple, metadata)] := by
  cases present : graph.contains triple with
  | true => simp [add_of_contains present]
  | false => simp [add_of_not_contains present, connections, Edge.triple]

namespace Draft

/-- The connections that a draft asks for, each with its metadata. -/
def connections (draft : Draft) : List (Triple × EdgeMetadata) :=
  draft.filterMap fun entry =>
    match entry with
    | .ok c => some (c.triple, c.metadata)
    | .error _ => none

theorem mem_connections_iff {draft : Draft} {connection : Triple × EdgeMetadata} :
    connection ∈ draft.connections ↔ ∃ c, .ok c ∈ draft ∧ (c.triple, c.metadata) = connection := by
  rw [connections, List.mem_filterMap]
  constructor
  · rintro ⟨entry, member, found⟩
    cases entry with
    | error error => cases found
    | ok c => exact ⟨c, member, Option.some.inj found⟩
  · rintro ⟨c, member, rfl⟩
    exact ⟨.ok c, member, rfl⟩

theorem connections_append (first second : Draft) :
    (first ++ second).connections = first.connections ++ second.connections :=
  List.filterMap_append ..

/-- What was new has become the edges behind those of the graph. -/
theorem connections_added (draft : Draft) (graph : DependencyGraph) :
    (draft.applyTo graph).graph.connections = graph.connections ++
      (draft.applyTo graph).added.map fun c => (c.triple, c.metadata) := by
  induction draft generalizing graph with
  | nil => simp [applyTo]
  | cons entry rest ih =>
    cases entry with
    | error error => simp [applyTo]
    | ok c =>
      rw [graph_applyTo_cons, ih, DependencyGraph.connections_add, applyTo]
      cases present : graph.contains c.triple with
      | true => simp [DependencyGraph.add_of_contains present]
      | false => simp [DependencyGraph.add_of_not_contains present]

/-- What was new was asked for, in the same order. -/
theorem added_sublist (draft : Draft) (graph : DependencyGraph) :
    ((draft.applyTo graph).added.map Except.ok).Sublist draft := by
  induction draft generalizing graph with
  | nil => exact List.Sublist.slnil
  | cons entry rest ih =>
    cases entry with
    | error error => exact List.nil_sublist _
    | ok c =>
      rw [applyTo]
      dsimp only
      split
      · exact (ih _).cons_cons _
      · exact (ih _).cons _

/-- **What is new in a graph was asked for, in the same order.** -/
theorem connections_applyTo (draft : Draft) (graph : DependencyGraph) :
    ∃ new : List (Triple × EdgeMetadata),
      (draft.applyTo graph).graph.connections = graph.connections ++ new ∧
        new.Sublist draft.connections := by
  refine ⟨_, connections_added draft graph, ?_⟩
  have asked : connections ((draft.applyTo graph).added.map Except.ok) =
      (draft.applyTo graph).added.map fun c => (c.triple, c.metadata) := by
    rw [connections, List.filterMap_map]
    exact congrFun (List.filterMap_eq_map (f := fun c : Connection => (c.triple, c.metadata))) _
  exact asked ▸ (added_sublist draft graph).filterMap _

/-- A draft fills nothing that it has let a reference read. -/
def Sequenced (draft : Draft) : Prop := draft.connections.Pairwise InOrder

theorem Sequenced.append {first second : Draft} (one : first.Sequenced) (two : second.Sequenced)
    (apart : ∀ c, .ok c ∈ first → ∀ d, .ok d ∈ second →
      c.metadata.reference ≠ none → d.metadata.reference = none → d.consumer ≠ c.producer) :
    (first ++ second).Sequenced := by
  rw [Sequenced, connections_append]
  refine List.pairwise_append.2 ⟨one, two, ?_⟩
  rintro _ earlier _ later
  obtain ⟨c, inFirst, rfl⟩ := mem_connections_iff.1 earlier
  obtain ⟨d, inSecond, rfl⟩ := mem_connections_iff.1 later
  exact apart c inFirst d inSecond

theorem Sequenced.flatMap {α : Type} {items : List α} {draft : α → Draft}
    (each : ∀ item ∈ items, (draft item).Sequenced)
    (apart : items.Pairwise fun one other => ∀ c, .ok c ∈ draft one → ∀ d, .ok d ∈ draft other →
      c.metadata.reference ≠ none → d.metadata.reference = none → d.consumer ≠ c.producer) :
    Sequenced (items.flatMap draft) := by
  induction items with
  | nil => exact .nil
  | cons item rest ih =>
    obtain ⟨first, others⟩ := List.pairwise_cons.1 apart
    refine (each item (List.mem_cons_self ..)).append
      (ih (fun other member => each other (List.mem_cons_of_mem _ member)) others) ?_
    intro c inFirst d inRest
    obtain ⟨other, member, inside⟩ := List.mem_flatMap.1 inRest
    exact first other member c inFirst d inside

/-- First what fills, then what reads. -/
theorem Sequenced.ofParts {fills reads : Draft}
    (filling : ∀ c, .ok c ∈ fills → c.metadata.reference = none)
    (reading : ∀ c, .ok c ∈ reads → c.metadata.reference ≠ none) : (fills ++ reads).Sequenced := by
  refine Sequenced.append ?_ ?_ fun c inFirst _ _ isRead => absurd (filling c inFirst) isRead
  · refine List.pairwise_of_forall_mem_list ?_
    rintro _ earlier _ _ isRead
    obtain ⟨c, inside, rfl⟩ := mem_connections_iff.1 earlier
    exact absurd (filling c inside) isRead
  · refine List.pairwise_of_forall_mem_list ?_
    rintro _ _ _ later _ silent
    obtain ⟨d, inside, rfl⟩ := mem_connections_iff.1 later
    exact absurd silent (reading d inside)

end Draft

/-! ## Drafts in a step -/

namespace WiringContext

section

variable {σ : Type} [NodeSource σ] {ctx : WiringContext σ}

theorem Holds.unique {id : NodeId} {definition other : Pseudo} (one : ctx.Holds id definition)
    (two : ctx.Holds id other) : definition = other :=
  Option.some.inj (one.1.symm.trans two.1)

/-- A connection that fills a pseudo-node of the step, of one of some kinds. -/
def FillsOne (ctx : WiringContext σ) (kinds : List PseudoKind) (c : Connection) : Prop :=
  c.metadata.reference = none ∧
    ∃ definition, ctx.Holds c.consumer definition ∧ definition.kind ∈ kinds

/-- A connection by which a reference reads a pseudo-node of the step, of one of some kinds. -/
def ReadsOne (ctx : WiringContext σ) (kinds : List PseudoKind) (c : Connection) : Prop :=
  c.metadata.reference ≠ none ∧
    ∃ definition, ctx.Holds c.producer definition ∧ definition.kind ∈ kinds

theorem FillsOne.mono {kinds more : List PseudoKind} {c : Connection} (fills : ctx.FillsOne kinds c)
    (le : ∀ kind ∈ kinds, kind ∈ more) : ctx.FillsOne more c :=
  fills.imp_right fun ⟨definition, held, isKind⟩ => ⟨definition, held, le _ isKind⟩

theorem ReadsOne.mono {kinds more : List PseudoKind} {c : Connection} (reads : ctx.ReadsOne kinds c)
    (le : ∀ kind ∈ kinds, kind ∈ more) : ctx.ReadsOne more c :=
  reads.imp_right fun ⟨definition, held, isKind⟩ => ⟨definition, held, le _ isKind⟩

/-- What fills a pseudo-node of the step. -/
theorem fillsOne_of_producers {id : NodeId} {definition : Pseudo} (held : ctx.Holds id definition)
    {c : Connection} (member : .ok c ∈ ctx.producers id definition) :
    ctx.FillsOne [definition.kind] c := by
  have leads : c.consumer = id := ctx.producers_into id definition c member
  exact ⟨reference_of_producers member, definition, leads ▸ held, List.mem_singleton_self _⟩

omit [NodeSource σ] in
/-- A connection to a reference comes from what the reference reads, and says so. -/
theorem ends_of_feed {family : Family} {id : NodeId} {key : String} {space : Namespace}
    {readers : List NodeId} {c : Connection}
    (member : .ok c ∈ ctx.feed family id key space readers) :
    c.producer = id ∧ c.metadata.reference ≠ none := by
  rw [(ok_mem_feed.1 member).2]
  exact ⟨rfl, Option.some_ne_none _⟩

/-- What feeds a pseudo-node of the step to references. -/
theorem readsOne_of_feed {id : NodeId} {definition : Pseudo} (held : ctx.Holds id definition)
    {family : Family} {key : String} {space : Namespace} {readers : List NodeId} {c : Connection}
    (member : .ok c ∈ ctx.feed family id key space readers) :
    ctx.ReadsOne [definition.kind] c := by
  obtain ⟨leaves, isRead⟩ := ends_of_feed member
  exact ⟨isRead, definition, leaves ▸ held, List.mem_singleton_self _⟩

/-- A draft that fills pseudo-nodes of some kinds, lets references read pseudo-nodes of some kinds,
and is sequenced. -/
structure InTurn (ctx : WiringContext σ) (filled read : List PseudoKind) (draft : Draft) :
    Prop where
  sequenced : draft.Sequenced
  ends : ∀ c, .ok c ∈ draft → ctx.FillsOne filled c ∨ ctx.ReadsOne read c

namespace InTurn

variable {filled read : List PseudoKind}

theorem ofErrors {draft : Draft} (errors : ∀ c, .ok c ∉ draft) : ctx.InTurn filled read draft where
  sequenced := by
    have none : draft.connections = [] := by
      refine List.eq_nil_iff_forall_not_mem.2 fun connection member => ?_
      obtain ⟨c, inside, _⟩ := Draft.mem_connections_iff.1 member
      exact errors c inside
    rw [Draft.Sequenced, none]
    exact .nil
  ends := fun c member => absurd member (errors c)

theorem after {α : Type} {value : Except WiringError α} {draft : α → Draft}
    (each : ∀ found, value = .ok found → ctx.InTurn filled read (draft found)) :
    ctx.InTurn filled read (Draft.after value draft) := by
  cases value with
  | ok found => exact each found rfl
  | error error => exact .ofErrors (by simp [Draft.after])

/-- First what fills, then what reads. -/
theorem ofParts {fills reads : Draft} (filling : ∀ c, .ok c ∈ fills → ctx.FillsOne filled c)
    (reading : ∀ c, .ok c ∈ reads → ctx.ReadsOne read c) :
    ctx.InTurn filled read (fills ++ reads) where
  sequenced := .ofParts (fun c member => (filling c member).1) fun c member => (reading c member).1
  ends := fun c member => (List.mem_append.1 member).imp (filling c) (reading c)

theorem ofReads {draft : Draft} (reading : ∀ c, .ok c ∈ draft → ctx.ReadsOne read c) :
    ctx.InTurn filled read draft := by
  rw [← List.nil_append draft]
  exact ofParts (fun _ member => absurd member List.not_mem_nil) reading

/-- The second draft may come behind the first one if it fills none of the kinds that are read in
the first one. -/
theorem append {first second : Draft} {more others : List PseudoKind}
    (one : ctx.InTurn filled read first) (two : ctx.InTurn more others second)
    (apart : ∀ kind ∈ read, kind ∉ more) :
    ctx.InTurn (filled ++ more) (read ++ others) (first ++ second) where
  sequenced := by
    refine one.sequenced.append two.sequenced fun c inFirst d inSecond isRead silent same => ?_
    rcases one.ends c inFirst with ⟨fills, _⟩ | ⟨_, definition, held, isKind⟩
    · exact isRead fills
    rcases two.ends d inSecond with ⟨_, other, again, isOther⟩ | ⟨reads, _⟩
    · rw [same] at again
      cases held.unique again
      exact apart _ isKind isOther
    · exact reads silent
  ends := fun c member => by
    rcases List.mem_append.1 member with inFirst | inSecond
    · exact (one.ends c inFirst).imp (·.mono fun _ => List.mem_append_left _)
        (·.mono fun _ => List.mem_append_left _)
    · exact (two.ends c inSecond).imp (·.mono fun _ => List.mem_append_right _)
        (·.mono fun _ => List.mem_append_right _)

theorem flatMap {α : Type} {items : List α} {fills reads : α → List PseudoKind} {draft : α → Draft}
    (each : ∀ item ∈ items, ctx.InTurn (fills item) (reads item) (draft item))
    (apart : items.Pairwise fun one other => ∀ kind ∈ reads one, kind ∉ fills other) :
    ctx.InTurn (items.flatMap fills) (items.flatMap reads) (items.flatMap draft) := by
  induction items with
  | nil => exact .ofErrors fun _ => List.not_mem_nil
  | cons item rest ih =>
    obtain ⟨first, others⟩ := List.pairwise_cons.1 apart
    refine (each item (List.mem_cons_self ..)).append
      (ih (fun other member => each other (List.mem_cons_of_mem _ member)) others) ?_
    intro kind isRead isFilled
    obtain ⟨other, member, inside⟩ := List.mem_flatMap.1 isFilled
    exact first other member kind isRead inside

end InTurn

/-- The drafts of different steps over the same nodes may come in any order. -/
theorem sequenced_steps {α : Type} {nodes : σ} {items : List α} (contexts : α → WiringContext σ)
    {filled read : List PseudoKind} {draft : α → Draft}
    (shared : ∀ item, (contexts item).nodes = nodes)
    (distinct : items.Pairwise fun one other => (contexts one).step ≠ (contexts other).step)
    (each : ∀ item ∈ items, (contexts item).InTurn filled read (draft item)) :
    Draft.Sequenced (items.flatMap draft) := by
  refine .flatMap (fun item member => (each item member).sequenced) (distinct.imp_of_mem ?_)
  intro one other inOne inOther differ c inFirst d inSecond isRead silent same
  rcases (each one inOne).ends c inFirst with ⟨fills, _⟩ | ⟨_, definition, ⟨known, here⟩, _⟩
  · exact isRead fills
  rcases (each other inOther).ends d inSecond with ⟨_, found, ⟨again, there⟩, _⟩ | ⟨reads, _⟩
  · rw [definition?, shared] at known again
    rw [same, known] at again
    cases again
    exact differ (here.symm.trans there)
  · exact reads silent

end

end WiringContext

/-! ## Families -/

namespace Family

/-- The kinds of pseudo-nodes that a family fills. -/
def filled : Family → List PseudoKind
  | .post => [.post]
  | .query => [.query]
  | .params => [.params]
  | .data => [.data]
  | .answer => [.answerLocal, .answerRemote]
  | .selfValue => []
  | .item => [.item]

/-- The kinds of pseudo-nodes that a family lets references read: those that it fills, and the local
answers if the references are to an enclosing field. -/
def read : Family → List PseudoKind
  | .selfValue => [.answerLocal]
  | family => family.filled

end Family

namespace WiringContext

section

variable {σ : Type} [NodeSource σ] {ctx : WiringContext σ}

/-- Every family in its turn: none fills what an earlier one lets references read. -/
theorem InTurn.families {draft : Family → Draft}
    (each : ∀ family, ctx.InTurn family.filled family.read (draft family)) :
    ctx.InTurn (Family.all.flatMap Family.filled) (Family.all.flatMap Family.read)
      (Family.all.flatMap draft) :=
  .flatMap (fun family _ => each family) (by decide)

/-- What is found by its key is a pseudo-node of the step. -/
def Locating (ctx : WiringContext σ) : Prop :=
  ∀ kind key id, ctx.find? kind key = some id →
    ∃ definition, ctx.Holds id definition ∧ definition.kind = kind

section

variable (locating : ctx.Locating)
include locating

theorem readsOne_of_found {kind : PseudoKind} {key : String} {id : NodeId}
    (found : ctx.find? kind key = some id) {family : Family} {space : Namespace}
    {readers : List NodeId} {c : Connection}
    (member : .ok c ∈ ctx.feed family id key space readers) :
    ctx.ReadsOne [kind] c := by
  obtain ⟨definition, held, rfl⟩ := locating kind key id found
  exact readsOne_of_feed held member

/-- A reference to the enclosing field reads a local answer. -/
theorem readsOne_of_self {reference : NodeId} {c : Connection}
    (member : .ok c ∈ SelfValue.reader ctx reference) : ctx.ReadsOne [.answerLocal] c := by
  rw [SelfValue.reader] at member
  split at member
  · split at member <;> simp at member
  · split at member
    · rename_i found
      exact readsOne_of_found locating found member
    · cases member

end

end

/-! ### The pass over a form -/

end WiringContext

/-- A store lists the pseudo-nodes of a kind once each. -/
theorem NodeStore.nodup_pseudoIds {store : NodeStore} (coherent : store.Coherent)
    (kind : PseudoKind) (scope : NodeId) : (store.pseudoIds kind scope).Nodup := by
  refine List.Nodup.sublist List.filter_sublist ?_
  rw [pseudoNodes, coherent.identities, List.Nodup, List.pairwise_map, List.pairwise_filterMap]
  refine (List.pairwise_map.1 coherent.nodup).imp fun {one other} differ entry own also others => ?_
  obtain ⟨_, _, rfl⟩ := Option.map_eq_some_iff.1 own
  obtain ⟨_, _, rfl⟩ := Option.map_eq_some_iff.1 others
  exact differ

namespace WiringContext

section

variable {ctx : WiringContext NodeStore} (coherent : ctx.nodes.Coherent)
include coherent

theorem locating_of_coherent : ctx.Locating := by
  intro kind key id found
  obtain ⟨definition, known, same⟩ := (find?_eq_some_iff coherent).1 found
  exact ⟨definition, ⟨known, congrArg PseudoKey.scope same⟩, congrArg PseudoKey.kind same⟩

/-- Pseudo-nodes of a kind come one after the other, each of them filled before it is read. -/
theorem inTurn_pseudos {kind : PseudoKind} {fills reads : NodeId → Pseudo → Draft}
    (filling : ∀ id definition, definition.kind = kind →
      fills id definition = ctx.producers id definition)
    (reading : ∀ id definition c, .ok c ∈ reads id definition →
      c.producer = id ∧ c.metadata.reference ≠ none) :
    ctx.InTurn [kind] [kind] ((ctx.pseudoIds kind).flatMap fun id =>
      Draft.after (ctx.pseudo id) fun definition =>
        fills id definition ++ reads id definition) := by
  -- What is drafted at a pseudo-node leads into it or comes from it.
  have known : ∀ id ∈ ctx.pseudoIds kind, ∃ definition, ctx.Holds id definition ∧
      definition.kind = kind ∧ ctx.pseudo id = .ok definition := by
    intro id listed
    obtain ⟨definition, known, isKind, here⟩ := (mem_pseudoIds_iff coherent).1 listed
    exact ⟨definition, ⟨known, here⟩, isKind, pseudo_of_definition? known⟩
  have ends : ∀ id ∈ ctx.pseudoIds kind, ∀ c,
      .ok c ∈ Draft.after (ctx.pseudo id) (fun definition =>
        fills id definition ++ reads id definition) →
      (c.consumer = id ∧ ctx.FillsOne [kind] c) ∨ (c.producer = id ∧ ctx.ReadsOne [kind] c) := by
    intro id listed c member
    obtain ⟨definition, held, isKind, same⟩ := known id listed
    rw [same] at member
    rcases List.mem_append.1 member with inFills | inReads
    · rw [filling id definition isKind] at inFills
      exact .inl ⟨ctx.producers_into id definition c inFills,
        isKind ▸ fillsOne_of_producers held inFills⟩
    · obtain ⟨leaves, isRead⟩ := reading id definition c inReads
      exact .inr ⟨leaves, isRead, definition, leaves ▸ held, List.mem_singleton.2 isKind⟩
  refine ⟨.flatMap (fun id listed => ?_) ?_, fun c member => ?_⟩
  · obtain ⟨definition, held, isKind, same⟩ := known id listed
    rw [same]
    refine .ofParts (fun c inFills => ?_) fun c inReads => (reading id definition c inReads).2
    rw [filling id definition isKind] at inFills
    exact reference_of_producers inFills
  · refine (ctx.nodes.nodup_pseudoIds coherent kind ctx.step).imp_of_mem ?_
    intro one other inOne inOther differ c inFirst d inSecond isRead silent same
    rcases ends one inOne c inFirst with ⟨_, fills, _⟩ | ⟨leaves, _⟩
    · exact isRead fills
    rcases ends other inOther d inSecond with ⟨leads, _⟩ | ⟨_, reads, _⟩
    · exact differ (leaves.symm.trans (same.symm.trans leads))
    · exact reads silent
  · obtain ⟨id, listed, inside⟩ := List.mem_flatMap.1 member
    exact (ends id listed c inside).imp And.right And.right

theorem inTurn_keyed {source : KeyedSource} (isSource : source ∈ KeyedSource.all) :
    ctx.InTurn [source.kind] [source.kind] (source.draft ctx) := by
  refine .after fun index _ => inTurn_pseudos coherent ?_ fun _ _ _ => ends_of_feed
  exact fun id definition isKind => (producers_of_keyed isSource isKind).symm

theorem inTurn_answer : ctx.InTurn [.answerLocal, .answerRemote] [.answerLocal, .answerRemote]
    (Answer.draft ctx) := by
  refine .after fun index _ => .append (inTurn_pseudos coherent ?_ fun _ _ _ => ends_of_feed)
    (inTurn_pseudos coherent ?_ fun id definition c member => ?_) (by decide)
  · intro id definition isKind
    rw [producers, isKind]
  · intro id definition isKind
    rw [producers, isKind]
  · split at member
    · cases member
    · exact ends_of_feed member

theorem inTurn_self : ctx.InTurn [] [.answerLocal] (SelfValue.draft ctx) := by
  refine .ofReads fun c member => ?_
  obtain ⟨entry, _, drafted⟩ := List.mem_flatMap.1 member
  exact readsOne_of_self (locating_of_coherent coherent) drafted

theorem inTurn_item : ctx.InTurn [.item] [.item] (Item.draft ctx) := by
  refine inTurn_pseudos coherent (fun id definition isKind => ?_) fun _ _ _ => ends_of_feed
  rw [producers, isKind]

theorem inTurn_family (family : Family) :
    ctx.InTurn family.filled family.read (family.draft ctx) := by
  cases family with
  | post => exact inTurn_keyed coherent (by decide : KeyedSource.post ∈ KeyedSource.all)
  | query => exact inTurn_keyed coherent (by decide : KeyedSource.query ∈ KeyedSource.all)
  | params => exact inTurn_keyed coherent (by decide : KeyedSource.params ∈ KeyedSource.all)
  | data => exact inTurn_keyed coherent (by decide : KeyedSource.data ∈ KeyedSource.all)
  | answer => exact inTurn_answer coherent
  | selfValue => exact inTurn_self coherent
  | item => exact inTurn_item coherent

/-- A step is wired in turn. -/
theorem inTurn_step : ctx.InTurn (Family.all.flatMap Family.filled)
    (Family.all.flatMap Family.read) (Pass.stepDraft ctx) := by
  have check : ctx.InTurn [] [] ctx.templateCheck := by
    refine .ofErrors fun c member => ?_
    obtain ⟨_, _, isError⟩ := List.mem_map.1 member
    cases isError
  exact check.append (.families (inTurn_family coherent)) nofun

end

end WiringContext

/-- **Wiring a form fills every pseudo-node before it lets references read it.** -/
theorem WiredForm.Registered.sequenced {form : Form} {config : WiringConfig} {wired : WiredForm}
    (registered : Registered form config wired) (coherent : form.nodes.Coherent) :
    wired.graph.connections.Pairwise InOrder := by
  have distinct : wired.scopes.steps.Nodup := by
    rw [Form.steps_eq registered.scopes]
    exact Form.nodup_steps coherent
  have drafted : Draft.Sequenced
      (Pass.formDraft wired.form.nodes wired.scopes wired.membership config) :=
    WiringContext.sequenced_steps (context wired config) (fun _ => rfl) distinct
      fun _ _ => WiringContext.inTurn_step (registered.coherent coherent)
  obtain ⟨new, applied, sublist⟩ := Draft.connections_applyTo
    (Pass.formDraft wired.form.nodes wired.scopes wired.membership config) .empty
  rw [registered.graph, applied]
  exact drafted.sublist sublist

/-! ## The pass over a batch -/

namespace WiringContext

section

variable {σ : Type} [NodeSource σ] {ctx : WiringContext σ}

theorem ok_mem_ofPseudo {kind : PseudoKind} {id : NodeId} {make : Pseudo → Draft} {c : Connection}
    (member : .ok c ∈ ctx.ofPseudo kind id make) : ∃ definition,
      ctx.definition? id = some definition ∧ definition.kind = kind ∧ .ok c ∈ make definition := by
  rw [ofPseudo_eq] at member
  split at member
  · rename_i definition known
    split at member
    · rename_i isKind
      exact ⟨definition, known, isKind, member⟩
    · cases member
  · cases member

theorem ok_mem_ofReference {space : Namespace} {id : NodeId} {make : Reference → Draft}
    {c : Connection} (member : .ok c ∈ ctx.ofReference space id make) :
    ∃ expression, ctx.expression? id = some expression ∧ .ok c ∈ make expression := by
  rw [ofReference] at member
  split at member
  · rename_i expression known
    split at member
    · exact ⟨expression, known, member⟩
    · cases member
  · cases member

theorem ok_mem_ofKey {space : Namespace} {id : NodeId} {make : NodeId × String → Draft}
    {c : Connection} (member : .ok c ∈ ctx.ofKey space id make) :
    ∃ expression key, ctx.expression? id = some expression ∧ .ok c ∈ make (id, key) := by
  obtain ⟨expression, known, inside⟩ := ok_mem_ofReference member
  obtain ⟨entry, keyed, made⟩ := Draft.ok_mem_after.1 inside
  rcases ctx.keyOf_eq_ok_iff.1 keyed with ⟨key, _, rfl⟩ | ⟨_, _, rfl⟩
  · exact ⟨expression, key, known, made⟩
  · cases made

end

section

variable {σ : Type} [NodeSource σ] [LawfulSource σ] {ctx : WiringContext σ} {batch : List NodeId}
  (placed : ∀ id ∈ batch, Pass.Placed ctx.nodes ctx.scopes ctx.step id)

section

include placed

omit [LawfulSource σ] in
theorem fillsOne_of_batch {kind : PseudoKind} {make : NodeId → Pseudo → Draft}
    (filling : ∀ id definition, definition.kind = kind →
      make id definition = ctx.producers id definition) {c : Connection}
    (member : .ok c ∈ batch.flatMap fun id => ctx.ofPseudo kind id (make id)) :
    ctx.FillsOne [kind] c := by
  obtain ⟨id, listed, inside⟩ := List.mem_flatMap.1 member
  obtain ⟨definition, known, isKind, made⟩ := ok_mem_ofPseudo inside
  have here := Option.some.inj
    ((owningStep?_of_definition? known).symm.trans (placed id listed).2.1)
  rw [filling id definition isKind] at made
  exact isKind ▸ fillsOne_of_producers ⟨known, here⟩ made

variable (locating : ctx.Locating)
include locating

theorem inTurn_batch_keyed {source : KeyedSource} (isSource : source ∈ KeyedSource.all)
    (succeeds : (source.draftBatch ctx batch).failure? = none) :
    ctx.InTurn [source.kind] [source.kind] (source.draftBatch ctx batch) := by
  rw [(source.draftBatch_matches fun id member => (placed id member).1).2 succeeds]
  refine .ofParts (fun c member => ?_) fun c member => ?_
  · exact fillsOne_of_batch placed
      (fun id definition isKind => (producers_of_keyed isSource isKind).symm) member
  · obtain ⟨id, _, inside⟩ := List.mem_flatMap.1 member
    obtain ⟨_, key, _, made⟩ := ok_mem_ofKey inside
    rw [KeyedSource.reader] at made
    split at made
    · rename_i found
      exact readsOne_of_found locating found made
    · cases made

theorem inTurn_batch_answer (succeeds : (Answer.draftBatch ctx batch).failure? = none) :
    ctx.InTurn [.answerLocal, .answerRemote] [.answerLocal, .answerRemote]
      (Answer.draftBatch ctx batch) := by
  rw [(Answer.draftBatch_matches fun id member => (placed id member).1).2 succeeds,
    ← List.append_assoc]
  refine .ofParts (fun c member => ?_) fun c member => ?_
  · rcases List.mem_append.1 member with near | far
    · refine (fillsOne_of_batch placed (fun id definition isKind => ?_) near).mono (by decide)
      rw [producers, isKind]
    · refine (fillsOne_of_batch placed (fun id definition isKind => ?_) far).mono (by decide)
      rw [producers, isKind]
  · obtain ⟨id, _, inside⟩ := List.mem_flatMap.1 member
    obtain ⟨_, key, _, made⟩ := ok_mem_ofKey inside
    rw [Answer.reader] at made
    split at made
    · rename_i answer found
      rw [Answer.target?] at found
      cases near : ctx.find? .answerLocal key with
      | some other =>
        obtain rfl : other = answer := by simpa [near] using found
        exact (readsOne_of_found locating near made).mono (by decide)
      | none =>
        have far : ctx.find? .answerRemote key = some answer := by simpa [near] using found
        exact (readsOne_of_found locating far made).mono (by decide)
    · cases made

omit [LawfulSource σ] in
theorem inTurn_batch_self : ctx.InTurn [] [.answerLocal] (SelfValue.draftBatch ctx batch) := by
  rw [SelfValue.draftBatch_eq fun id member => (placed id member).1]
  refine .ofReads fun c member => ?_
  obtain ⟨id, _, inside⟩ := List.mem_flatMap.1 member
  obtain ⟨_, _, made⟩ := ok_mem_ofReference inside
  exact readsOne_of_self locating made

theorem inTurn_batch_item : ctx.InTurn [.item] [.item] (Item.draftBatch ctx batch) := by
  rw [Item.draftBatch_eq fun id member => (placed id member).1]
  refine .ofParts (fun c member => ?_) fun c member => ?_
  · refine fillsOne_of_batch placed (fun id definition isKind => ?_) member
    rw [producers, isKind]
  · obtain ⟨id, _, inside⟩ := List.mem_flatMap.1 member
    obtain ⟨_, _, made⟩ := ok_mem_ofReference inside
    rw [Item.reader] at made
    split at made
    · cases made
    · split at made
      · rename_i found
        exact readsOne_of_found locating found made
      · cases made

/-- A family wires a batch in turn: first it fills the pseudo-nodes of the batch, then it looks at
the references. -/
theorem inTurn_batch (family : Family) (succeeds : (family.draftBatch ctx batch).failure? = none) :
    ctx.InTurn family.filled family.read (family.draftBatch ctx batch) := by
  have keyed : ∀ {source : KeyedSource}, source ∈ KeyedSource.all →
      (source.draftBatch ctx batch).failure? = none →
        ctx.InTurn [source.kind] [source.kind] (source.draftBatch ctx batch) :=
    inTurn_batch_keyed placed locating
  cases family with
  | post => exact keyed (by decide : KeyedSource.post ∈ KeyedSource.all) succeeds
  | query => exact keyed (by decide : KeyedSource.query ∈ KeyedSource.all) succeeds
  | params => exact keyed (by decide : KeyedSource.params ∈ KeyedSource.all) succeeds
  | data => exact keyed (by decide : KeyedSource.data ∈ KeyedSource.all) succeeds
  | answer => exact inTurn_batch_answer placed locating succeeds
  | selfValue => exact inTurn_batch_self placed locating
  | item => exact inTurn_batch_item placed locating

end

end

end WiringContext

namespace Pass

theorem map_fst_addToGroup (groups : List (NodeId × List NodeId)) (entry : NodeId × NodeId) :
    (addToGroup groups entry).map Prod.fst =
      if entry.1 ∈ groups.map Prod.fst then groups.map Prod.fst
      else groups.map Prod.fst ++ [entry.1] := by
  induction groups with
  | nil => rfl
  | cons group rest ih =>
    rw [addToGroup]
    by_cases same : group.1 = entry.1
    · simp [same]
    · rw [if_neg same, List.map_cons, ih]
      simp only [List.map_cons, List.mem_cons, Ne.symm same, false_or]
      split <;> rfl

/-- A batch has one group for each step. -/
theorem nodup_groupByStep {σ : Type} [NodeSource σ] {nodes : σ} {scopes : ScopeTree}
    {batch : List NodeId} {groups : List (NodeId × List NodeId)}
    (grouped : groupByStep nodes scopes batch = .ok groups) : (groups.map Prod.fst).Nodup := by
  obtain ⟨placed, _, same⟩ := Except.bind_eq_ok_iff.1 grouped
  cases same
  refine List.foldlRecOn (motive := fun groups => (groups.map Prod.fst).Nodup) placed addToGroup
    (show ([].map Prod.fst).Nodup from List.nodup_nil) fun groups distinct entry _ => ?_
  rw [map_fst_addToGroup]
  split
  · exact distinct
  · rename_i absent
    refine List.nodup_append.2 ⟨distinct, List.pairwise_singleton .., ?_⟩
    rintro step known other added rfl
    exact absent (List.mem_singleton.1 added ▸ known)

variable {σ : Type} [NodeSource σ] [LawfulSource σ] {nodes : σ} {scopes : ScopeTree}
  {config : WiringConfig}

/-- **Wiring a batch fills its pseudo-nodes before it lets references read them.** What it adds to
a graph is in order. -/
theorem sequenced_wireNodes {batch : List NodeId} {graph : DependencyGraph} {report : WiringReport}
    (locating : ∀ step, (⟨nodes, scopes, .none, step, config⟩ : WiringContext σ).Locating)
    (reports : (wireNodes nodes scopes config batch graph).report = .ok report) :
    ∃ new : List (Triple × EdgeMetadata),
      (wireNodes nodes scopes config batch graph).graph.connections = graph.connections ++ new ∧
        new.Pairwise InOrder := by
  rw [wireNodes] at reports ⊢
  split at reports
  · cases reports
  rename_i groups grouped
  have succeeds := PassResult.report_ofDraft_eq_ok_iff.1 ⟨report, reports⟩
  have drafted : Draft.Sequenced (groups.flatMap (groupDraft nodes scopes config)) := by
    refine WiringContext.sequenced_steps (fun group => ⟨nodes, scopes, .none, group.1, config⟩)
      (fun _ => rfl) ?_ fun group member => .families fun family => ?_
    · exact List.pairwise_map.1 (nodup_groupByStep grouped)
    have silent := Draft.failure?_flatMap.1 (Draft.failure?_flatMap.1 succeeds group member) family
      (by cases family <;> decide)
    refine WiringContext.inTurn_batch (fun id inside => ?_) (locating group.1) family silent
    exact ((inGroup_groupByStep grouped).1 ⟨group.2, member, inside⟩).2
  obtain ⟨new, applied, sublist⟩ := Draft.connections_applyTo
    (groups.flatMap (groupDraft nodes scopes config)) graph
  exact ⟨new, by rw [PassResult.graph_ofDraft, applied], drafted.sublist sublist⟩

end Pass

end FormFlow
