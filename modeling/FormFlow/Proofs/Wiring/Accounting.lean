import Mathlib
import FormFlow.Proofs.Wiring.Result
import FormFlow.Proofs.Wiring.Sequence

/-!
# What a report counts

A report counts the connections of a pass that were new, by the family that asked for them and by
what they are for. Neither is kept in the graph, where an edge has only its two ends and its
metadata. The counts can be had from there all the same (`WiringReport.Accounts`): a connection that
fills something leads into a pseudo-node of a kind of its family, and every other one leads into a
reference and names the namespace of its family (`Connection.Counted`).

Every family drafts only such connections, in the pass over a form (`Pass.counted_stepDraft`) and
in the pass over a batch (`Pass.counted_groupDraft`). As each new one has become an edge, the
report of either pass accounts for the edges that the pass has added
(`WiringReport.Accounts.ofConnections`).
-/

set_option autoImplicit false

namespace FormFlow

open NodeSource

/-- The namespace through which a family lets references read. -/
def Family.space : Family → Namespace
  | .post => .post
  | .query => .query
  | .params => .params
  | .data => .data
  | .answer => .answers
  | .selfValue => .selfValue
  | .item => .item

theorem Family.space_inj {one other : Family} (same : one.space = other.space) : one = other := by
  cases one <;> cases other <;> first | rfl | cases same

theorem PseudoKind.mem_filled_iff {kind : PseudoKind} {family : Family} :
    kind ∈ family.filled ↔ kind.family = family := by
  cases kind <;> cases family <;> decide

/-! ## Edges and reports -/

namespace Edge

variable {σ : Type} [NodeSource σ]

/-- The pseudo-node that an edge leads into, if it leads into one. -/
def pseudo? (nodes : σ) (edge : Edge) : Option Pseudo :=
  (node? nodes edge.consumer).bind fun node => node.kind.pseudo?

/-- The reference that an edge leads into, if it leads into one. -/
def reference? (nodes : σ) (edge : Edge) : Option Reference :=
  (node? nodes edge.consumer).bind fun node => node.kind.reference?

/-- Whether an edge leads into a pseudo-node of a kind of a family. -/
def fills (nodes : σ) (family : Family) (edge : Edge) : Bool :=
  (edge.pseudo? nodes).any fun definition => family.filled.contains definition.kind

/-- Whether an edge leads into a reference and names the namespace of a family. -/
def feeds (nodes : σ) (family : Family) (edge : Edge) : Bool :=
  (edge.reference? nodes).isSome && edge.metadata.reference == some family.space

end Edge

namespace WiringReport

/-- The producers that all families have counted. -/
def producers (report : WiringReport) : Nat :=
  (report.families.map fun entry => entry.2.producers).sum

/-- The consumers that all families have counted. -/
def consumers (report : WiringReport) : Nat :=
  (report.families.map fun entry => entry.2.consumers).sum

/-- What a family has counted, which is nothing if it did not run. -/
def stats (report : WiringReport) (family : Family) : WireStats :=
  (report.families.lookup family).getD ⟨0, 0⟩

theorem edges_eq (report : WiringReport) : report.edges = report.producers + report.consumers := by
  rw [edges, ← List.sum_eq_foldl, producers, consumers]
  exact List.sum_map_add

/-- A report accounts for edges. All producers are the edges into pseudo-nodes and all consumers
the edges into references, and there are no other edges. The producers of a family are the edges
into pseudo-nodes of its kinds, its consumers the edges into references that name its namespace.
No family is listed twice. -/
structure Accounts {σ : Type} [NodeSource σ] (report : WiringReport) (nodes : σ)
    (edges : List Edge) : Prop where
  producers : report.producers = edges.countP fun edge => (edge.pseudo? nodes).isSome
  consumers : report.consumers = edges.countP fun edge => (edge.reference? nodes).isSome
  total : report.edges = edges.length
  families : ∀ family, report.stats family =
    ⟨edges.countP (Edge.fills nodes family), edges.countP (Edge.feeds nodes family)⟩
  once : (report.families.map Prod.fst).Nodup

end WiringReport

/-! ## Connections that lead to where they are counted -/

/-- A connection leads to where it is counted: it fills a pseudo-node of a kind of its family, or it
lets a reference read through the namespace of its family. -/
inductive Connection.Counted {σ : Type} [NodeSource σ] (nodes : σ) (c : Connection) : Prop
  | fills (definition : Pseudo) (property : String)
      (held : (node? nodes c.consumer).bind (fun node => node.kind.pseudo?) = some definition)
      (kind : definition.kind.family = c.family) (purpose : c.purpose = .fills property)
  | reads (expression : Reference)
      (known : (node? nodes c.consumer).bind (fun node => node.kind.reference?) = some expression)
      (purpose : c.purpose = .reads c.family.space)

namespace WiringContext

section

variable {σ : Type} [NodeSource σ] {ctx : WiringContext σ} {c : Connection}

theorem counted_of_producers {id : NodeId} {definition : Pseudo}
    (held : ctx.definition? id = some definition) (member : .ok c ∈ ctx.producers id definition) :
    c.Counted ctx.nodes := by
  obtain ⟨family, property, purpose⟩ := filled_of_producers member
  have leads : c.consumer = id := ctx.producers_into id definition c member
  subst leads
  exact .fills definition property held family.symm purpose

theorem counted_of_feed {family : Family} {id : NodeId} {key : String} {space : Namespace}
    {readers : List NodeId} (own : space = family.space)
    (known : ∀ reader ∈ readers, ∃ expression, ctx.expression? reader = some expression)
    (member : .ok c ∈ ctx.feed family id key space readers) : c.Counted ctx.nodes := by
  obtain ⟨inside, same⟩ := ok_mem_feed.1 member
  obtain ⟨expression, found⟩ := known _ inside
  refine .reads expression found ?_
  rw [same, own]

/-- A connection to one reference. -/
theorem counted_of_reader {family : Family} {id reference : NodeId} {key : String}
    {space : Namespace} (own : space = family.space) {expression : Reference}
    (known : ctx.expression? reference = some expression)
    (member : .ok c ∈ ctx.feed family id key space [reference]) : c.Counted ctx.nodes :=
  counted_of_feed own (fun _ inside => ⟨expression, List.mem_singleton.1 inside ▸ known⟩) member

theorem counted_of_self {reference : NodeId} {expression : Reference}
    (known : ctx.expression? reference = some expression)
    (member : .ok c ∈ SelfValue.reader ctx reference) : c.Counted ctx.nodes := by
  rw [SelfValue.reader] at member
  split at member
  · split at member <;> simp at member
  · split at member
    · exact counted_of_reader rfl known member
    · cases member

theorem counted_of_item {reference : NodeId} {expression : Reference}
    (known : ctx.expression? reference = some expression)
    (member : .ok c ∈ Item.reader ctx reference) : c.Counted ctx.nodes := by
  rw [Item.reader] at member
  split at member
  · cases member
  · split at member
    · exact counted_of_reader rfl known member
    · cases member

omit [NodeSource σ] in
theorem space_of_keyed {source : KeyedSource} (isSource : source ∈ KeyedSource.all) :
    source.kind.reads = source.family.space := by
  simp only [KeyedSource.all, List.mem_cons, List.not_mem_nil, or_false] at isSource
  rcases isSource with rfl | rfl | rfl | rfl <;> rfl

end

/-! ### The pass over a form -/

section

variable {ctx : WiringContext NodeStore} (coherent : ctx.nodes.Coherent) {c : Connection}
include coherent

/-- What fills the pseudo-nodes of a kind and feeds them to the references with their keys. -/
theorem counted_of_pseudos {kind : PseudoKind} (family : Family) (readers : Pseudo → List NodeId)
    {fills reads : NodeId → Pseudo → Draft}
    (filling : ∀ id definition, definition.kind = kind →
      fills id definition = ctx.producers id definition)
    (reading : ∀ id definition, reads id definition ⊆
      ctx.feed family id definition.key family.space (readers definition))
    (known : ∀ definition, ∀ reader ∈ readers definition, ∃ expression,
      ctx.expression? reader = some expression)
    (member : .ok c ∈ (ctx.pseudoIds kind).flatMap fun id =>
      Draft.after (ctx.pseudo id) fun definition => fills id definition ++ reads id definition) :
    c.Counted ctx.nodes := by
  obtain ⟨id, definition, held, isKind, drafted⟩ := (mem_pseudos_iff coherent).1 member
  rcases List.mem_append.1 drafted with filled | fed
  · rw [filling id definition isKind] at filled
    exact counted_of_producers held.1 filled
  · exact counted_of_feed rfl (known definition) (reading id definition fed)

theorem counted_keyed {source : KeyedSource} (isSource : source ∈ KeyedSource.all)
    (member : .ok c ∈ source.draft ctx) : c.Counted ctx.nodes := by
  obtain ⟨index, built, member⟩ := Draft.ok_mem_after.1 member
  refine counted_of_pseudos coherent source.family (fun definition => index.get definition.key)
    (fun id definition isKind => (producers_of_keyed isSource isKind).symm)
    (fun id definition => ?_) (fun definition reader inside => ?_) member
  · rw [space_of_keyed isSource]
    exact List.Subset.refl _
  · obtain ⟨expression, known, _⟩ := read_of_index built _ reader inside
    exact ⟨expression, known⟩

theorem counted_answer (member : .ok c ∈ Answer.draft ctx) : c.Counted ctx.nodes := by
  obtain ⟨index, built, member⟩ := Draft.ok_mem_after.1 member
  have known : ∀ definition : Pseudo, ∀ reader ∈ index.get definition.key, ∃ expression,
      ctx.expression? reader = some expression := by
    intro definition reader inside
    obtain ⟨expression, known, _⟩ := read_of_index built _ reader inside
    exact ⟨expression, known⟩
  rcases List.mem_append.1 member with near | far
  · refine counted_of_pseudos coherent .answer _ (fun id definition isKind => ?_)
      (fun id definition => List.Subset.refl _) known near
    rw [producers, isKind]
  · refine counted_of_pseudos coherent .answer _ (fun id definition isKind => ?_)
      (fun id definition => ?_) known far
    · rw [producers, isKind]
    · split
      · exact List.nil_subset _
      · exact List.Subset.refl _

theorem counted_items (member : .ok c ∈ Item.draft ctx) : c.Counted ctx.nodes := by
  refine counted_of_pseudos coherent .item _ (fun id definition isKind => ?_)
    (fun id definition => List.Subset.refl _) (fun definition reader inside => ?_) member
  · rw [producers, isKind]
  · obtain ⟨⟨id, expression⟩, listed, keyed⟩ :=
      List.mem_filterMap.1 (ReferenceIndex.mem_get_ofKeys.1 inside)
    obtain ⟨key, _, pair⟩ := Option.map_eq_some_iff.1 keyed
    cases pair
    exact ⟨expression, (mem_selecting_iff.1 listed).2.1⟩

theorem counted_family (family : Family) (member : .ok c ∈ family.draft ctx) :
    c.Counted ctx.nodes := by
  cases family with
  | post => exact counted_keyed coherent (by decide : KeyedSource.post ∈ KeyedSource.all) member
  | query => exact counted_keyed coherent (by decide : KeyedSource.query ∈ KeyedSource.all) member
  | params => exact counted_keyed coherent (by decide : KeyedSource.params ∈ KeyedSource.all) member
  | data => exact counted_keyed coherent (by decide : KeyedSource.data ∈ KeyedSource.all) member
  | answer => exact counted_answer coherent member
  | selfValue =>
    obtain ⟨⟨id, expression⟩, listed, drafted⟩ := List.mem_flatMap.1 member
    exact counted_of_self (mem_selecting_iff.1 listed).2.1 drafted
  | item => exact counted_items coherent member

/-- The connections of a step lead to where they are counted. -/
theorem counted_step (member : .ok c ∈ Pass.stepDraft ctx) : c.Counted ctx.nodes := by
  rcases List.mem_append.1 member with check | families
  · obtain ⟨_, _, isError⟩ := List.mem_map.1 check
    cases isError
  · obtain ⟨family, _, drafted⟩ := List.mem_flatMap.1 families
    exact counted_family coherent family drafted

end

/-! ### The pass over a batch -/

section

variable {σ : Type} [NodeSource σ] [LawfulSource σ] {ctx : WiringContext σ} {batch : List NodeId}
  {c : Connection}

omit [LawfulSource σ] in
theorem counted_of_batch {kind : PseudoKind} {make : NodeId → Pseudo → Draft}
    (filling : ∀ id definition, definition.kind = kind →
      make id definition = ctx.producers id definition)
    (member : .ok c ∈ batch.flatMap fun id => ctx.ofPseudo kind id (make id)) :
    c.Counted ctx.nodes := by
  obtain ⟨id, _, inside⟩ := List.mem_flatMap.1 member
  obtain ⟨definition, known, isKind, made⟩ := ok_mem_ofPseudo inside
  rw [filling id definition isKind] at made
  exact counted_of_producers known made

variable (there : ∀ id ∈ batch, ∃ node, node? ctx.nodes id = some node)
include there

theorem counted_batch_keyed {source : KeyedSource} (isSource : source ∈ KeyedSource.all)
    (succeeds : (source.draftBatch ctx batch).failure? = none)
    (member : .ok c ∈ source.draftBatch ctx batch) : c.Counted ctx.nodes := by
  rw [(source.draftBatch_matches there).2 succeeds] at member
  rcases List.mem_append.1 member with filled | read
  · exact counted_of_batch
      (fun id definition isKind => (producers_of_keyed isSource isKind).symm) filled
  · obtain ⟨id, _, inside⟩ := List.mem_flatMap.1 read
    obtain ⟨expression, key, known, made⟩ := ok_mem_ofKey inside
    rw [KeyedSource.reader] at made
    split at made
    · exact counted_of_reader (space_of_keyed isSource) known made
    · cases made

theorem counted_batch_answer (succeeds : (Answer.draftBatch ctx batch).failure? = none)
    (member : .ok c ∈ Answer.draftBatch ctx batch) : c.Counted ctx.nodes := by
  rw [(Answer.draftBatch_matches there).2 succeeds] at member
  rcases List.mem_append.1 member with near | member
  · refine counted_of_batch (fun id definition isKind => ?_) near
    rw [producers, isKind]
  rcases List.mem_append.1 member with far | read
  · refine counted_of_batch (fun id definition isKind => ?_) far
    rw [producers, isKind]
  · obtain ⟨id, _, inside⟩ := List.mem_flatMap.1 read
    obtain ⟨expression, key, known, made⟩ := ok_mem_ofKey inside
    rw [Answer.reader] at made
    split at made
    · exact counted_of_reader rfl known made
    · cases made

/-- The connections of a family for a batch lead to where they are counted. -/
theorem counted_batch (family : Family) (succeeds : (family.draftBatch ctx batch).failure? = none)
    (member : .ok c ∈ family.draftBatch ctx batch) : c.Counted ctx.nodes := by
  have keyed : ∀ {source : KeyedSource}, source ∈ KeyedSource.all →
      (source.draftBatch ctx batch).failure? = none → .ok c ∈ source.draftBatch ctx batch →
        c.Counted ctx.nodes := counted_batch_keyed there
  cases family with
  | post => exact keyed (by decide : KeyedSource.post ∈ KeyedSource.all) succeeds member
  | query => exact keyed (by decide : KeyedSource.query ∈ KeyedSource.all) succeeds member
  | params => exact keyed (by decide : KeyedSource.params ∈ KeyedSource.all) succeeds member
  | data => exact keyed (by decide : KeyedSource.data ∈ KeyedSource.all) succeeds member
  | answer => exact counted_batch_answer there succeeds member
  | selfValue =>
    change .ok c ∈ SelfValue.draftBatch ctx batch at member
    rw [SelfValue.draftBatch_eq there] at member
    obtain ⟨id, _, inside⟩ := List.mem_flatMap.1 member
    obtain ⟨expression, known, made⟩ := ok_mem_ofReference inside
    exact counted_of_self known made
  | item =>
    change .ok c ∈ Item.draftBatch ctx batch at member
    rw [Item.draftBatch_eq there] at member
    rcases List.mem_append.1 member with filled | read
    · refine counted_of_batch (fun id definition isKind => ?_) filled
      rw [producers, isKind]
    · obtain ⟨id, _, inside⟩ := List.mem_flatMap.1 read
      obtain ⟨expression, known, made⟩ := ok_mem_ofReference inside
      exact counted_of_item known made

end

end WiringContext

/-! ## Reports -/

section

variable {σ : Type} [NodeSource σ] {nodes : σ}

/-- What the edge of a connection shows of how the connection is counted. -/
theorem Connection.Counted.shown {c : Connection} (counted : c.Counted nodes) {edge : Edge}
    (same : (edge.triple, edge.metadata) = (c.triple, c.metadata)) (family : Family) :
    (edge.pseudo? nodes).isSome = c.isProducer ∧
      (edge.reference? nodes).isSome = !c.isProducer ∧
      edge.fills nodes family = (c.isProducer && decide (c.family = family)) ∧
      edge.feeds nodes family = (!c.isProducer && decide (c.family = family)) := by
  obtain ⟨triple, carried⟩ := Prod.mk.inj same
  have consumer : edge.consumer = c.consumer := congrArg Triple.consumer triple
  rw [Edge.fills, Edge.feeds, Edge.pseudo?, Edge.reference?, consumer, carried,
    Connection.isProducer, Connection.metadata]
  cases counted with
  | fills definition property held kind purpose =>
    obtain ⟨node, found, isPseudo⟩ := Option.bind_eq_some_iff.1 held
    have noReference : node.kind.reference? = none := by
      rw [NodeKind.pseudo?_eq_some_iff.1 isPseudo]
      rfl
    have own : family.filled.contains definition.kind = decide (c.family = family) := by
      rw [Bool.eq_iff_iff, List.contains_iff_mem, PseudoKind.mem_filled_iff, decide_eq_true_iff,
        kind]
    rw [purpose, held, found, Option.bind_some, noReference, Option.any_some, own]
    exact ⟨rfl, rfl, rfl, rfl⟩
  | reads expression known purpose =>
    obtain ⟨node, found, isReference⟩ := Option.bind_eq_some_iff.1 known
    have noPseudo : node.kind.pseudo? = none := by
      rw [NodeKind.reference?_eq_some_iff.1 isReference]
      rfl
    have own : (some c.family.space == some family.space) = decide (c.family = family) := by
      rw [Bool.eq_iff_iff, beq_iff_eq, decide_eq_true_iff, Option.some.injEq]
      exact ⟨Family.space_inj, congrArg Family.space⟩
    rw [purpose, known, found, Option.bind_some, noPseudo]
    exact ⟨rfl, rfl, rfl, congrArg (true && ·) own⟩

/-- Edges are counted as the connections that they were made for. -/
theorem countP_of_connections {edges : List Edge} {added : List Connection}
    (same : edges.map (fun edge => (edge.triple, edge.metadata)) =
      added.map fun c => (c.triple, c.metadata))
    {test : Edge → Bool} {asked : Connection → Bool}
    (shown : ∀ edge, ∀ c ∈ added, (edge.triple, edge.metadata) = (c.triple, c.metadata) →
      test edge = asked c) : edges.countP test = added.countP asked := by
  induction edges generalizing added with
  | nil =>
    rw [List.map_eq_nil_iff.1 same.symm]
    rfl
  | cons edge rest ih =>
    cases added with
    | nil => cases same
    | cons c others =>
      obtain ⟨first, later⟩ := List.cons.inj same
      rw [List.countP_cons, List.countP_cons, shown edge c (List.mem_cons_self ..) first,
        ih later fun edge c member => shown edge c (List.mem_cons_of_mem _ member)]

end

/-- Every connection is counted in one family. -/
theorem Family.sum_countP (added : List Connection) (test : Connection → Bool) :
    (Family.all.map fun family =>
      (added.filter fun c => c.family = family).countP test).sum = added.countP test := by
  induction added with
  | nil => rfl
  | cons c rest ih =>
    have first : ∀ family : Family,
        ((c :: rest).filter fun c => c.family = family).countP test =
          (rest.filter fun c => c.family = family).countP test +
            if c.family = family ∧ test c = true then 1 else 0 := by
      intro family
      by_cases own : c.family = family
      · simp [own, List.countP_cons]
      · simp [own]
    simp only [first]
    rw [List.sum_map_add, ih, List.countP_cons]
    congr 1
    cases c.family <;> cases test c <;> rfl

namespace WireStats

theorem ofConnections_eq (added : List Connection) : ofConnections added =
    ⟨added.countP Connection.isProducer, added.countP fun c => !c.isProducer⟩ := by
  rw [ofConnections, List.countP_eq_length_filter, List.countP_eq_length_filter]

end WireStats

namespace WiringReport

section

variable {steps : Nat} {added : List Connection} (idle : steps = 0 → added = [])
include idle

/-- Where no step is wired there is nothing to count, so it is as if all families had run. -/
theorem sum_ofConnections (count : WireStats → Nat) (zero : count ⟨0, 0⟩ = 0) :
    ((ofConnections steps added).families.map fun entry => count entry.2).sum =
      (Family.all.map fun family =>
        count (.ofConnections (added.filter fun c => c.family = family))).sum := by
  rw [ofConnections]
  dsimp only
  split
  · rename_i none
    rw [idle none]
    simp [WireStats.ofConnections, zero]
  · rw [List.map_map]
    rfl

theorem producers_ofConnections :
    (ofConnections steps added).producers = added.countP Connection.isProducer := by
  rw [producers, sum_ofConnections idle WireStats.producers rfl]
  simp only [WireStats.ofConnections_eq]
  exact Family.sum_countP added _

theorem consumers_ofConnections :
    (ofConnections steps added).consumers = added.countP fun c => !c.isProducer := by
  rw [consumers, sum_ofConnections idle WireStats.consumers rfl]
  simp only [WireStats.ofConnections_eq]
  exact Family.sum_countP added _

theorem stats_ofConnections (family : Family) :
    (ofConnections steps added).stats family =
      .ofConnections (added.filter fun c => c.family = family) := by
  rw [stats, ofConnections]
  dsimp only
  split
  · rename_i none
    rw [idle none]
    rfl
  · cases family <;> rfl

/-- **The report of a pass accounts for the edges that its connections have become.** -/
theorem Accounts.ofConnections {σ : Type} [NodeSource σ] {nodes : σ} {edges : List Edge}
    (same : edges.map (fun edge => (edge.triple, edge.metadata)) =
      added.map fun c => (c.triple, c.metadata))
    (counted : ∀ c ∈ added, c.Counted nodes) :
    (WiringReport.ofConnections steps added).Accounts nodes edges where
  producers := by
    rw [producers_ofConnections idle]
    exact (countP_of_connections same fun edge c member shows =>
      ((counted c member).shown shows .post).1).symm
  consumers := by
    rw [consumers_ofConnections idle]
    exact (countP_of_connections same fun edge c member shows =>
      ((counted c member).shown shows .post).2.1).symm
  total := by
    have lengths := congrArg List.length same
    rw [List.length_map, List.length_map] at lengths
    rw [edges_eq, producers_ofConnections idle, consumers_ofConnections idle, lengths]
    simpa using (List.length_eq_countP_add_countP Connection.isProducer (l := added)).symm
  families := fun family => by
    rw [stats_ofConnections idle, WireStats.ofConnections_eq, List.countP_filter,
      List.countP_filter]
    congr 1
    · exact (countP_of_connections same fun edge c member shows =>
        ((counted c member).shown shows family).2.2.1).symm
    · exact (countP_of_connections same fun edge c member shows =>
        ((counted c member).shown shows family).2.2.2).symm
  once := by
    rw [WiringReport.ofConnections]
    dsimp only
    split
    · exact List.nodup_nil
    · exact (by decide : Family.all.Nodup)

end

end WiringReport

/-! ## Passes -/

namespace PassResult

/-- A pass that does not fail reports what was new. -/
theorem report_of_silent {steps : Nat} {draft : Draft} {graph : DependencyGraph}
    (silent : draft.failure? = none) : (ofDraft steps draft graph).report =
      .ok (.ofConnections steps (draft.applyTo graph).added) := by
  simp only [ofDraft, Draft.failure_applyTo, silent]

/-- The report of a pass accounts for the edges that the pass has added. -/
theorem exists_accounts {σ : Type} [NodeSource σ] {nodes : σ} {α : Type} {items : List α}
    {draft : α → Draft} {graph : DependencyGraph} {report : WiringReport}
    (reports : (ofDraft items.length (items.flatMap draft) graph).report = .ok report)
    (counted : ∀ item ∈ items, ∀ c, .ok c ∈ draft item → c.Counted nodes) :
    ∃ new, (ofDraft items.length (items.flatMap draft) graph).graph.edges = graph.edges ++ new ∧
      report.Accounts nodes new := by
  rw [report_of_silent (report_ofDraft_eq_ok_iff.1 ⟨report, reports⟩)] at reports
  cases reports
  obtain ⟨new, applied⟩ := Draft.exists_applyTo (items.flatMap draft) graph
  refine ⟨new, by rw [graph_ofDraft, applied], .ofConnections ?_ ?_ ?_⟩
  · intro none
    rw [List.length_eq_zero_iff.1 none]
    rfl
  · have both := Draft.connections_added (items.flatMap draft) graph
    rw [applied, DependencyGraph.connections, List.map_append] at both
    exact List.append_cancel_left both
  · intro c member
    have asked := (Draft.added_sublist (items.flatMap draft) graph).subset
      (List.mem_map_of_mem (f := Except.ok) member)
    obtain ⟨item, listed, inside⟩ := List.mem_flatMap.1 asked
    exact counted item listed c inside

end PassResult

/-- The report of a form accounts for its edges. -/
theorem WiredForm.accounts_of_wire {form : Form} {config : WiringConfig} {wired : WiredForm}
    (coherent : form.nodes.Coherent) (wiring : wire form config = .ok wired) :
    wired.report.Accounts wired.form.nodes wired.graph.edges ∧
      wired.form.nodes.nodes.length = form.nodes.nodes.length + wired.report.pseudoNodes := by
  obtain ⟨scopes, _, silent, rfl⟩ := (wire_eq_ok_iff coherent).1 wiring
  have reports : (PassResult.ofDraft scopes.steps.length (form.draft scopes config) .empty).report =
      .ok _ := PassResult.report_of_silent silent
  have whole : form.furnished.Coherent := Form.furnished_coherent coherent
  have counted : ∀ step ∈ scopes.steps, ∀ c,
      .ok c ∈ Pass.stepDraft (form.context scopes config step) → c.Counted form.furnished :=
    fun _ _ _ inside => WiringContext.counted_step whole inside
  obtain ⟨new, edges, accounts⟩ := PassResult.exists_accounts reports counted
  obtain ⟨made, appends, number⟩ := form.furnished_appends
  rw [PassResult.graph_ofDraft] at edges
  refine ⟨?_, ?_⟩
  · rw [← show _ = new from edges] at accounts
    exact { accounts with }
  · change form.furnished.nodes.length = form.nodes.nodes.length + form.madeCount
    rw [appends.nodes, List.length_append, number]

/-- The report of a batch accounts for the edges that were added for it. -/
theorem Pass.accounts_of_wireNodes {σ : Type} [NodeSource σ] [LawfulSource σ] {nodes : σ}
    {scopes : ScopeTree} {config : WiringConfig} {batch : List NodeId} {graph : DependencyGraph}
    {report : WiringReport}
    (reports : (wireNodes nodes scopes config batch graph).report = .ok report) :
    ∃ new, (wireNodes nodes scopes config batch graph).graph.edges = graph.edges ++ new ∧
      report.Accounts nodes new := by
  rw [wireNodes] at reports ⊢
  split at reports
  · cases reports
  rename_i groups grouped
  have succeeds := PassResult.report_ofDraft_eq_ok_iff.1 ⟨report, reports⟩
  refine PassResult.exists_accounts reports fun group member c inside => ?_
  obtain ⟨family, listed, drafted⟩ := List.mem_flatMap.1 inside
  have silent := Draft.failure?_flatMap.1 (Draft.failure?_flatMap.1 succeeds group member) family
    listed
  refine WiringContext.counted_batch (fun id known => ?_) family silent drafted
  exact ((inGroup_groupByStep grouped).1 ⟨group.2, member, known⟩).2.1

end FormFlow
