import FormFlow.Proofs.Wiring.Single

/-!
# Wiring a batch of nodes

Wiring a batch is asking its nodes one by one. Up to the place of a failure, the draft of a
family for a batch is what the nodes of the batch ask for, producers first and readers after
them (`Family.draftBatch_collects`); it fails only if one of them does
(`Family.draftBatch_succeeds`). The order of the batch does not matter, nor does a repetition.
-/

set_option autoImplicit false

namespace FormFlow

open NodeSource

namespace Draft

/-- One draft is another, except where in it a failure stands. -/
def Matches (draft other : Draft) : Prop :=
  (draft.failure? = none ↔ other.failure? = none) ∧ (draft.failure? = none → draft = other)

theorem Matches.refl (draft : Draft) : draft.Matches draft := ⟨.rfl, fun _ => rfl⟩

theorem Matches.append {first first' second second' : Draft} (one : first.Matches first')
    (two : second.Matches second') : (first ++ second).Matches (first' ++ second') := by
  refine ⟨?_, ?_⟩
  · rw [failure?_append, failure?_append, one.1, two.1]
  · intro succeeds
    obtain ⟨left, right⟩ := failure?_append.1 succeeds
    rw [one.2 left, two.2 right]

/-- A draft gathers a batch: it collects its nodes, and fails only if one of them does. -/
structure Gathers (draft : Draft) (batch : List NodeId) (single : NodeId → Draft) : Prop extends
    draft.Collects (· ∈ batch) single where
  complete : (∀ id ∈ batch, (single id).failure? = none) → draft.failure? = none

namespace Gathers

variable {batch : List NodeId} {single : NodeId → Draft}

theorem ofNodes (into : ∀ id ∈ batch, (single id).Into id) :
    Gathers (batch.flatMap single) batch single :=
  ⟨Collects.ofNodes into, failure?_flatMap.2⟩

theorem append {first second : Draft} {other : NodeId → Draft}
    (one : first.Gathers batch single) (two : second.Gathers batch other) :
    (first ++ second).Gathers batch fun id => single id ++ other id := by
  refine ⟨one.toCollects.append two.toCollects, fun silent => failure?_append.2 ⟨?_, ?_⟩⟩
  · exact one.complete fun id member => (failure?_append.1 (silent id member)).1
  · exact two.complete fun id member => (failure?_append.1 (silent id member)).2

theorem ofMatches {draft other : Draft} (gathers : other.Gathers batch single)
    (same : draft.Matches other) : draft.Gathers batch single := by
  refine ⟨⟨?_, ?_, ?_⟩, fun silent => same.1.2 (gathers.complete silent)⟩
  · intro succeeds
    exact gathers.succeeds (same.1.1 succeeds)
  · intro succeeds
    rw [same.2 succeeds]
    exact gathers.inside (same.1.1 succeeds)
  · intro succeeds
    rw [same.2 succeeds]
    exact gathers.outside (same.1.1 succeeds)

theorem flatMap {α : Type} {items : List α} {draft : α → Draft} {singles : α → NodeId → Draft}
    (each : ∀ item ∈ items, (draft item).Gathers batch (singles item)) :
    Gathers (items.flatMap draft) batch fun id => items.flatMap fun item => singles item id := by
  refine ⟨Collects.flatMap fun item member => (each item member).toCollects, ?_⟩
  intro silent
  refine failure?_flatMap.2 fun item member => (each item member).complete fun id known => ?_
  exact failure?_flatMap.1 (silent id known) item member

end Gathers

end Draft

namespace WiringContext

variable {σ : Type} [NodeSource σ] {ctx : WiringContext σ}

theorem get_of_found {id : NodeId} {node : Node} (found : node? ctx.nodes id = some node) :
    ctx.get id = .ok node := by
  rw [WiringContext.get, NodeSource.get_eq_ok found]
  rfl

variable {batch : List NodeId}

/-- The pseudo-nodes of a batch come one by one. -/
theorem after_batchPseudos [LawfulSource σ] (kind : PseudoKind) (make : NodeId → Pseudo → Draft)
    (rest : Draft) (present : ∀ id ∈ batch, ∃ node, node? ctx.nodes id = some node) :
    Draft.after (ctx.batchPseudos batch kind)
        (fun entries => (entries.flatMap fun entry => make entry.1 entry.2) ++ rest) =
      (batch.flatMap fun id => ctx.ofPseudo kind id (make id)) ++ rest := by
  have found : ∃ nodes, batch.mapM ctx.get = .ok nodes ∧
      List.Forall₂ (fun id node => node? ctx.nodes id = some node) batch nodes := by
    clear rest make
    induction batch with
    | nil => exact ⟨[], rfl, .nil⟩
    | cons id others ih =>
      obtain ⟨node, known⟩ := present id (List.mem_cons_self ..)
      obtain ⟨nodes, mapped, all⟩ := ih fun other member =>
        present other (List.mem_cons_of_mem _ member)
      exact ⟨node :: nodes, Except.mapM_eq_ok_iff.2 (.cons (get_of_found known)
        (Except.mapM_eq_ok_iff.1 mapped)), .cons known all⟩
  obtain ⟨nodes, mapped, all⟩ := found
  rw [batchPseudos, mapped]
  change _ ++ rest = _
  congr 1
  clear mapped
  induction all with
  | nil => rfl
  | @cons id node others nodes known all ih =>
    have named := LawfulSource.id_of_node? _ _ _ known
    rw [List.flatMap_cons, ← ih fun other member => present other (List.mem_cons_of_mem _ member)]
    rw [ofPseudo, known, Option.bind_some]
    cases definition : node.kind.pseudo? with
    | none => simp [definition]
    | some pseudo =>
      by_cases same : pseudo.kind = kind
      · simp [definition, same, named]
      · simp [definition, same]

theorem ofKey_of_batchKey {space : Namespace} {id : NodeId} (make : NodeId × String → Draft)
    (present : ∃ node, node? ctx.nodes id = some node) :
    ctx.ofKey space id make = Draft.after (ctx.batchKey space id) fun entry =>
      match entry with
      | some keyed => make keyed
      | none => [] := by
  obtain ⟨node, found⟩ := present
  rw [ofKey, ofReference, batchKey, get_of_found found, found, Option.bind_some]
  dsimp only [bind, Except.bind]
  cases node.kind.reference? with
  | none => rfl
  | some expression =>
    dsimp only
    split <;> rfl

/-- The references of a batch come one by one, unless one of them has no key. -/
theorem after_batchKeys (space : Namespace) (make : NodeId × String → Draft)
    (present : ∀ id ∈ batch, ∃ node, node? ctx.nodes id = some node) :
    (Draft.after (ctx.batchKeys batch space) fun keyed => keyed.flatMap make).Matches
      (batch.flatMap fun id => ctx.ofKey space id make) := by
  simp only [batchKeys]
  cases mapped : batch.mapM (ctx.batchKey space) with
  | error error =>
    obtain ⟨id, member, failed⟩ := Except.exists_of_mapM_eq_error mapped
    have fails : ¬Draft.failure? (batch.flatMap fun id => ctx.ofKey space id make) = none := by
      intro silent
      have own := Draft.failure?_flatMap.1 silent id member
      rw [ofKey_of_batchKey make (present id member), failed] at own
      cases own
    exact ⟨⟨nofun, fun silent => absurd silent fails⟩, nofun⟩
  | ok entries =>
    have all := Except.mapM_eq_ok_iff.1 mapped
    have same : (entries.filterMap id).flatMap make =
        batch.flatMap fun id => ctx.ofKey space id make := by
      clear mapped
      induction all with
      | nil => rfl
      | @cons id entry others entries known all ih =>
        rw [List.flatMap_cons, ← ih fun other member =>
          present other (List.mem_cons_of_mem _ member)]
        rw [ofKey_of_batchKey make (present id (List.mem_cons_self ..)), known]
        cases entry <;> rfl
    change Draft.Matches ((entries.filterMap id).flatMap make) _
    rw [same]
    exact .refl _

end WiringContext

/-! ## Families -/

section Families

variable {σ : Type} [NodeSource σ] [LawfulSource σ] {ctx : WiringContext σ} {batch : List NodeId}
  (present : ∀ id ∈ batch, ∃ node, node? ctx.nodes id = some node)
include present

theorem KeyedSource.draftBatch_matches (source : KeyedSource) :
    (source.draftBatch ctx batch).Matches
      ((batch.flatMap fun id => ctx.ofPseudo source.kind id fun definition =>
        source.producers ctx id definition.key) ++
      batch.flatMap fun id => ctx.ofKey source.kind.reads id (source.reader ctx)) := by
  rw [KeyedSource.draftBatch, WiringContext.after_batchPseudos source.kind
    (fun id definition => source.producers ctx id definition.key) _ present]
  exact Draft.Matches.append (.refl _)
    (WiringContext.after_batchKeys source.kind.reads (source.reader ctx) present)

theorem Answer.draftBatch_matches :
    (Answer.draftBatch ctx batch).Matches
      ((batch.flatMap fun id => ctx.ofPseudo .answerLocal id (localProducers ctx id)) ++
        ((batch.flatMap fun id => ctx.ofPseudo .answerRemote id fun definition =>
          ctx.load .answer id definition.key) ++
        batch.flatMap fun id => ctx.ofKey .answers id (reader ctx))) := by
  simp only [Answer.draftBatch]
  rw [WiringContext.after_batchPseudos .answerLocal (localProducers ctx) _ present,
    WiringContext.after_batchPseudos .answerRemote
      (fun id definition => ctx.load .answer id definition.key) _ present]
  exact Draft.Matches.append (.refl _) (Draft.Matches.append (.refl _)
    (WiringContext.after_batchKeys .answers (reader ctx) present))

omit [LawfulSource σ] in
theorem SelfValue.draftBatch_eq :
    SelfValue.draftBatch ctx batch = batch.flatMap (SelfValue.single ctx) := by
  apply List.flatMap_congr
  intro id member
  obtain ⟨node, found⟩ := present id member
  simp only [SelfValue.batchNode, SelfValue.single, WiringContext.ofReference]
  rw [WiringContext.get_of_found found, found]
  rfl

theorem Item.draftBatch_eq :
    Item.draftBatch ctx batch = (batch.flatMap fun id => ctx.ofPseudo .item id (producer ctx id)) ++
      batch.flatMap fun id => ctx.ofReference .item id fun _ => reader ctx id := by
  rw [Item.draftBatch, WiringContext.after_batchPseudos .item (producer ctx) _ present]
  congr 1
  apply List.flatMap_congr
  intro id member
  obtain ⟨node, found⟩ := present id member
  rw [Item.batchNode, WiringContext.ofReference, WiringContext.get_of_found found, found]
  rfl

/-- A family gathers a batch. -/
theorem Family.draftBatch_gathers (family : Family) :
    (family.draftBatch ctx batch).Gathers batch (family.single ctx) := by
  have keyed : ∀ source : KeyedSource,
      (source.draftBatch ctx batch).Gathers batch (source.single ctx) := by
    intro source
    have into := source.single_into ctx
    exact (Draft.Gathers.append (.ofNodes fun id _ => (into id).left)
      (.ofNodes fun id _ => (into id).right)).ofMatches (source.draftBatch_matches present)
  cases family with
  | post => exact keyed _
  | query => exact keyed _
  | params => exact keyed _
  | data => exact keyed _
  | answer =>
    have into := Answer.single_into ctx
    exact (Draft.Gathers.append (.ofNodes fun id _ => (into id).left)
      (.append (.ofNodes fun id _ => (into id).right.left)
        (.ofNodes fun id _ => (into id).right.right))).ofMatches (Answer.draftBatch_matches present)
  | selfValue =>
    rw [Family.draftBatch, SelfValue.draftBatch_eq present]
    exact .ofNodes fun id _ => SelfValue.single_into ctx id
  | item =>
    have into := Item.single_into ctx
    rw [Family.draftBatch, Item.draftBatch_eq present]
    exact .append (.ofNodes fun id _ => (into id).left) (.ofNodes fun id _ => (into id).right)

end Families

/-! ## Groups of a batch -/

namespace Pass

/-- A node stands in the group of a step. -/
def InGroup (groups : List (NodeId × List NodeId)) (step id : NodeId) : Prop :=
  ∃ ids, (step, ids) ∈ groups ∧ id ∈ ids

theorem inGroup_addToGroup {groups : List (NodeId × List NodeId)} {entry : NodeId × NodeId}
    {step id : NodeId} :
    InGroup (addToGroup groups entry) step id ↔ InGroup groups step id ∨ (step, id) = entry := by
  simp only [InGroup]
  obtain ⟨own, added⟩ := entry
  induction groups with
  | nil => simp [addToGroup]
  | cons group rest ih =>
    obtain ⟨other, ids⟩ := group
    unfold addToGroup
    split
    · rename_i same
      dsimp only at same
      subst same
      simp only [List.mem_cons, Prod.mk.injEq]
      grind
    · simp only [List.mem_cons, Prod.mk.injEq]
      grind

theorem inGroup_foldl {placed : List (NodeId × NodeId)} {groups : List (NodeId × List NodeId)}
    {step id : NodeId} :
    InGroup (placed.foldl addToGroup groups) step id ↔
      InGroup groups step id ∨ (step, id) ∈ placed := by
  induction placed generalizing groups with
  | nil => simp
  | cons entry rest ih =>
    rw [List.foldl_cons, ih, inGroup_addToGroup, List.mem_cons]
    exact or_assoc

section

variable {σ : Type} [NodeSource σ] {nodes : σ} {scopes : ScopeTree}

/-- A node is there and belongs to a step of the tree. -/
def Placed (nodes : σ) (scopes : ScopeTree) (step id : NodeId) : Prop :=
  (∃ node, node? nodes id = some node) ∧ owningStep? nodes id = some step ∧
    scopes.isStep step = true

theorem knownStep_eq_ok_iff {id : NodeId} {entry : NodeId × NodeId} :
    knownStep nodes scopes id = .ok entry ↔ entry.2 = id ∧ Placed nodes scopes entry.1 id := by
  obtain ⟨step, other⟩ := entry
  rw [knownStep, Except.bind_eq_ok_iff]
  constructor
  · rintro ⟨node, found, known⟩
    have present := NodeSource.node?_of_get (Except.mapError_eq_ok_iff.1 found)
    split at known
    · rename_i own owned
      split at known
      · cases known
        rename_i isStep
        exact ⟨rfl, ⟨node, present⟩, owned, isStep⟩
      · cases known
    · cases known
  · rintro ⟨rfl, ⟨node, present⟩, owned, isStep⟩
    refine ⟨node, ?_, ?_⟩
    · rw [NodeSource.get_eq_ok present]
      rfl
    · rw [owned]
      dsimp only at isStep ⊢
      rw [if_pos isStep]
      rfl

/-- The groups of a batch are its nodes, each in its step. -/
theorem inGroup_groupByStep {batch : List NodeId} {groups : List (NodeId × List NodeId)}
    (grouped : groupByStep nodes scopes batch = .ok groups) {step id : NodeId} :
    InGroup groups step id ↔ id ∈ batch ∧ Placed nodes scopes step id := by
  obtain ⟨placed, mapped, same⟩ := Except.bind_eq_ok_iff.1 grouped
  cases same
  have all := Except.mapM_eq_ok_iff.1 mapped
  rw [inGroup_foldl]
  have empty : ¬InGroup [] step id := by
    rintro ⟨_, member, _⟩
    cases member
  rw [or_iff_right empty]
  clear mapped grouped empty
  induction all with
  | nil => simp
  | @cons other entry rest entries known _ ih =>
    obtain ⟨rfl, here⟩ := knownStep_eq_ok_iff.1 known
    rw [List.mem_cons, List.mem_cons]
    constructor
    · rintro (rfl | known)
      · exact ⟨.inl rfl, here⟩
      · obtain ⟨later, there⟩ := ih.1 known
        exact ⟨.inr later, there⟩
    · rintro ⟨rfl | later, there⟩
      · have same := there.2.1.symm.trans here.2.1
        cases same
        exact .inl rfl
      · exact .inr (ih.2 ⟨later, there⟩)

theorem placed_of_groupByStep {batch : List NodeId} {groups : List (NodeId × List NodeId)}
    (grouped : groupByStep nodes scopes batch = .ok groups) {id : NodeId} (member : id ∈ batch) :
    ∃ step, Placed nodes scopes step id := by
  obtain ⟨placed, mapped, _⟩ := Except.bind_eq_ok_iff.1 grouped
  obtain ⟨entry, _, known⟩ := Except.exists_of_mem_mapM mapped member
  exact ⟨entry.1, (knownStep_eq_ok_iff.1 known).2⟩

theorem groupByStep_succeeds {batch : List NodeId}
    (placed : ∀ id ∈ batch, ∃ step, Placed nodes scopes step id) :
    ∃ groups, groupByStep nodes scopes batch = .ok groups := by
  have mapped : ∃ entries, batch.mapM (knownStep nodes scopes) = .ok entries := by
    induction batch with
    | nil => exact ⟨[], rfl⟩
    | cons id rest ih =>
      obtain ⟨step, here⟩ := placed id (List.mem_cons_self ..)
      obtain ⟨entries, all⟩ := ih fun other member => placed other (List.mem_cons_of_mem _ member)
      exact ⟨(step, id) :: entries, Except.mapM_eq_ok_iff.2 (.cons
        (knownStep_eq_ok_iff.2 ⟨rfl, here⟩) (Except.mapM_eq_ok_iff.1 all))⟩
  obtain ⟨entries, all⟩ := mapped
  exact ⟨_, Except.bind_eq_ok_iff.2 ⟨entries, all, rfl⟩⟩

end

/-! ## The pass over a batch -/

section

variable {σ : Type} [NodeSource σ]

/-- What a node asks for in a step. -/
def single (ctx : WiringContext σ) (id : NodeId) : Draft :=
  Family.all.flatMap fun family => family.single ctx id

/-- What a node asks for in the step that it belongs to. -/
def solo (nodes : σ) (scopes : ScopeTree) (config : WiringConfig) (id : NodeId) : Draft :=
  match owningStep? nodes id with
  | some step => single ⟨nodes, scopes, .none, step, config⟩ id
  | none => []

theorem solo_of_placed {nodes : σ} {scopes : ScopeTree} {config : WiringConfig} {step id : NodeId}
    (placed : Placed nodes scopes step id) :
    solo nodes scopes config id = single ⟨nodes, scopes, .none, step, config⟩ id := by
  rw [solo, placed.2.1]

/-- What a node asks for does not depend on the members of the step. -/
theorem single_members (ctx : WiringContext σ) (members : StepMembers) (id : NodeId) :
    single { ctx with members } id = single ctx id := by
  have producers : Answer.localProducers { ctx with members } id =
      Answer.localProducers ctx id := by
    funext definition
    unfold Answer.localProducers Answer.fieldProducers
    simp only [Answer.formatters_congr { ctx with members } ctx]
    rfl
  have families : ∀ family : Family,
      family.single { ctx with members } id = family.single ctx id := by
    intro family
    cases family with
    | answer =>
      change Answer.single _ id = Answer.single _ id
      rw [Answer.single, producers]
      rfl
    | post => rfl
    | query => rfl
    | params => rfl
    | data => rfl
    | selfValue => rfl
    | item => rfl
  simp only [single]
  simp only [families]
variable [LawfulSource σ] {nodes : σ} {scopes : ScopeTree} {config : WiringConfig}
  {batch : List NodeId} {groups : List (NodeId × List NodeId)}

/-- A group is gathered by all families together. -/
theorem groupDraft_gathers (config : WiringConfig)
    (grouped : groupByStep nodes scopes batch = .ok groups)
    {group : NodeId × List NodeId} (member : group ∈ groups) :
    (groupDraft nodes scopes config group).Gathers group.2 (solo nodes scopes config) := by
  have inside : ∀ id ∈ group.2, Placed nodes scopes group.1 id := fun id known =>
    ((inGroup_groupByStep grouped).1 ⟨group.2, member, known⟩).2
  have gathers : (groupDraft nodes scopes config group).Gathers group.2
      (single ⟨nodes, scopes, .none, group.1, config⟩) :=
    .flatMap fun family _ => family.draftBatch_gathers fun id known => (inside id known).1
  have same : ∀ id ∈ group.2, single ⟨nodes, scopes, .none, group.1, config⟩ id =
      solo nodes scopes config id := fun id known => (solo_of_placed (inside id known)).symm
  refine ⟨gathers.toCollects.congr (fun _ => .rfl) same, fun silent => ?_⟩
  apply gathers.complete
  intro id known
  rw [same id known]
  exact silent id known

/-- The groups together collect the batch. -/
theorem groups_collect (config : WiringConfig)
    (grouped : groupByStep nodes scopes batch = .ok groups) :
    Draft.Collects (groups.flatMap (groupDraft nodes scopes config)) (· ∈ batch)
      (solo nodes scopes config) := by
  have union := Draft.Collects.union fun group member =>
    (groupDraft_gathers config grouped member).toCollects
  refine union.congr (fun id => ?_) fun _ _ => rfl
  constructor
  · rintro ⟨group, member, known⟩
    exact ((inGroup_groupByStep grouped).1 ⟨group.2, member, known⟩).1
  · intro member
    obtain ⟨step, placed⟩ := placed_of_groupByStep grouped member
    obtain ⟨ids, known, inside⟩ := (inGroup_groupByStep grouped).2 ⟨member, placed⟩
    exact ⟨(step, ids), known, inside⟩

/-- What the pass over a batch finds for a connection: what its consumer asks for, if that is a
node of the batch that does not wait for an iteration. -/
def batchOffer? (nodes : σ) (scopes : ScopeTree) (config : WiringConfig) (batch : List NodeId)
    (triple : Triple) : Option EdgeMetadata :=
  if triple.consumer ∈ batch ∧ isReady nodes triple.consumer = true then
    (solo nodes scopes config triple.consumer).offer? triple
  else none

/-- A node of a batch that does not wait for an iteration can be wired: it belongs to a step, and
what it asks for has no failure. -/
def Wirable (nodes : σ) (scopes : ScopeTree) (config : WiringConfig) (id : NodeId) : Prop :=
  isReady nodes id = true →
    (∃ step, Placed nodes scopes step id) ∧ (solo nodes scopes config id).failure? = none

omit [LawfulSource σ] in
theorem mem_ready {id : NodeId} :
    id ∈ batch.filter (isReady nodes) ↔ id ∈ batch ∧ isReady nodes id = true :=
  List.mem_filter

/-- What a pass over a batch did if it reports. -/
theorem wireNodes_spec {graph : DependencyGraph}
    (reports : ∃ report, (wireNodes nodes scopes config batch graph).report = .ok report) :
    (∀ id ∈ batch, Wirable nodes scopes config id) ∧
      ∀ triple, (wireNodes nodes scopes config batch graph).graph.metadata? triple =
        (graph.metadata? triple).or (batchOffer? nodes scopes config batch triple) := by
  simp only [wireNodes] at *
  cases grouped : groupByStep nodes scopes (batch.filter (isReady nodes)) with
  | error error =>
    rw [grouped] at reports
    obtain ⟨_, ⟨⟩⟩ := reports
  | ok groups =>
    rw [grouped] at reports
    have silent := PassResult.report_ofDraft_eq_ok_iff.1 reports
    have collects := groups_collect config grouped
    refine ⟨fun id member ready => ?_, fun triple => ?_⟩
    · have known := mem_ready.2 ⟨member, ready⟩
      exact ⟨placed_of_groupByStep grouped known, collects.succeeds silent id known⟩
    · rw [PassResult.graph_ofDraft, Draft.metadata?_applyTo silent]
      congr 1
      simp only [batchOffer?]
      split
      · rename_i known
        exact collects.inside silent triple (mem_ready.2 known)
      · rename_i unknown
        exact collects.outside silent triple fun known => unknown (mem_ready.1 known)

/-- A pass over nodes that can be wired reports. -/
theorem wireNodes_reports (graph : DependencyGraph)
    (wirable : ∀ id ∈ batch, Wirable nodes scopes config id) :
    ∃ report, (wireNodes nodes scopes config batch graph).report = .ok report := by
  have placed : ∀ id ∈ batch.filter (isReady nodes), ∃ step, Placed nodes scopes step id :=
    fun id known => (wirable id (mem_ready.1 known).1 (mem_ready.1 known).2).1
  obtain ⟨groups, grouped⟩ := groupByStep_succeeds placed
  rw [wireNodes, grouped]
  refine PassResult.report_ofDraft_eq_ok_iff.2 (Draft.failure?_flatMap.2 fun group member => ?_)
  apply (groupDraft_gathers config grouped member).complete
  intro id inside
  obtain ⟨known, _⟩ := (inGroup_groupByStep grouped).1 ⟨group.2, member, inside⟩
  exact (wirable id (mem_ready.1 known).1 (mem_ready.1 known).2).2

omit [LawfulSource σ] in
theorem nodup_triples_wireNodes {graph : DependencyGraph} (distinct : graph.triples.Nodup) :
    (wireNodes nodes scopes config batch graph).graph.triples.Nodup := by
  simp only [wireNodes]
  split
  · exact distinct
  · rw [PassResult.graph_ofDraft]
    exact Draft.nodup_triples_applyTo _ distinct

/-! ## Batch after batch -/

/-- Wires batches one after the other, up to the first that fails. -/
def wireBatches (nodes : σ) (scopes : ScopeTree) (config : WiringConfig) :
    List (List NodeId) → DependencyGraph → Except WiringError DependencyGraph
  | [], graph => .ok graph
  | batch :: rest, graph =>
    let pass := wireNodes nodes scopes config batch graph
    match pass.report with
    | .ok _ => wireBatches nodes scopes config rest pass.graph
    | .error error => .error error

/-- However nodes are divided into batches, the graph ends with what they ask for. -/
theorem wireBatches_spec {batches : List (List NodeId)} {graph : DependencyGraph}
    (distinct : graph.triples.Nodup)
    (wirable : ∀ batch ∈ batches, ∀ id ∈ batch, Wirable nodes scopes config id) :
    ∃ last, wireBatches nodes scopes config batches graph = .ok last ∧ last.triples.Nodup ∧
      ∀ triple, last.metadata? triple =
        (graph.metadata? triple).or (batchOffer? nodes scopes config batches.flatten triple) := by
  induction batches generalizing graph with
  | nil => exact ⟨graph, rfl, distinct, fun triple => by simp [batchOffer?]⟩
  | cons batch rest ih =>
    have reports := wireNodes_reports graph (wirable batch (List.mem_cons_self ..))
    have next : (wireNodes nodes scopes config batch graph).graph.triples.Nodup :=
      nodup_triples_wireNodes distinct
    obtain ⟨last, run, nodup, found⟩ :=
      ih next fun other member => wirable other (List.mem_cons_of_mem _ member)
    refine ⟨last, ?_, nodup, fun triple => ?_⟩
    · obtain ⟨report, reported⟩ := reports
      rw [wireBatches, reported]
      exact run
    · rw [found, (wireNodes_spec reports).2, Option.or_assoc]
      congr 1
      simp only [batchOffer?, List.flatten_cons, List.mem_append]
      -- A node that is asked again asks for the same.
      by_cases ready : isReady nodes triple.consumer = true
      · by_cases here : triple.consumer ∈ batch <;>
          by_cases later : triple.consumer ∈ rest.flatten <;> simp [ready, here, later]
      · simp [ready]

end

end Pass

end FormFlow
