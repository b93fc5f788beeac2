import FormFlow.Proofs.Graph.Property
import FormFlow.Proofs.Wiring.Edges
import Mathlib.Data.List.Nodup
import Mathlib.Data.List.Pairwise

/-!
# The order in which producers are replayed

A local answer can take its value from a load-transition, a default value, a submitted value and
formatters (`AnswerInputs`). `AnswerInputs.declared` lists them in the order of replay. Wiring goes
through them in another order, and does not connect two nodes twice by data flow, so a value that
has several places is connected at the first that wiring comes to (`AnswerInputs.place?`).
`AnswerInputs.replayed` is what is left of the list; it is the whole list if no value has two places
(`AnswerInputs.replayed_eq_declared`).

`AnswerInputs.Connected` says of a graph that the edges into an answer connect its inputs in this
way. The producers that are read off these edges, sorted by what they stand for, are the inputs that
are replayed (`AnswerInputs.Connected.producerRoles_edgesTo`): both lists are sorted, and the order
leaves no choice between two entries.
-/

set_option autoImplicit false

namespace FormFlow

namespace AnswerSource

/-- One sort of producer is replayed before another. -/
def Before (one other : AnswerSource) : Prop := one.le other = true ∧ other.le one = false

theorem Before.ofRank {one other : AnswerSource} (less : one.rank.1 < other.rank.1) :
    one.Before other := by
  constructor
  · simp [le, less]
  · simp [le, Nat.le_of_lt less, Nat.ne_of_gt less]

theorem before_formatter {index other : Nat} (less : index < other) :
    (formatter index).Before (formatter other) := by
  constructor
  · simp [le, rank, Nat.le_of_lt less]
  · simp [le, rank, Nat.not_le.2 less]

theorem le_trans {one middle other : AnswerSource} (first : one.le middle = true)
    (second : middle.le other = true) : one.le other = true := by
  simp only [le, Bool.or_eq_true, Bool.and_eq_true, decide_eq_true_eq] at first second ⊢
  omega

theorem le_total (one other : AnswerSource) : (one.le other || other.le one) = true := by
  simp only [le, Bool.or_eq_true, Bool.and_eq_true, decide_eq_true_eq]
  omega

end AnswerSource

/-- What a local answer can take its value from. -/
structure AnswerInputs where
  load : Option NodeId
  default : Option NodeId
  post : Option NodeId
  formatters : List NodeId

/-- The inputs of a local answer in a step: what serves the step, and what the field has. -/
def Answer.inputs {σ : Type} [NodeSource σ] (ctx : WiringContext σ) (code : String)
    (field : Field) : AnswerInputs where
  load := ctx.scopes.lastLoadFrom? ctx.step
  default := field.defaultValue
  post := ctx.find? .post code
  formatters := field.formatters

namespace AnswerInputs

/-- Every input with the place that it has, in the order of replay. -/
def declared (inputs : AnswerInputs) : List (AnswerSource × NodeId) :=
  inputs.load.toList.map (AnswerSource.load, ·) ++
    inputs.default.toList.map (AnswerSource.default, ·) ++
    inputs.post.toList.map (AnswerSource.post, ·) ++
    inputs.formatters.zipIdx.map fun entry => (AnswerSource.formatter entry.2, entry.1)

/-- The first place that a value has in the order of wiring: that of the submitted value, then
those of the formatters, then that of the default value. -/
def place? (inputs : AnswerInputs) (value : NodeId) : Option AnswerSource :=
  if inputs.post = some value then some .post
  else match inputs.formatters.idxOf? value with
    | some index => some (.formatter index)
    | none => if inputs.default = some value then some .default else none

/-- The inputs that are replayed: the load-transition, and every value at its first place. -/
def replayed (inputs : AnswerInputs) : List (AnswerSource × NodeId) :=
  inputs.declared.filter fun entry => entry.1.isWired &&
    (entry.1 = .load || inputs.place? entry.2 = some entry.1)

variable (inputs : AnswerInputs)

/-- The place of an input says where it is declared. -/
theorem mem_declared {source : AnswerSource} {producer : NodeId} :
    (source, producer) ∈ inputs.declared ↔ match source with
      | .load => inputs.load = some producer
      | .default => inputs.default = some producer
      | .post => inputs.post = some producer
      | .formatter index => inputs.formatters[index]? = some producer
      | .action => False := by
  cases source <;> simp [declared, List.mk_mem_zipIdx_iff_getElem?]

theorem declared_of_place? {source : AnswerSource} {value : NodeId}
    (place : inputs.place? value = some source) : (source, value) ∈ inputs.declared := by
  rw [mem_declared]
  rw [place?] at place
  split at place
  · cases place
    assumption
  · split at place
    · rename_i index first
      cases place
      obtain ⟨inside, same, _⟩ := List.idxOf?_eq_some_iff.1 first
      exact List.getElem?_eq_some_iff.2 ⟨inside, same⟩
    · split at place
      · cases place
        assumption
      · cases place

/-- The sort of producer that a value is connected as through an edge of a role. -/
def source? (value : NodeId) : Role → Option AnswerSource
  | .dataFlow => inputs.place? value
  | .effect => if inputs.load = some value then some .load else none

/-- A value is replayed as what it is connected as, if that is told by an edge. -/
theorem mem_replayed {source : AnswerSource} {producer : NodeId} :
    (source, producer) ∈ inputs.replayed ↔
      source.isWired = true ∧ ∃ role, inputs.source? producer role = some source := by
  simp only [replayed, List.mem_filter, Bool.and_eq_true, Bool.or_eq_true, decide_eq_true_eq]
  constructor
  · rintro ⟨member, wired, rfl | place⟩
    · exact ⟨wired, .effect, if_pos (inputs.mem_declared.1 member)⟩
    · exact ⟨wired, .dataFlow, place⟩
  · rintro ⟨wired, _ | _, known⟩
    · exact ⟨inputs.declared_of_place? known, wired, .inr known⟩
    · rw [source?, Option.ite_none_right_eq_some] at known
      obtain ⟨load, ⟨⟩⟩ := known
      exact ⟨inputs.mem_declared.2 load, wired, .inl rfl⟩

/-- A load-transition is never connected by data flow, and nothing else is connected by effect. -/
theorem role_of_source? {value : NodeId} {role : Role} {source : AnswerSource}
    (known : inputs.source? value role = some source) : role = .effect ↔ source = .load := by
  cases role with
  | effect =>
    rw [source?, Option.ite_none_right_eq_some] at known
    exact iff_of_true rfl (Option.some_inj.1 known.2).symm
  | dataFlow =>
    refine iff_of_false nofun ?_
    rintro rfl
    simp only [source?, place?] at known
    split at known
    · cases known
    · split at known
      · cases known
      · split at known <;> cases known

/-- Inputs are declared in the order of replay, no two at one place. -/
theorem declared_pairwise :
    inputs.declared.Pairwise fun one other => one.1.Before other.1 := by
  have single : ∀ (source : AnswerSource) (value : Option NodeId),
      (value.toList.map (source, ·)).Pairwise fun one other => one.1.Before other.1 := by
    intro source value
    cases value <;> simp
  have formatters : (inputs.formatters.zipIdx.map fun entry =>
      (AnswerSource.formatter entry.2, entry.1)).Pairwise fun one other =>
        one.1.Before other.1 := by
    have increasing : inputs.formatters.zipIdx.Pairwise fun one other => one.2 < other.2 := by
      rw [← List.pairwise_map (f := Prod.snd), List.zipIdx_map_snd]
      exact List.pairwise_lt_range'
    rw [List.pairwise_map]
    exact increasing.imp AnswerSource.before_formatter
  simp only [declared, List.pairwise_append, List.mem_append, List.mem_map]
  refine ⟨⟨⟨single _ _, single _ _, ?_⟩, single _ _, ?_⟩, formatters, ?_⟩
  · rintro _ ⟨_, _, rfl⟩ _ ⟨_, _, rfl⟩
    exact .ofRank (by simp [AnswerSource.rank])
  · rintro _ (⟨_, _, rfl⟩ | ⟨_, _, rfl⟩) _ ⟨_, _, rfl⟩ <;>
      exact .ofRank (by simp [AnswerSource.rank])
  · rintro _ ((⟨_, _, rfl⟩ | ⟨_, _, rfl⟩) | ⟨_, _, rfl⟩) _ ⟨_, _, rfl⟩ <;>
      exact .ofRank (by simp [AnswerSource.rank])

/-- Every input is replayed where no value has two places. -/
theorem replayed_eq_declared
    (distinct : (inputs.post.toList ++ inputs.formatters ++ inputs.default.toList).Nodup)
    (indexed : inputs.formatters.length ≤ indexBound) : inputs.replayed = inputs.declared := by
  obtain ⟨earlier, _, late⟩ := List.nodup_append.1 distinct
  obtain ⟨_, once, early⟩ := List.nodup_append.1 earlier
  have unposted : ∀ value ∈ inputs.formatters ++ inputs.default.toList,
      inputs.post ≠ some value := by
    intro value member posted
    rcases List.mem_append.1 member with formats | default
    · exact early value (Option.mem_toList.2 posted) value formats rfl
    · exact late value (List.mem_append_left _ (Option.mem_toList.2 posted)) value default rfl
  rw [replayed, List.filter_eq_self]
  rintro ⟨source, value⟩ member
  have place := inputs.mem_declared.1 member
  cases source with
  | load => rfl
  | default =>
    have given : value ∈ inputs.default.toList := Option.mem_toList.2 place
    have plain : inputs.formatters.idxOf? value = none := List.idxOf?_eq_none_iff.2 fun formats =>
      late value (List.mem_append_right _ formats) value given rfl
    have unlike := unposted value (List.mem_append_right _ given)
    simp [AnswerSource.isWired, place?, unlike, plain, place]
  | post => simp [AnswerSource.isWired, place?, place]
  | formatter index =>
    obtain ⟨inside, same⟩ := List.getElem?_eq_some_iff.1 place
    have formats : value ∈ inputs.formatters := List.mem_of_getElem? place
    have first : inputs.formatters.idxOf? value = some index := by
      refine List.idxOf?_eq_some_iff.2 ⟨inside, same, fun other less equal => ?_⟩
      exact Nat.ne_of_lt less ((once.getElem_inj_iff).1 (equal.trans same.symm))
    have unlike := unposted value (List.mem_append_left _ formats)
    simp [AnswerSource.isWired, place?, unlike, first, Nat.lt_of_lt_of_le inside indexed]
  | action => exact place.elim

/-- Inputs at one place are the same. -/
theorem eq_of_declared {one other : AnswerSource × NodeId} (first : one ∈ inputs.declared)
    (second : other ∈ inputs.declared) (less : one.1.le other.1 = true)
    (more : other.1.le one.1 = true) : one = other := by
  by_contra differ
  have apart : inputs.declared.Pairwise fun one other =>
      ¬(one.1.le other.1 = true ∧ other.1.le one.1 = true) := by
    refine inputs.declared_pairwise.imp ?_
    rintro _ _ ⟨_, no⟩ ⟨_, yes⟩
    cases no.symm.trans yes
  have symmetric : Std.Symm fun one other : AnswerSource × NodeId =>
      ¬(one.1.le other.1 = true ∧ other.1.le one.1 = true) :=
    ⟨fun _ _ => mt And.symm⟩
  exact apart.forall first second differ ⟨less, more⟩

end AnswerInputs

/-! ## What a local answer asks for -/

namespace WiringContext

variable {σ : Type} (ctx : WiringContext σ) (id : NodeId) (code : String)

theorem offer?_fill (value : NodeId) (property : String) (producer : NodeId) (role : Role) :
    (ctx.fill .answer value id code property).offer? ⟨producer, id, role⟩ =
      if role = .dataFlow ∧ value = producer then some ⟨some code, some property, none⟩
      else none := by
  cases role <;> simp [fill, Draft.offer?, Connection.triple, Connection.metadata]

theorem offer?_flatMap_fill (value? : Option NodeId) (property : String) (producer : NodeId)
    (role : Role) :
    Draft.offer? (value?.toList.flatMap fun value => ctx.fill .answer value id code property)
        ⟨producer, id, role⟩ =
      if role = .dataFlow ∧ value? = some producer then some ⟨some code, some property, none⟩
      else none := by
  cases value? with
  | none => simp
  | some value => simp [offer?_fill]

theorem offer?_load (producer : NodeId) (role : Role) :
    Draft.offer? (ctx.load .answer id code) ⟨producer, id, role⟩ =
    if role = .effect ∧ ctx.scopes.lastLoadFrom? ctx.step = some producer then
      some ⟨some code, some Property.onLoad, none⟩
    else none := by
  rw [load]
  cases ctx.scopes.lastLoadFrom? ctx.step with
  | none => simp
  | some value =>
    cases role <;> simp [Draft.offer?, Connection.triple, Connection.metadata]

theorem offer?_formatters (producer : NodeId) (role : Role) (position : Nat) (ids : List NodeId) :
    (Answer.formatters ctx id code position ids).offer? ⟨producer, id, role⟩ =
      if role = .dataFlow then (ids.idxOf? producer).map fun index =>
        ⟨some code, some (Property.formatter (position + index)), none⟩
      else none := by
  induction ids generalizing position with
  | nil => simp [Answer.formatters]
  | cons first rest ih =>
    rw [Answer.formatters, Draft.offer?_append, offer?_fill, ih, List.idxOf?_cons]
    by_cases flows : role = .dataFlow
    · by_cases same : first = producer
      · simp [flows, same]
      · simp [flows, same, Option.map_map, Function.comp_def, Nat.add_comm, Nat.add_left_comm]
    · simp [flows]

variable [NodeSource σ]

theorem fieldProducers_eq (field : Field) : Answer.fieldProducers ctx id code field =
    ((ctx.find? .post code).toList.flatMap fun value =>
        ctx.fill .answer value id code Property.post) ++
      Answer.formatters ctx id code 0 field.formatters ++
      (field.defaultValue.toList.flatMap fun value =>
        ctx.fill .answer value id code Property.defaultValue) ++
      ctx.load .answer id code := by
  rw [Answer.fieldProducers]
  cases ctx.find? .post code <;> cases field.defaultValue <;>
    simp only [Option.toList_none, Option.toList_some, List.flatMap_nil, List.flatMap_singleton]

/-- The field of a local answer connects each value as the first place that it has. -/
theorem offer?_fieldProducers (field : Field) (producer : NodeId) (role : Role) :
    (Answer.fieldProducers ctx id code field).offer? ⟨producer, id, role⟩ =
      ((Answer.inputs ctx code field).source? producer role).map fun source =>
        ⟨some code, source.property?, none⟩ := by
  rw [fieldProducers_eq]
  simp only [Draft.offer?_append, offer?_flatMap_fill, offer?_formatters, offer?_load]
  cases role with
  | effect =>
    by_cases load : ctx.scopes.lastLoadFrom? ctx.step = some producer <;>
      simp [AnswerInputs.source?, Answer.inputs, load, AnswerSource.property?]
  | dataFlow =>
    by_cases posted : ctx.find? .post code = some producer
    · simp [AnswerInputs.source?, AnswerInputs.place?, Answer.inputs, posted,
        AnswerSource.property?]
    · cases formats : field.formatters.idxOf? producer with
      | some index =>
        simp [AnswerInputs.source?, AnswerInputs.place?, Answer.inputs, posted, formats,
          AnswerSource.property?]
      | none =>
        by_cases default : field.defaultValue = some producer <;>
          simp [AnswerInputs.source?, AnswerInputs.place?, Answer.inputs, posted, formats, default,
            AnswerSource.property?]

end WiringContext

/-! ## The edges into a local answer -/

/-- The sort of producer that an edge stands for. -/
def Edge.answerSource? (edge : Edge) : Option AnswerSource :=
  edge.metadata.property.bind AnswerSource.ofProperty?

theorem producerRoles_eq (edges : List Edge) : producerRoles edges =
    (edges.filterMap fun edge => edge.answerSource?.map (·, edge.producer)).mergeSort
      fun first second => first.1.le second.1 := by
  have same : (fun edge : Edge => (do
      let property ← edge.metadata.property
      let source ← AnswerSource.ofProperty? property
      return (source, edge.producer) : Option (AnswerSource × NodeId))) =
      fun edge => edge.answerSource?.map (·, edge.producer) := by
    funext edge
    simp only [Edge.answerSource?, Option.map_eq_bind, Option.bind_assoc]
    rfl
  rw [producerRoles, same]

namespace AnswerInputs

/-- The edges of a graph into an answer connect its inputs, and nothing else. -/
def Connected (inputs : AnswerInputs) (graph : DependencyGraph) (id : NodeId) (code : String) :
    Prop :=
  ∀ producer role, graph.metadata? ⟨producer, id, role⟩ =
    (inputs.source? producer role).map fun source => ⟨some code, source.property?, none⟩

variable {inputs : AnswerInputs} {graph : DependencyGraph} {id : NodeId} {code : String}
  (connected : inputs.Connected graph id code) (distinct : graph.triples.Nodup)
include connected

include distinct in
theorem Connected.source_of_edge {edge : Edge} (into : edge ∈ graph.edgesTo id) :
    ∃ source, inputs.source? edge.producer edge.role = some source ∧
      edge.answerSource? = if source.isWired then some source else none := by
  obtain ⟨member, consumer⟩ := List.mem_filter.1 into
  have known := DependencyGraph.metadata?_of_mem distinct member
  rw [Edge.triple, of_decide_eq_true consumer, connected] at known
  obtain ⟨source, found, carried⟩ := Option.map_eq_some_iff.1 known
  exact ⟨source, found, by rw [Edge.answerSource?, ← carried, AnswerSource.bind_property?]⟩

include distinct in
/-- An edge stands for a load-transition exactly if it is an effect. -/
theorem Connected.role_of_edge {edge : Edge} (into : edge ∈ graph.edgesTo id)
    {source : AnswerSource} (stands : edge.answerSource? = some source) :
    edge.role = .effect ↔ source = .load := by
  obtain ⟨other, known, told⟩ := connected.source_of_edge distinct into
  rw [told, Option.ite_none_right_eq_some] at stands
  obtain ⟨_, ⟨⟩⟩ := stands
  exact inputs.role_of_source? known

theorem Connected.edge_of_source {producer : NodeId} {role : Role} {source : AnswerSource}
    (known : inputs.source? producer role = some source) :
    ∃ edge ∈ graph.edgesTo id, edge.producer = producer ∧ edge.role = role := by
  have found := connected producer role
  rw [known] at found
  obtain ⟨edge, member, same, _⟩ := DependencyGraph.exists_of_metadata? found
  obtain ⟨producerSame, consumerSame, roleSame⟩ := Triple.mk.inj same
  exact ⟨edge, List.mem_filter.2 ⟨member, decide_eq_true consumerSame⟩, producerSame, roleSame⟩

include distinct

/-- What the edges stand for is what is replayed. -/
theorem Connected.mem_roles_iff {source : AnswerSource} {producer : NodeId} :
    (source, producer) ∈
        (graph.edgesTo id).filterMap (fun edge => edge.answerSource?.map (·, edge.producer)) ↔
      (source, producer) ∈ inputs.replayed := by
  simp only [List.mem_filterMap, Option.map_eq_some_iff, Prod.mk.injEq, mem_replayed]
  constructor
  · rintro ⟨edge, into, other, stands, rfl, rfl⟩
    obtain ⟨source, known, told⟩ := connected.source_of_edge distinct into
    rw [told, Option.ite_none_right_eq_some] at stands
    obtain ⟨wired, ⟨⟩⟩ := stands
    exact ⟨wired, edge.role, known⟩
  · rintro ⟨wired, role, known⟩
    obtain ⟨edge, into, rfl, rfl⟩ := connected.edge_of_source known
    obtain ⟨other, found, told⟩ := connected.source_of_edge distinct into
    cases known.symm.trans found
    exact ⟨edge, into, source, by rw [told, if_pos wired], rfl, rfl⟩

/-- No two edges stand for one value in one place. -/
theorem Connected.nodup_roles :
    ((graph.edgesTo id).filterMap fun edge =>
      edge.answerSource?.map (·, edge.producer)).Nodup := by
  have apart : (graph.edgesTo id).Pairwise fun edge other => edge.triple ≠ other.triple :=
    (List.pairwise_map.1 distinct).filter _
  refine List.pairwise_filterMap.2 (apart.imp_of_mem fun {edge other} into also differs => ?_)
  rintro _ first _ second rfl
  obtain ⟨source, stands, rfl⟩ := Option.map_eq_some_iff.1 first
  obtain ⟨_, again, same⟩ := Option.map_eq_some_iff.1 second
  obtain ⟨rfl, producer⟩ := Prod.mk.inj same
  have roles : edge.role = .effect ↔ other.role = .effect :=
    (connected.role_of_edge distinct into stands).trans
      (connected.role_of_edge distinct also again).symm
  have role : edge.role = other.role := by
    revert roles
    cases edge.role <;> cases other.role <;> simp
  refine differs ?_
  rw [Edge.triple, Edge.triple, of_decide_eq_true (List.mem_filter.1 into).2,
    of_decide_eq_true (List.mem_filter.1 also).2, producer, role]

/-- **The producers of an answer are replayed as its inputs are.** -/
theorem Connected.producerRoles_edgesTo : producerRoles (graph.edgesTo id) = inputs.replayed := by
  rw [producerRoles_eq]
  have sorted : (((graph.edgesTo id).filterMap fun edge => edge.answerSource?.map
      (·, edge.producer)).mergeSort fun one other => one.1.le other.1).Pairwise
        fun one other => one.1.le other.1 = true := by
    apply List.pairwise_mergeSort
    · exact fun _ _ _ => AnswerSource.le_trans
    · exact fun _ _ => AnswerSource.le_total _ _
  have ordered : inputs.replayed.Pairwise fun one other => one.1.le other.1 = true :=
    (inputs.declared_pairwise.imp And.left).filter _
  have distinctRoles : inputs.replayed.Nodup :=
    (inputs.declared_pairwise.imp fun before same => by
      rw [same] at before
      exact Bool.noConfusion (before.1.symm.trans before.2)).filter _
  have perm := (List.mergeSort_perm _ fun one other : AnswerSource × NodeId =>
      one.1.le other.1).trans <|
    (List.perm_ext_iff_of_nodup (connected.nodup_roles distinct) distinctRoles).2 fun _ =>
      connected.mem_roles_iff distinct
  refine List.Perm.eq_of_pairwise ?_ sorted ordered perm
  intro one other first second
  exact inputs.eq_of_declared (List.mem_of_mem_filter (perm.mem_iff.1 first))
    (List.mem_of_mem_filter second)

end AnswerInputs

end FormFlow
