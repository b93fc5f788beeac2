import FormFlow.Proofs.Wiring.Settling

/-!
# Steps that are drafted in lockstep

Contexts of the same step may mirror each other in the order of what they list, too: the members of
the step, and the pseudo-nodes of each kind (`WiringContext.Lockstep`). Then their drafts go
together entry by entry (`WiringContext.Lockstep.stepDraft_partners`), so the same connections are
asked for in the same order, between nodes that are the same.
-/

set_option autoImplicit false

namespace FormFlow

open NodeSource

/-! ## Connections between the same nodes -/

/-- A connection and the same connection between other identifiers, with the same metadata. -/
structure SameConnection (Same : NodeId → NodeId → Prop) (one other : Triple × EdgeMetadata) :
    Prop where
  producer : Same one.1.producer other.1.producer
  consumer : Same one.1.consumer other.1.consumer
  role : one.1.role = other.1.role
  metadata : one.2 = other.2

/-- Drafts that go together entry by entry ask for the same connections in the same order. -/
theorem Draft.connections_partners {Same : NodeId → NodeId → Prop} {draft other : Draft}
    (all : List.Forall₂ (Partner Same) draft other) :
    List.Forall₂ (SameConnection Same) draft.connections other.connections := by
  refine List.rel_filterMap (fun entry partner alike => ?_) all
  cases alike with
  | error error other => exact .none
  | ok producer consumer role metadata => exact .some ⟨producer, consumer, role, metadata⟩

namespace WiringContext

/-- Contexts that mirror each other and list members and pseudo-nodes in the same order. -/
structure Lockstep (ctx other : WiringContext NodeStore) (seen : NodeId → Prop) : Prop
    extends ctx.Mirrors other seen where
  members : ctx.members = other.members
  pseudos : ∀ kind, List.Forall₂ (ctx.nodes.SameNode other.nodes) (ctx.pseudoIds kind)
    (other.pseudoIds kind)

namespace Lockstep

variable {ctx other : WiringContext NodeStore} {seen : NodeId → Prop}
  (lockstep : ctx.Lockstep other seen)
include lockstep

/-! ### References and their indices -/

theorem selecting_eq {ids : List NodeId} (sees : ∀ id ∈ ids, seen id) (space : Namespace) :
    ctx.selecting ids space = other.selecting ids space := by
  have read : ∀ (ctx : WiringContext NodeStore) (id : NodeId),
      ((NodeSource.node? ctx.nodes id).bind fun node => node.kind.reference?.bind fun expression =>
        if expression.isIn space then some (id, expression) else none) =
      (ctx.expression? id).bind fun expression =>
        if expression.isIn space then some (id, expression) else none :=
    fun ctx id => (Option.bind_assoc ..).symm
  refine List.filterMap_congr fun id member => ?_
  refine (read ctx id).trans (Eq.trans ?_ (read other id).symm)
  rw [lockstep.expression?_eq (sees id member)]

theorem references_eq (space : Namespace) : ctx.references space = other.references space := by
  rw [references, references, ← lockstep.members]
  exact lockstep.selecting_eq (fun id member => lockstep.listed id (.inl member)) space

theorem templateReferences_eq (space : Namespace) :
    ctx.templateReferences space = other.templateReferences space := by
  rw [templateReferences, templateReferences, ← lockstep.members]
  exact lockstep.selecting_eq (fun id member => lockstep.listed id (.inr member)) space

theorem build_eq (space : Namespace) :
    ReferenceIndex.build ctx space = ReferenceIndex.build other space := by
  have keys : (fun entry : NodeId × Reference => ctx.keyOf space entry.1 entry.2) =
      fun entry => other.keyOf space entry.1 entry.2 :=
    funext fun entry => lockstep.keyOf_eq space entry.1 entry.2
  rw [ReferenceIndex.build, ReferenceIndex.build, lockstep.references_eq, keys]

theorem itemIndex_eq : Item.index ctx = Item.index other := by
  rw [Item.index, Item.index, ← lockstep.templateReferences_eq]
  refine congrArg ReferenceIndex.ofKeys (List.filterMap_congr fun entry member => ?_)
  rw [lockstep.scopeKey entry.1 (mem_selecting_iff.1 member).1]

/-! ### Drafts -/

/-- A pseudo-node is fed to the same readers in the same order. -/
theorem feed_partners {producer partner : NodeId}
    (alike : ctx.nodes.SameNode other.nodes producer partner) (family : Family) (key : String)
    (space : Namespace) {readers : List NodeId}
    (listed : ∀ reader ∈ readers, seen reader ∧
      ∃ expression, ctx.expression? reader = some expression) :
    List.Forall₂ (Draft.Partner (ctx.nodes.SameNode other.nodes))
      (ctx.feed family producer key space readers)
      (other.feed family partner key space readers) := by
  rw [feed, feed, List.forall₂_map_left_iff, List.forall₂_map_right_iff]
  refine List.forall₂_same.2 fun reader member => ?_
  obtain ⟨sees, expression, known⟩ := listed reader member
  exact .ok alike (lockstep.same_reference sees known) rfl rfl

/-- The readers in an index are references that are seen. -/
theorem of_mem_index {space : Namespace} {index : ReferenceIndex}
    (built : (ReferenceIndex.build ctx space).toOption = some index) {key : String} :
    ∀ reader ∈ index.get key, seen reader ∧ ∃ expression, ctx.expression? reader = some expression
    := by
  intro reader member
  obtain ⟨expression, listed, _⟩ :=
    (ReferenceIndex.mem_get_build (Except.toOption_eq_some_iff.1 built)).1 member
  obtain ⟨inside, known, _⟩ := mem_selecting_iff.1 listed
  exact ⟨lockstep.listed _ (.inl inside), expression, known⟩

/-- The pseudo-nodes of a kind draft the same one after the other. -/
theorem pseudos_partners {kind : PseudoKind} {draft another : NodeId → Pseudo → Draft}
    (each : ∀ id same definition, ctx.Holds id definition → definition.kind = kind →
      ctx.nodes.SameNode other.nodes id same →
      List.Forall₂ (Draft.Partner (ctx.nodes.SameNode other.nodes)) (draft id definition)
        (another same definition)) :
    List.Forall₂ (Draft.Partner (ctx.nodes.SameNode other.nodes))
      ((ctx.pseudoIds kind).flatMap fun id => Draft.after (ctx.pseudo id) (draft id))
      ((other.pseudoIds kind).flatMap fun id => Draft.after (other.pseudo id) (another id)) := by
  have listed := (List.forall₂_and_left _ _).2
    ⟨fun id (member : id ∈ ctx.pseudoIds kind) => member, lockstep.pseudos kind⟩
  refine List.rel_flatMap listed fun id same alike => ?_
  obtain ⟨definition, known, isKind, here⟩ := (mem_pseudoIds_iff lockstep.coherent).1 alike.1
  obtain ⟨partner, alsoHeld, partners⟩ := lockstep.exists_held ⟨known, here⟩
  obtain rfl := alike.2.unique lockstep.coherent partners
  rw [pseudo_of_definition? known, pseudo_of_definition? alsoHeld.1]
  exact each id same definition ⟨known, here⟩ isKind alike.2

theorem keyed_partners {source : KeyedSource} (isSource : source ∈ KeyedSource.all) :
    List.Forall₂ (Draft.Partner (ctx.nodes.SameNode other.nodes)) (source.draft ctx)
      (source.draft other) := by
  rw [KeyedSource.draft, KeyedSource.draft, ← lockstep.build_eq]
  refine Draft.forall₂_after rfl fun index built =>
    lockstep.pseudos_partners fun id same definition held isKind alike => List.rel_append ?_ ?_
  · rw [← producers_of_keyed isSource isKind, ← producers_of_keyed isSource isKind]
    exact lockstep.producers_partners alike held
  · exact lockstep.feed_partners alike _ _ _ (lockstep.of_mem_index built)

theorem answer_partners :
    List.Forall₂ (Draft.Partner (ctx.nodes.SameNode other.nodes)) (Answer.draft ctx)
      (Answer.draft other) := by
  rw [Answer.draft, Answer.draft, ← lockstep.build_eq]
  refine Draft.forall₂_after rfl fun index built => List.rel_append ?_ ?_
  · refine lockstep.pseudos_partners fun id same definition held _ alike => List.rel_append ?_ ?_
    · exact lockstep.localProducers_partners alike held
    · exact lockstep.feed_partners alike _ _ _ (lockstep.of_mem_index built)
  · refine lockstep.pseudos_partners fun id same definition held _ alike => List.rel_append ?_ ?_
    · exact lockstep.load_partners alike _ _
    · rcases lockstep.find?_cases .answerLocal definition.key with
        ⟨here, there⟩ | ⟨answer, partner, here, there, _⟩
      · rw [here, there]
        exact lockstep.feed_partners alike _ _ _ (lockstep.of_mem_index built)
      · rw [here, there]
        exact .nil

theorem self_partners :
    List.Forall₂ (Draft.Partner (ctx.nodes.SameNode other.nodes)) (SelfValue.draft ctx)
      (SelfValue.draft other) := by
  rw [SelfValue.draft, SelfValue.draft, ← lockstep.references_eq]
  refine List.rel_flatMap (forall₂_eq_and_mem (ctx.references .selfValue)) ?_
  rintro entry _ ⟨rfl, member⟩
  obtain ⟨inside, known, _⟩ := mem_selecting_iff.1 member
  exact lockstep.selfReader_partners inside known

theorem item_partners :
    List.Forall₂ (Draft.Partner (ctx.nodes.SameNode other.nodes)) (Item.draft ctx)
      (Item.draft other) := by
  rw [Item.draft, Item.draft, ← lockstep.itemIndex_eq]
  refine lockstep.pseudos_partners fun id same definition held _ alike => List.rel_append ?_ ?_
  · exact lockstep.itemProducer_partners alike held
  · refine lockstep.feed_partners alike _ _ _ fun reader inside => ?_
    obtain ⟨⟨id, expression⟩, listed, keyed⟩ :=
      List.mem_filterMap.1 (ReferenceIndex.mem_get_ofKeys.1 inside)
    obtain ⟨key, _, pair⟩ := Option.map_eq_some_iff.1 keyed
    cases pair
    obtain ⟨member, known, _⟩ := mem_selecting_iff.1 listed
    exact ⟨lockstep.listed id (.inr member), expression, known⟩

theorem templateCheck_partners :
    List.Forall₂ (Draft.Partner (ctx.nodes.SameNode other.nodes)) ctx.templateCheck
      other.templateCheck := by
  have same : ctx.members.templateReferences.filterMap ctx.templateFault? =
      other.members.templateReferences.filterMap other.templateFault? := by
    rw [← lockstep.members]
    exact List.filterMap_congr fun id listed => lockstep.templateFault?_eq listed
  rw [templateCheck, templateCheck, ← same, List.forall₂_map_left_iff, List.forall₂_map_right_iff]
  exact List.forall₂_same.2 fun error _ => .error error error

/-- **The drafts of a step in both contexts go together entry by entry.** -/
theorem stepDraft_partners :
    List.Forall₂ (Draft.Partner (ctx.nodes.SameNode other.nodes)) (Pass.stepDraft ctx)
      (Pass.stepDraft other) := by
  have families : List.Forall₂ (· = ·) Family.all Family.all := List.forall₂_refl _
  refine List.rel_append lockstep.templateCheck_partners (List.rel_flatMap families ?_)
  rintro family _ rfl
  cases family with
  | post => exact lockstep.keyed_partners (by decide : KeyedSource.post ∈ KeyedSource.all)
  | query => exact lockstep.keyed_partners (by decide : KeyedSource.query ∈ KeyedSource.all)
  | params => exact lockstep.keyed_partners (by decide : KeyedSource.params ∈ KeyedSource.all)
  | data => exact lockstep.keyed_partners (by decide : KeyedSource.data ∈ KeyedSource.all)
  | answer => exact lockstep.answer_partners
  | selfValue => exact lockstep.self_partners
  | item => exact lockstep.item_partners

end Lockstep

end WiringContext

end FormFlow
