import FormFlow.Proofs.Wiring.Edges

/-!
# What edges carry

The same connection may be asked for several times with different metadata, as when a field has a
formatter twice. The edge carries the metadata that comes first. For an edge into a pseudo-node
that is the first in what fills the pseudo-node, wherever that stands in the draft of the step; for
an edge into a reference all metadata is the same (`WiringContext.carried_of_offer?`).
-/

set_option autoImplicit false

namespace FormFlow

open NodeSource

/-! ## Everything that a draft offers -/

namespace Draft

variable {P : Triple → EdgeMetadata → Prop}

/-- Whatever a draft offers is of a sort. -/
def Offering (P : Triple → EdgeMetadata → Prop) (draft : Draft) : Prop :=
  ∀ triple metadata, draft.offer? triple = some metadata → P triple metadata

theorem Offering.ofErrors {draft : Draft} (errors : ∀ c, .ok c ∉ draft) : draft.Offering P := by
  intro triple metadata offered
  obtain ⟨c, member, _⟩ := exists_of_offer? offered
  exact absurd member (errors c)

theorem Offering.nil : Offering P [] :=
  .ofErrors (by simp)

theorem Offering.append {first second : Draft} (one : first.Offering P)
    (two : second.Offering P) : (first ++ second).Offering P := by
  intro triple metadata offered
  rw [offer?_append, Option.or_eq_some_iff] at offered
  rcases offered with front | ⟨_, back⟩
  · exact one triple metadata front
  · exact two triple metadata back

theorem Offering.flatMap {α : Type} {items : List α} {draft : α → Draft}
    (each : ∀ item ∈ items, (draft item).Offering P) : Offering P (items.flatMap draft) := by
  intro triple metadata offered
  rw [offer?_flatMap] at offered
  obtain ⟨item, member, found⟩ := List.exists_of_findSome?_eq_some offered
  exact each item member triple metadata found

theorem Offering.after {α : Type} {value : Except WiringError α} {draft : α → Draft}
    (each : ∀ found, value = .ok found → (draft found).Offering P) :
    (Draft.after value draft).Offering P := by
  cases value with
  | ok found => exact each found rfl
  | error error => exact .ofErrors (by simp [Draft.after])

end Draft

/-! ## The draft of a step -/

namespace WiringContext

/-- What an edge of a step carries: the metadata that the producers of a pseudo-node give the
connection first, or the key of a pseudo-node and the namespace of the reference that reads it. -/
inductive Carried (ctx : WiringContext NodeStore) (triple : Triple) (metadata : EdgeMetadata) :
    Prop
  | fills (definition : Pseudo) (held : ctx.Holds triple.consumer definition)
      (filled : (ctx.producers triple.consumer definition).offer? triple = some metadata)
  | reads (definition : Pseudo) (expression : Reference) (space : Namespace)
      (held : ctx.Holds triple.producer definition)
      (known : ctx.expression? triple.consumer = some expression)
      (within : expression.isIn space = true)
      (same : metadata = ⟨some definition.key, none, some space⟩)

/-- A pseudo-node of a keyed source is filled as the source says. -/
theorem producers_of_keyed {σ : Type} [NodeSource σ] {ctx : WiringContext σ} {source : KeyedSource}
    (isSource : source ∈ KeyedSource.all) {id : NodeId} {definition : Pseudo}
    (isKind : definition.kind = source.kind) :
    ctx.producers id definition = source.producers ctx id definition.key := by
  rw [producers, isKind]
  simp only [KeyedSource.all, List.mem_cons, List.not_mem_nil, or_false] at isSource
  rcases isSource with rfl | rfl | rfl | rfl <;> rfl

variable {ctx : WiringContext NodeStore}

theorem offering_producers {id : NodeId} {definition : Pseudo} (held : ctx.Holds id definition) :
    (ctx.producers id definition).Offering ctx.Carried := by
  intro triple metadata offered
  obtain ⟨c, member, rfl, _⟩ := Draft.exists_of_offer? offered
  have leads : c.triple.consumer = id := ctx.producers_into id definition c member
  subst leads
  exact .fills definition held offered

theorem offering_feed {id : NodeId} {definition : Pseudo} (held : ctx.Holds id definition)
    (family : Family) {key : String} (keyed : key = definition.key) {space : Namespace}
    {readers : List NodeId} (read : ∀ reader ∈ readers, ∃ expression,
      ctx.expression? reader = some expression ∧ expression.isIn space = true) :
    (ctx.feed family id key space readers).Offering ctx.Carried := by
  intro triple metadata offered
  obtain ⟨rfl, inside, _, same⟩ := (ctx.offer?_feed ..).1 offered
  obtain ⟨expression, known, within⟩ := read _ inside
  exact .reads definition expression space held known within (keyed ▸ same)

theorem read_of_index {space : Namespace} {index : ReferenceIndex}
    (built : ReferenceIndex.build ctx space = .ok index) (key : String) :
    ∀ reader ∈ index.get key, ∃ expression, ctx.expression? reader = some expression ∧
      expression.isIn space = true := by
  intro reader member
  obtain ⟨expression, listed, _⟩ := (ReferenceIndex.mem_get_build built).1 member
  exact ⟨expression, (mem_selecting_iff.1 listed).2⟩

variable (coherent : ctx.nodes.Coherent)
include coherent

theorem offering_pseudos {kind : PseudoKind} {draft : NodeId → Pseudo → Draft}
    (each : ∀ id definition, ctx.Holds id definition → definition.kind = kind →
      (draft id definition).Offering ctx.Carried) :
    Draft.Offering ctx.Carried
      ((ctx.pseudoIds kind).flatMap fun id => Draft.after (ctx.pseudo id) (draft id)) := by
  refine .flatMap fun id listed => ?_
  obtain ⟨definition, known, isKind, here⟩ := (mem_pseudoIds_iff coherent).1 listed
  refine .after fun found same => ?_
  cases (pseudo_of_definition? known).symm.trans same
  exact each id definition ⟨known, here⟩ isKind

theorem offering_keyed {source : KeyedSource} (isSource : source ∈ KeyedSource.all) :
    (source.draft ctx).Offering ctx.Carried := by
  refine .after fun index built =>
    offering_pseudos coherent fun id definition held isKind => .append ?_ ?_
  · rw [← producers_of_keyed isSource isKind]
    exact offering_producers held
  · exact offering_feed held _ rfl (read_of_index built _)

theorem offering_answer : (Answer.draft ctx).Offering ctx.Carried := by
  refine .after fun index built => .append ?_ ?_
  · refine offering_pseudos coherent fun id definition held isKind => .append ?_ ?_
    · have filled := offering_producers held
      rwa [producers, isKind] at filled
    · exact offering_feed held _ rfl (read_of_index built _)
  · refine offering_pseudos coherent fun id definition held isKind => .append ?_ ?_
    · have filled := offering_producers held
      rwa [producers, isKind] at filled
    · split
      · exact .nil
      · exact offering_feed held _ rfl (read_of_index built _)

theorem offering_self : (SelfValue.draft ctx).Offering ctx.Carried := by
  refine .flatMap fun pair listed => ?_
  obtain ⟨id, expression⟩ := pair
  obtain ⟨_, known, within⟩ := mem_selecting_iff.1 listed
  simp only [SelfValue.reader]
  split
  · split
    · exact .ofErrors (by simp)
    · exact .nil
  · split
    · rename_i field _ answer found
      obtain ⟨definition, isOne, identity⟩ := (find?_eq_some_iff coherent).1 found
      refine offering_feed ⟨isOne, congrArg PseudoKey.scope identity⟩ _
        (congrArg PseudoKey.key identity).symm fun reader inside => ?_
      exact ⟨expression, List.mem_singleton.1 inside ▸ known, within⟩
    · exact .nil

theorem offering_item : (Item.draft ctx).Offering ctx.Carried := by
  refine offering_pseudos coherent fun id definition held isKind => .append ?_ ?_
  · have filled := offering_producers held
    rwa [producers, isKind] at filled
  · refine offering_feed held _ rfl fun reader inside => ?_
    obtain ⟨⟨id, expression⟩, listed, keyed⟩ :=
      List.mem_filterMap.1 (ReferenceIndex.mem_get_ofKeys.1 inside)
    obtain ⟨key, _, pair⟩ := Option.map_eq_some_iff.1 keyed
    cases pair
    exact ⟨expression, (mem_selecting_iff.1 listed).2⟩

/-- **What a step offers for a connection is what its edge carries.** -/
theorem carried_of_offer? : (Pass.stepDraft ctx).Offering ctx.Carried := by
  refine .append (.ofErrors ?_) (.flatMap fun family _ => ?_)
  · intro c member
    obtain ⟨_, _, isError⟩ := List.mem_map.1 member
    cases isError
  · cases family with
    | post => exact offering_keyed coherent (by decide : KeyedSource.post ∈ KeyedSource.all)
    | query => exact offering_keyed coherent (by decide : KeyedSource.query ∈ KeyedSource.all)
    | params => exact offering_keyed coherent (by decide : KeyedSource.params ∈ KeyedSource.all)
    | data => exact offering_keyed coherent (by decide : KeyedSource.data ∈ KeyedSource.all)
    | answer => exact offering_answer coherent
    | selfValue => exact offering_self coherent
    | item => exact offering_item coherent

end WiringContext

end FormFlow
