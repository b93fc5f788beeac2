import FormFlow.Proofs.Form.Renumbering
import FormFlow.Proofs.Wiring.Edges
import FormFlow.Proofs.Wiring.Faultless

/-!
# Wiring renumbered nodes

If a source is renumbered in another one, and the pseudo-nodes with it, then a reference reads what
it read (`Pass.readOf?_renumbered`) and a pseudo-node is filled by what filled it
(`WiringContext.producers_renumbered`), all under the new identifiers.

Identities hold one identifier of a node besides the scope: the key of an item is made of the number
of its collection (`PseudoKey.Renumbered`), and so is the code of an edge from an item
(`EdgeMetadata.Renumbered`).
-/

set_option autoImplicit false

namespace FormFlow

open NodeSource

/-- The key of an item tells the collection, and the index of an iteration. -/
theorem itemKey_inj {collection other : NodeId} {index position : Option Nat}
    (same : itemKey collection index = itemKey other position) :
    collection = other ∧ index = position := by
  cases position with
  | none => exact itemKey_eq_none same
  | some position =>
    cases index with
    | none =>
      obtain ⟨_, ⟨⟩⟩ := itemKey_eq_none same.symm
    | some index =>
      have spelled : ∀ (id : NodeId) (index : Nat), (itemKey id (some index)).toList =
          Nat.toDigits 10 id.val ++ '#' :: Nat.toDigits 10 index := by
        intro id index
        rw [← NodeId.toList_text, ← NodeId.toList_text ⟨index⟩]
        simp [itemKey, NodeId.text]
      have letters := congrArg String.toList same
      rw [spelled, spelled] at letters
      obtain ⟨first, second⟩ := toDigits_append_inj (by decide) letters
      exact ⟨congrArg NodeId.mk first, congrArg some (toDigits_inj second)⟩

/-- One identity is another under new identifiers: the key of an item names the collection under
its new one, and every other key is the same. -/
structure PseudoKey.Renumbered (place : NodeId → NodeId) (identity other : PseudoKey) : Prop where
  kind : other.kind = identity.kind
  scope : other.scope = identity.scope
  key : identity.kind ≠ .item → other.key = identity.key
  item : identity.kind = .item → ∃ collection index,
    identity.key = itemKey collection index ∧ other.key = itemKey (place collection) index

namespace PseudoKey.Renumbered

variable {place : NodeId → NodeId} {identity other another : PseudoKey}

theorem ofKeyed (keyed : identity.kind ≠ .item) : Renumbered place identity identity :=
  ⟨rfl, rfl, fun _ => rfl, fun isItem => absurd isItem keyed⟩

/-- Identities other than those of items stay. -/
theorem eq_of_keyed (renumbered : Renumbered place identity other) (keyed : identity.kind ≠ .item) :
    other = identity := by
  obtain ⟨kind, scope, key, _⟩ := renumbered
  cases identity
  cases other
  simp_all

theorem unique (one : Renumbered place identity other) (two : Renumbered place identity another) :
    other = another := by
  by_cases isItem : identity.kind = .item
  · obtain ⟨collection, index, known, key⟩ := one.item isItem
    obtain ⟨again, position, same, other_⟩ := two.item isItem
    obtain ⟨rfl, rfl⟩ := itemKey_inj (known.symm.trans same)
    have kinds := one.kind.trans two.kind.symm
    have scopes := one.scope.trans two.scope.symm
    have keys := key.trans other_.symm
    cases other
    cases another
    simp_all
  · rw [one.eq_of_keyed isItem, two.eq_of_keyed isItem]

end PseudoKey.Renumbered

/-- What an edge carries, and what it carries under new identifiers: the code on an edge from an
item to a reference is the key of the item. -/
structure EdgeMetadata.Renumbered (place : NodeId → NodeId) (metadata other : EdgeMetadata) :
    Prop where
  property : other.property = metadata.property
  reference : other.reference = metadata.reference
  code : metadata.reference ≠ some .item → other.fieldCode = metadata.fieldCode
  item : metadata.reference = some .item → ∃ collection index,
    metadata.fieldCode = some (itemKey collection index) ∧
      other.fieldCode = some (itemKey (place collection) index)

theorem EdgeMetadata.Renumbered.ofKeyed {place : NodeId → NodeId} {metadata : EdgeMetadata}
    (keyed : metadata.reference ≠ some .item) : metadata.Renumbered place metadata :=
  ⟨rfl, rfl, fun _ => rfl, fun isItem => absurd isItem keyed⟩

theorem EdgeMetadata.Renumbered.symm_of_keyed {place back : NodeId → NodeId}
    {metadata other : EdgeMetadata} (renumbered : metadata.Renumbered place other)
    (keyed : other.reference ≠ some .item) : other.Renumbered back metadata := by
  have same := renumbered.reference
  exact ⟨renumbered.property.symm, same.symm, fun _ => (renumbered.code (same ▸ keyed)).symm,
    fun isItem => absurd isItem keyed⟩

/-- The item of a renumbered collection or iteration. -/
theorem Item.keyOfKind?_renumbered {place : NodeId → NodeId} {node other : Node}
    (renumbered : node.Renumbered place other) (step : NodeId) :
    Option.Rel (PseudoKey.Renumbered place)
      ((keyOfKind? node.id node.kind).map fun key => ⟨.item, step, key⟩)
      ((keyOfKind? other.id other.kind).map fun key => ⟨.item, step, key⟩) := by
  obtain ⟨id, _, kind⟩ := renumbered
  rw [id]
  generalize node.kind = one at kind ⊢
  generalize other.kind = two at kind ⊢
  cases kind with
  | collection definition =>
    exact .some ⟨rfl, rfl, fun keyed => absurd rfl keyed, fun _ => ⟨node.id, none, rfl, rfl⟩⟩
  | iteration collection index =>
    exact .some ⟨rfl, rfl, fun keyed => absurd rfl keyed,
      fun _ => ⟨collection, some index, rfl, rfl⟩⟩
  | _ => exact .none

/-! ## What is read -/

namespace Pass

section

variable {σ τ : Type} [NodeSource σ] [NodeSource τ] {made : σ} {nodes : τ} {step : NodeId}
  {node : Node} {expression : Reference} {identity : PseudoKey}

theorem kind_of_selfOf? (reads : selfOf? nodes step node = some identity) :
    identity.kind = .answerLocal := by
  simp only [selfOf?, Option.bind_eq_bind, Option.bind_eq_some_iff, Option.pure_def,
    Option.some.injEq] at reads
  obtain ⟨_, _, _, _, rfl⟩ := reads
  rfl

theorem kind_of_itemOf? (reads : itemOf? nodes step node = some identity) :
    identity.kind = .item := by
  simp only [itemOf?, Option.bind_eq_bind, Option.bind_eq_some_iff] at reads
  obtain ⟨outer, _, keyed⟩ := reads
  split at keyed
  · cases keyed
  · obtain ⟨_, _, rfl⟩ := Option.map_eq_some_iff.1 keyed
    rfl

theorem kind_of_identityOf? {space : Namespace} {key : String}
    (stands : identityOf? made step space key = some identity) : identity.kind ≠ .item := by
  cases space with
  | answers =>
    simp only [identityOf?] at stands
    split at stands <;> cases stands <;> rintro ⟨⟩
  | post | query | params | data =>
    cases stands
    rintro ⟨⟩
  | selfValue | item => cases stands

/-- What a reference reads is an item exactly if it is a reference to the item. -/
theorem isItem_of_readOf? (reads : readOf? made nodes step node expression = some identity) :
    identity.kind = .item ↔ expression.selected? = some .item := by
  simp only [readOf?] at reads
  split at reads
  case h_1 => cases reads
  case h_2 selected => exact iff_of_true (kind_of_itemOf? reads) selected
  case h_3 selected =>
    refine iff_of_false ?_ (by rw [selected]; decide)
    split at reads
    · cases reads
    · rw [kind_of_selfOf? reads]
      decide
  case h_4 keyed _ selected =>
    refine iff_of_false ?_ fun item => keyed (Option.some.inj (selected.symm.trans item))
    split at reads
    · cases reads
    · obtain ⟨key, _, stands⟩ := Option.bind_eq_some_iff.1 reads
      exact kind_of_identityOf? stands

end

section

variable {σ τ : Type} [NodeSource σ] [NodeSource τ] [LawfulSource σ] [LawfulSource τ]
  {earlier : σ} {later : τ} {place : NodeId → NodeId}
  (renumbers : Renumbering earlier later place) (before : Upright earlier) (after : Upright later)
  {id : NodeId} {node other : Node} (found : node? earlier id = some node)
  (plain : node.kind.pseudo? = none) (there : node? later (place id) = some other)
include renumbers before after found plain there

/-- The field around a node has the same code. -/
theorem selfOf?_renumbered (step : NodeId) :
    selfOf? later step other = selfOf? earlier step node := by
  have around : Option.Rel (Node.Renumbered place)
      (enclosingAbove? earlier node NodeKind.isField)
      (enclosingAbove? later other NodeKind.isField) :=
    renumbers.enclosingAbove? before after found plain there fun _ _ same => same.isField_eq
  simp only [selfOf?]
  generalize enclosingAbove? earlier node NodeKind.isField = one at around ⊢
  generalize enclosingAbove? later other NodeKind.isField = two at around ⊢
  cases around with
  | none => rfl
  | @some outer far same =>
    obtain ⟨_, _, kind⟩ := same
    simp only [Option.bind_eq_bind, Option.bind_some]
    generalize outer.kind = one at kind ⊢
    generalize far.kind = two at kind ⊢
    cases kind <;> rfl

theorem itemOf?_renumbered (step : NodeId) : Option.Rel (PseudoKey.Renumbered place)
    (itemOf? earlier step node) (itemOf? later step other) := by
  have around := renumbers.repeatedAbove? before after found plain there
  have outside : ∀ outer, repeatedAbove? earlier node = some outer →
      node? earlier outer.id = some outer := fun _ above => (node?_of_enclosingAbove? above).1
  have beyond : ∀ outer, repeatedAbove? later other = some outer →
      node? later outer.id = some outer := fun _ above => (node?_of_enclosingAbove? above).1
  simp only [itemOf?]
  generalize repeatedAbove? earlier node = one at around outside ⊢
  generalize repeatedAbove? later other = two at around beyond ⊢
  cases around with
  | none => exact .none
  | @some outer far same =>
    have present := outside outer rfl
    have seen := beyond far rfl
    rw [same.id] at seen
    have waits := renumbers.awaitsIteration_eq before after present same.kind.pseudo?_eq.1 seen
    simp only [Option.bind_eq_bind, Option.bind_some]
    rw [waits]
    split
    · exact .none
    · exact Item.keyOfKind?_renumbered same step

/-- A renumbered reference that does not read an item reads what it read, if the same answers are
local. -/
theorem readOf?_eq_of_keyed (step : NodeId) {expression : Reference}
    (keyed : expression.selected? ≠ some .item)
    (locals : ∀ key, HasPseudo later ⟨.answerLocal, step, key⟩ ↔
      HasPseudo earlier ⟨.answerLocal, step, key⟩) :
    readOf? later later step other expression = readOf? earlier earlier step node expression := by
  have answers : identityOf? later step .answers = identityOf? earlier step .answers := by
    funext key
    have same : (pseudo? later ⟨.answerLocal, step, key⟩).isSome =
        (pseudo? earlier ⟨.answerLocal, step, key⟩).isSome := by
      rw [Bool.eq_iff_iff, Option.isSome_iff_exists, Option.isSome_iff_exists]
      exact locals key
    simp only [identityOf?, same]
  simp only [readOf?]
  rw [renumbers.inOpenTemplate_eq before after found plain there]
  cases selected : expression.selected? with
  | none => rfl
  | some space =>
    cases space with
    | item => exact absurd selected keyed
    | selfValue =>
      dsimp only
      rw [selfOf?_renumbered renumbers before after found plain there step]
    | answers =>
      dsimp only
      rw [answers]
    | post | query | params | data => rfl

/-- **A renumbered reference reads what it read**, if the same answers are local. -/
theorem readOf?_renumbered (step : NodeId) (expression : Reference)
    (locals : ∀ key, HasPseudo later ⟨.answerLocal, step, key⟩ ↔
      HasPseudo earlier ⟨.answerLocal, step, key⟩) :
    Option.Rel (PseudoKey.Renumbered place) (readOf? earlier earlier step node expression)
      (readOf? later later step other expression) := by
  by_cases item : expression.selected? = some .item
  · simp only [readOf?, item]
    exact itemOf?_renumbered renumbers before after found plain there step
  · rw [readOf?_eq_of_keyed renumbers before after found plain there step item locals]
    cases reads : readOf? earlier earlier step node expression with
    | none => exact .none
    | some identity =>
      exact .some (.ofKeyed fun isItem => item ((isItem_of_readOf? reads).1 isItem))

end

section

variable {σ τ : Type} [NodeSource σ] [NodeSource τ] {made : σ} {nodes : τ} {step : NodeId}
  {node : Node} {expression : Reference} {identity : PseudoKey}

/-- What a reference is bound to is found under its new identifier. -/
theorem binds_renumbered {earlier : σ} {later : τ} {place : NodeId → NodeId}
    {identity? other? : Option PseudoKey} {id : NodeId} {triple : Triple} {metadata : EdgeMetadata}
    (renumbered : Option.Rel (PseudoKey.Renumbered place) identity? other?)
    (isItem : ∀ identity, identity? = some identity →
      (identity.kind = .item ↔ expression.selected? = some .item))
    (finds : ∀ identity other, identity? = some identity → identity.Renumbered place other →
      pseudo? earlier identity = some triple.producer →
        pseudo? later other = some (place triple.producer))
    (binds : Binds earlier id expression identity? triple metadata) :
    ∃ image, Binds later (place id) expression other?
        ⟨place triple.producer, place triple.consumer, triple.role⟩ image ∧
      metadata.Renumbered place image := by
  obtain ⟨identity, rfl, found, rfl, role, rfl⟩ := binds
  cases renumbered with
  | some same =>
    rename_i other
    refine ⟨⟨some other.key, none, expression.selected?⟩,
      ⟨other, rfl, finds identity other rfl same found, rfl, role, rfl⟩, rfl, rfl, ?_, ?_⟩
    · intro keyed
      exact congrArg some (same.key fun item => keyed ((isItem identity rfl).1 item))
    · intro selected
      obtain ⟨collection, index, known, key⟩ := same.item ((isItem identity rfl).2 selected)
      exact ⟨collection, index, congrArg some known, congrArg some key⟩

end

end Pass

/-! ## What fills a pseudo-node -/

/-- A connection under new identifiers. -/
def Connection.renumber (place : NodeId → NodeId) (c : Connection) : Connection :=
  { c with producer := place c.producer, consumer := place c.consumer }

namespace Draft

/-- A draft under new identifiers. -/
def renumber (place : NodeId → NodeId) (draft : Draft) : Draft :=
  draft.map (Except.map (Connection.renumber place))

theorem renumber_append (place : NodeId → NodeId) (first second : Draft) :
    (first ++ second).renumber place = first.renumber place ++ second.renumber place :=
  List.map_append

theorem renumber_id (draft : Draft) : draft.renumber id = draft := by
  refine (List.map_congr_left fun entry _ => ?_).trans (List.map_id draft)
  cases entry <;> rfl

/-- A draft offers under new identifiers what it offered, if no other producer of it is given the
new identifier. -/
theorem offer?_renumber {place : NodeId → NodeId} {draft : Draft} {triple : Triple}
    (into : draft.Into triple.consumer)
    (apart : ∀ c, .ok c ∈ draft → place c.producer = place triple.producer →
      c.producer = triple.producer) :
    (draft.renumber place).offer?
        ⟨place triple.producer, place triple.consumer, triple.role⟩ = draft.offer? triple := by
  rw [renumber, offer?, offer?, List.findSome?_map]
  refine findSome?_congr fun entry member => ?_
  cases entry with
  | error error => rfl
  | ok c =>
    have consumer := into c member
    have same : (c.renumber place).triple =
        ⟨place triple.producer, place triple.consumer, triple.role⟩ ↔ c.triple = triple := by
      obtain ⟨producer, reader, role⟩ := triple
      simp only [Connection.renumber, Connection.triple, Triple.mk.injEq] at consumer apart ⊢
      constructor
      · rintro ⟨producers, _, roles⟩
        exact ⟨apart c member producers, consumer, roles⟩
      · rintro ⟨producers, _, roles⟩
        exact ⟨congrArg place producers, congrArg place consumer, roles⟩
    change (if (c.renumber place).triple = _ then some (c.renumber place).metadata else none) =
      if c.triple = triple then some c.metadata else none
    simp only [same]
    rfl

/-- If a draft is the same again under the old identifiers, its producers are. -/
theorem restored {place back : NodeId → NodeId} {draft : Draft}
    (same : (draft.renumber place).renumber back = draft) {c : Connection}
    (member : .ok c ∈ draft) : back (place c.producer) = c.producer := by
  rw [renumber, renumber, List.map_map] at same
  have each := List.map_inj_left.1 (same.trans (List.map_id draft).symm) _ member
  exact congrArg Connection.producer (Except.ok.inj each)

end Draft

/-- What a pseudo-node was made for is there, and the submitted value of a field with it. -/
structure Fillable {σ : Type} [NodeSource σ] (nodes : σ) (definition : Pseudo) : Prop where
  answer : definition.kind = .answerLocal → ∃ origin node field, definition.origin = some origin ∧
    node? nodes origin = some node ∧ node.kind = .field field ∧
      HasPseudo nodes ⟨.post, definition.scope, definition.key⟩
  item : definition.kind = .item → ∃ origin node, definition.origin = some origin ∧
    node? nodes origin = some node ∧ Item.keyOfKind? origin node.kind = some definition.key

theorem Fillable.later {σ τ : Type} [NodeSource σ] [NodeSource τ] {earlier : σ} {later : τ}
    {definition : Pseudo} (fillable : Fillable earlier definition) (shown : Shows earlier later) :
    Fillable later definition := by
  refine ⟨fun answer => ?_, fun item => ?_⟩
  · obtain ⟨origin, node, field, made, found, isField, has⟩ := fillable.answer answer
    exact ⟨origin, node, field, made, shown.node _ _ found, isField, shown.hasPseudo has⟩
  · obtain ⟨origin, node, made, found, keyed⟩ := fillable.item item
    exact ⟨origin, node, made, shown.node _ _ found, keyed⟩

/-- An item has the key of a collection that is there, or of one of its iterations. -/
theorem Fillable.exists_collection {σ : Type} [NodeSource σ] (ctx : WiringContext σ) (id : NodeId)
    {definition : Pseudo} (fillable : Fillable ctx.nodes definition)
    (placed : WellPlaced ctx.nodes) (isItem : definition.kind = .item) :
    ∃ collection index top inner, Item.collectionOf ctx id definition = .ok (collection, index) ∧
      definition.key = itemKey collection index ∧ node? ctx.nodes collection = some top ∧
      top.kind = .collection inner := by
  obtain ⟨origin, outer, made, there, keyed⟩ := fillable.item isItem
  simp only [Item.collectionOf]
  rw [made]
  dsimp only
  rw [there]
  cases shape : outer.kind with
  | collection inner =>
    rw [shape] at keyed
    exact ⟨origin, none, outer, inner, by dsimp only; rw [shape], (Option.some.inj keyed).symm,
      there, shape⟩
  | iteration collection index =>
    rw [shape] at keyed
    obtain ⟨_, top, known, isCollection, _⟩ :=
      (placed.stands origin outer there).iteration collection index shape
    obtain ⟨inner, kind⟩ := NodeKind.isCollection_iff.1 isCollection
    exact ⟨collection, some index, top, inner, by dsimp only; rw [shape],
      (Option.some.inj keyed).symm, known, kind⟩
  | _ =>
    rw [shape] at keyed
    cases keyed

namespace WiringContext

variable {σ τ : Type} {ctx : WiringContext σ} {other : WiringContext τ} {place : NodeId → NodeId}
  (scopes : other.scopes = ctx.scopes) (steps : other.step = ctx.step)
  (loads : ∀ transition, ctx.scopes.lastLoadFrom? ctx.step = some transition →
    place transition = transition) (id : NodeId)

theorem formatters_renumbered (code : String) (position : Nat) (ids : List NodeId) :
    Answer.formatters other (place id) code position (ids.map place) =
      (Answer.formatters ctx id code position ids).renumber place := by
  induction ids generalizing position with
  | nil => rfl
  | cons formatter rest ih =>
    rw [List.map_cons, Answer.formatters, Answer.formatters, Draft.renumber_append, ih]
    rfl

include scopes steps loads

theorem load_renumbered (family : Family) (key : String) :
    other.load family (place id) key = (ctx.load family id key).renumber place := by
  rw [load, load, scopes, steps]
  cases serves : ctx.scopes.lastLoadFrom? ctx.step with
  | none => rfl
  | some transition =>
    have same := loads transition serves
    simp only [Draft.renumber, Connection.renumber, List.map_cons, List.map_nil, Except.map]
    rw [same]

variable [NodeSource σ] [NodeSource τ] (renumbers : Renumbering ctx.nodes other.nodes place)
  {definition image : Pseudo} (same : definition.toPseudoKey.Renumbered place image.toPseudoKey)
include renumbers same

omit scopes steps loads in
/-- The source of a renumbered collection fills its item. -/
theorem itemProducer_renumbered (isItem : definition.kind = .item)
    (fillable : Fillable ctx.nodes definition) (filled : Fillable other.nodes image)
    (placed : WellPlaced ctx.nodes) (well : WellPlaced other.nodes) :
    Item.producer other (place id) image = (Item.producer ctx id definition).renumber place := by
  obtain ⟨collection, index, top, inner, found, key, present, shape⟩ :=
    fillable.exists_collection ctx id placed isItem
  obtain ⟨next, position, _, _, found', key', _⟩ :=
    filled.exists_collection other (place id) well (same.kind.trans isItem)
  obtain ⟨known, index', first, second⟩ := same.item isItem
  obtain ⟨rfl, rfl⟩ := itemKey_inj (key.symm.trans first)
  obtain ⟨rfl, rfl⟩ := itemKey_inj (key'.symm.trans second)
  obtain ⟨far, seen, renumbered⟩ := renumbers.node _ _ present (by rw [shape]; rfl)
  have kind := renumbered.kind
  rw [shape] at kind
  have defined : Item.definitionOf ctx collection = .ok inner := by
    rw [Item.definitionOf, get_of_found present]
    dsimp only [bind, Except.bind]
    rw [shape]
    rfl
  have defined' : Item.definitionOf other (place collection) =
      .ok { inner with source := inner.source.map place } := by
    rw [Item.definitionOf, get_of_found seen]
    dsimp only [bind, Except.bind]
    generalize far.kind = kinds at kind
    cases kind
    rfl
  rw [Item.producer, Item.producer, found, found']
  dsimp only [Draft.after]
  rw [defined, defined']
  dsimp only
  cases inner.source <;> rfl

/-- A local answer that is made for the same field is filled in the same way. -/
theorem localProducers_renumbered (here : definition.scope = ctx.step)
    (isLocal : definition.kind = .answerLocal) (fillable : Fillable ctx.nodes definition)
    (origin : image.origin = definition.origin.map place)
    (posts : ∀ submitted, pseudo? ctx.nodes ⟨.post, ctx.step, definition.key⟩ = some submitted →
      pseudo? other.nodes ⟨.post, ctx.step, definition.key⟩ = some (place submitted)) :
    Answer.localProducers other (place id) image =
      (Answer.localProducers ctx id definition).renumber place := by
  obtain ⟨source, node, field, made, present, isField, submitted, posted⟩ :=
    fillable.answer isLocal
  rw [made, Option.map_some] at origin
  rw [here] at posted
  have posted' := posts submitted posted
  rw [← steps] at posted'
  obtain ⟨far, seen, renumbered⟩ := renumbers.node _ _ present (by rw [isField]; rfl)
  have shape := renumbered.kind
  rw [isField] at shape
  have own : Answer.originField ctx id definition = .ok field := by
    rw [Answer.originField, made]
    dsimp only
    rw [present]
    dsimp only
    rw [isField]
    rfl
  have own' : Answer.originField other (place id) image =
      .ok { field with
        formatters := field.formatters.map place
        defaultValue := field.defaultValue.map place } := by
    rw [Answer.originField, origin]
    dsimp only
    rw [seen]
    dsimp only
    generalize far.kind = kinds at shape
    cases shape
    rfl
  rw [Answer.localProducers, Answer.localProducers, own, own',
    same.key (by rw [isLocal]; decide)]
  dsimp only [Draft.after]
  rw [Answer.fieldProducers, Answer.fieldProducers, load_renumbered scopes steps loads id,
    @formatters_renumbered _ _ ctx]
  simp only [find?, posted, posted', Draft.renumber_append]
  cases field.defaultValue <;> rfl

/-- **A renumbered pseudo-node is filled by what filled it**, if it was made for the same node and
the submitted value of its field is renumbered too. -/
theorem producers_renumbered (here : definition.scope = ctx.step)
    (fillable : Fillable ctx.nodes definition) (filled : Fillable other.nodes image)
    (placed : WellPlaced ctx.nodes) (well : WellPlaced other.nodes)
    (origin : definition.kind = .answerLocal → image.origin = definition.origin.map place)
    (posts : ∀ submitted, pseudo? ctx.nodes ⟨.post, ctx.step, definition.key⟩ = some submitted →
      pseudo? other.nodes ⟨.post, ctx.step, definition.key⟩ = some (place submitted)) :
    other.producers (place id) image = (ctx.producers id definition).renumber place := by
  have load := load_renumbered scopes steps loads id
  have key := same.key
  rw [producers, producers, same.kind]
  cases kind : definition.kind with
  | item => exact itemProducer_renumbered id renumbers same kind fillable filled placed well
  | answerLocal =>
    exact localProducers_renumbered scopes steps loads id renumbers same here kind fillable
      (origin kind) posts
  | post | query | params => rfl
  | data =>
    rw [key (by rw [kind]; decide)]
    exact load .data definition.key
  | answerRemote =>
    rw [key (by rw [kind]; decide)]
    exact load .answer definition.key

end WiringContext

end FormFlow
