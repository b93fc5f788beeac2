import FormFlow.Proofs.Wiring.Carried
import FormFlow.Proofs.Wiring.Origins
import FormFlow.Proofs.Wiring.Producers

/-!
# The same connections between other identifiers

Two stores may hold the same pseudo-nodes under other identifiers (`NodeStore.SameNode`). If what a
step sees in them is the same otherwise (`WiringContext.Mirrors`), then whatever is in the draft of
the step in one has its partner in the other: an error an error, and a connection one between the
same nodes with the same role and metadata (`WiringContext.Mirrors.stepDraft_maps`).
-/

set_option autoImplicit false

namespace FormFlow

open NodeSource

namespace NodeStore

/-- The properties of a node, if it is a pseudo-node. -/
def pseudoAt? (store : NodeStore) (id : NodeId) : Option Pseudo :=
  (store.node? id).bind fun node => node.kind.pseudo?

/-- A node, if it is no pseudo-node. -/
def plain? (store : NodeStore) (id : NodeId) : Option Node :=
  (store.node? id).filter fun node => node.kind.pseudo?.isNone

/-- Identifiers of one node in two stores: of the pseudo-nodes with an identity, or an identifier
that is of no pseudo-node in either. -/
inductive SameNode (store other : NodeStore) : NodeId → NodeId → Prop
  | pseudo {id same : NodeId} (identity : PseudoKey) (here : store.pseudo? identity = some id)
      (there : other.pseudo? identity = some same) : SameNode store other id same
  | plain {id : NodeId} (here : store.pseudoAt? id = none) (there : other.pseudoAt? id = none) :
      SameNode store other id id

variable {store other : NodeStore}

theorem SameNode.symm {id same : NodeId} (alike : SameNode store other id same) :
    SameNode other store same id := by
  cases alike with
  | pseudo identity here there => exact .pseudo identity there here
  | plain here there => exact .plain there here

theorem pseudoAt?_of_pseudo? (coherent : store.Coherent) {identity : PseudoKey} {id : NodeId}
    (found : store.pseudo? identity = some id) :
    ∃ definition, store.pseudoAt? id = some definition ∧ definition.toPseudoKey = identity := by
  obtain ⟨node, present, identified⟩ := (pseudo?_eq_some_iff coherent).1 found
  obtain ⟨definition, isPseudo, same⟩ := Option.map_eq_some_iff.1 identified
  exact ⟨definition, Option.bind_eq_some_iff.2 ⟨node, present, isPseudo⟩, same⟩

theorem pseudo?_of_pseudoAt? (coherent : store.Coherent) {definition : Pseudo} {id : NodeId}
    (found : store.pseudoAt? id = some definition) :
    store.pseudo? definition.toPseudoKey = some id := by
  obtain ⟨node, present, isPseudo⟩ := Option.bind_eq_some_iff.1 found
  exact (pseudo?_eq_some_iff coherent).2 ⟨node, present, by rw [Node.identity?, isPseudo]; rfl⟩

/-- A node is the same as one node only. -/
theorem SameNode.unique (coherent : store.Coherent) {id same another : NodeId}
    (one : SameNode store other id same) (two : SameNode store other id another) :
    same = another := by
  cases one with
  | pseudo identity here there =>
    obtain ⟨definition, known, named⟩ := pseudoAt?_of_pseudo? coherent here
    cases two with
    | pseudo again alsoHere alsoThere =>
      obtain ⟨definition', known', named'⟩ := pseudoAt?_of_pseudo? coherent alsoHere
      cases known.symm.trans known'
      rw [← named', named, there] at alsoThere
      exact Option.some.inj alsoThere
    | plain alsoHere _ => cases known.symm.trans alsoHere
  | plain here there =>
    cases two with
    | pseudo again alsoHere _ =>
      obtain ⟨definition, known, _⟩ := pseudoAt?_of_pseudo? coherent alsoHere
      cases here.symm.trans known
    | plain _ _ => rfl

/-- Identifiers of the same nodes stand for each other one to one. -/
theorem SameNode.biunique (coherent : store.Coherent) (otherCoherent : other.Coherent)
    {id another same like : NodeId} (one : SameNode store other id same)
    (two : SameNode store other another like) : id = another ↔ same = like :=
  ⟨fun equal => one.unique coherent (equal ▸ two),
    fun equal => one.symm.unique otherCoherent (equal ▸ two.symm)⟩

/-- If an identity has the same pseudo-node in both stores, then the same node is the same
pseudo-node. -/
theorem SameNode.pseudoAt?
    (definitions : ∀ identity, store.definition? identity = other.definition? identity)
    {id same : NodeId} (alike : SameNode store other id same) {definition : Pseudo}
    (known : store.pseudoAt? id = some definition) : other.pseudoAt? same = some definition := by
  cases alike with
  | plain here _ => cases here.symm.trans known
  | pseudo identity here there =>
    have one : store.definition? identity = some definition := by
      rw [NodeStore.definition?, here]
      exact known
    rw [definitions, NodeStore.definition?, there] at one
    exact one

/-- What is read off nodes that are no pseudo-nodes. -/
theorem bind_node?_eq_plain? {α : Type} {view : NodeKind → Option α}
    (void : ∀ definition, view (.pseudo definition) = none) (id : NodeId) :
    ((store.node? id).bind fun node => view node.kind) =
      (store.plain? id).bind fun node => view node.kind := by
  rw [plain?]
  cases store.node? id with
  | none => rfl
  | some node =>
    rw [Option.filter_some]
    cases kind : node.kind with
    | pseudo definition => simp [kind, void, NodeKind.pseudo?]
    | _ => simp [NodeKind.pseudo?]

end NodeStore

/-! ## Drafts with the same entries -/

theorem Triple.eq_iff {one other : Triple} : one = other ↔ one.producer = other.producer ∧
    one.consumer = other.consumer ∧ one.role = other.role := by
  obtain ⟨_, _, _⟩ := one
  rw [Triple.mk.injEq]

namespace Draft

variable {Same : NodeId → NodeId → Prop}

/-- An entry of one draft and its like in another. -/
inductive Partner (Same : NodeId → NodeId → Prop) :
    Except WiringError Connection → Except WiringError Connection → Prop
  | error (error other : WiringError) : Partner Same (.error error) (.error other)
  | ok {c other : Connection} (producer : Same c.producer other.producer)
      (consumer : Same c.consumer other.consumer) (role : c.role = other.role)
      (metadata : c.metadata = other.metadata) : Partner Same (.ok c) (.ok other)

/-- Every entry of a draft has its partner in another. -/
def Maps (Same : NodeId → NodeId → Prop) (draft other : Draft) : Prop :=
  ∀ entry ∈ draft, ∃ partner ∈ other, Partner Same entry partner

theorem Maps.nil (other : Draft) : Maps Same [] other := nofun

theorem Maps.ofForall₂ {draft other : Draft} (all : List.Forall₂ (Partner Same) draft other) :
    draft.Maps Same other := by
  induction all with
  | nil => exact .nil _
  | cons first rest ih =>
    intro entry member
    rcases List.mem_cons.1 member with rfl | later
    · exact ⟨_, List.mem_cons_self .., first⟩
    · obtain ⟨partner, there, alike⟩ := ih entry later
      exact ⟨partner, List.mem_cons_of_mem _ there, alike⟩

theorem Maps.append {first second other another : Draft} (one : first.Maps Same other)
    (two : second.Maps Same another) : (first ++ second).Maps Same (other ++ another) := by
  intro entry member
  rcases List.mem_append.1 member with front | back
  · obtain ⟨partner, there, alike⟩ := one entry front
    exact ⟨partner, List.mem_append_left _ there, alike⟩
  · obtain ⟨partner, there, alike⟩ := two entry back
    exact ⟨partner, List.mem_append_right _ there, alike⟩

theorem Maps.flatMap {α β : Type} {items : List α} {others : List β} {draft : α → Draft}
    {other : β → Draft} (each : ∀ item ∈ items, ∃ like ∈ others,
      (draft item).Maps Same (other like)) :
    Maps Same (items.flatMap draft) (others.flatMap other) := by
  intro entry member
  obtain ⟨item, listed, inside⟩ := List.mem_flatMap.1 member
  obtain ⟨like, there, maps⟩ := each item listed
  obtain ⟨partner, drafted, alike⟩ := maps entry inside
  exact ⟨partner, List.mem_flatMap.2 ⟨like, there, drafted⟩, alike⟩

/-- Drafts that need a value, if one can be had where the other can. -/
theorem Maps.after {α β : Type} {value : Except WiringError α} {other : Except WiringError β}
    {draft : α → Draft} {another : β → Draft}
    (had : ∀ found, other = .ok found → ∃ found, value = .ok found)
    (maps : ∀ found, value = .ok found → ∃ like, other = .ok like ∧
      (draft found).Maps Same (another like)) :
    Maps Same (after value draft) (after other another) := by
  cases value with
  | ok found =>
    obtain ⟨like, rfl, inside⟩ := maps found rfl
    exact inside
  | error error =>
    cases other with
    | ok like =>
      obtain ⟨found, ⟨⟩⟩ := had like rfl
    | error other =>
      exact .ofForall₂ (.cons (.error error other) .nil)

theorem forall₂_after {α : Type} {value other : Except WiringError α}
    {draft another : α → Draft} (same : value.toOption = other.toOption)
    (each : ∀ found, value.toOption = some found →
      List.Forall₂ (Partner Same) (draft found) (another found)) :
    List.Forall₂ (Partner Same) (after value draft) (after other another) := by
  cases value with
  | ok found =>
    cases other with
    | ok like =>
      cases Option.some.inj same
      exact each found rfl
    | error other => cases same
  | error error =>
    cases other with
    | ok like => cases same
    | error other => exact .cons (.error error other) .nil

/-- A draft succeeds if everything in it has its partner in one that does. -/
theorem Maps.succeeds {draft other : Draft} (maps : draft.Maps Same other)
    (silent : other.failure? = none) : draft.failure? = none := by
  refine failure?_eq_none_iff.2 fun error inside => ?_
  obtain ⟨partner, there, alike⟩ := maps _ inside
  cases alike with
  | error _ other => exact failure?_eq_none_iff.1 silent other there

/-- Drafts with the same entries offer the same for the same connection, if identifiers stand for
each other one to one. -/
theorem offer?_eq_of_forall₂ (biunique : ∀ {id other same another : NodeId}, Same id same →
    Same other another → (id = other ↔ same = another)) {draft other : Draft}
    (all : List.Forall₂ (Partner Same) draft other) {triple partner : Triple}
    (producer : Same triple.producer partner.producer)
    (consumer : Same triple.consumer partner.consumer) (role : triple.role = partner.role) :
    draft.offer? triple = other.offer? partner := by
  induction all with
  | nil => rfl
  | @cons entry like rest others first _ ih =>
    have split : ∀ (entry : Except WiringError Connection) (rest : Draft) (triple : Triple),
        offer? (entry :: rest) triple = (offer? [entry] triple).or (rest.offer? triple) :=
      fun entry rest triple => offer?_append [entry] rest triple
    rw [split, split like, ih]
    congr 1
    cases first with
    | error error other => rfl
    | @ok c other alsoProducer alsoConsumer sameRole sameMetadata =>
      have same : c.triple = triple ↔ other.triple = partner := by
        rw [Triple.eq_iff, @Triple.eq_iff other.triple]
        exact and_congr (biunique alsoProducer producer)
          (and_congr (biunique alsoConsumer consumer)
            ⟨fun equal => sameRole.symm.trans (equal.trans role),
              fun equal => sameRole.trans (equal.trans role.symm)⟩)
      simp only [offer?, List.findSome?_singleton, same, sameMetadata]

end Draft

/-! ## What fills a pseudo-node -/

/-- The nodes that a field or a collection takes its value from. -/
def NodeKind.supplierIds : NodeKind → List NodeId
  | .field definition => definition.formatters ++ definition.defaultValue.toList
  | .collection definition => definition.source.toList
  | _ => []

namespace WiringContext

/-- The collection that a node is or belongs to as an iteration, with the index of the
iteration. -/
def repeatedBy? (id : NodeId) : NodeKind → Option (NodeId × Option Nat)
  | .collection _ => some (id, none)
  | .iteration collection index => some (collection, some index)
  | _ => none

/-- Contexts of the same step in which the same is seen, but for the identifiers of
pseudo-nodes. The nodes that the step looks at are among those that are `seen`; of other nodes
nothing is said. -/
structure Mirrors (ctx other : WiringContext NodeStore) (seen : NodeId → Prop) : Prop where
  coherent : ctx.nodes.Coherent
  otherCoherent : other.nodes.Coherent
  step : ctx.step = other.step
  config : ctx.config = other.config
  load : ctx.scopes.lastLoadFrom? ctx.step = other.scopes.lastLoadFrom? other.step
  definitions : ∀ identity : PseudoKey, identity.scope = ctx.step →
    ctx.nodes.definition? identity = other.nodes.definition? identity
  plain : ∀ id, seen id →
    (ctx.nodes.plain? id).map Node.outline = (other.nodes.plain? id).map Node.outline
  references : ∀ id, id ∈ ctx.members.references ↔ id ∈ other.members.references
  templateReferences : ∀ id,
    id ∈ ctx.members.templateReferences ↔ id ∈ other.members.templateReferences
  listed : ∀ id, id ∈ ctx.members.references ∨ id ∈ ctx.members.templateReferences → seen id
  origins : ∀ id definition, ctx.Holds id definition → ∀ origin, definition.origin = some origin →
    seen origin
  collections : ∀ origin collection index, seen origin →
    ((ctx.nodes.node? origin).bind fun node => repeatedBy? origin node.kind) =
      some (collection, index) → seen collection
  enclosing : ∀ id, id ∈ ctx.members.references ∨ id ∈ ctx.members.templateReferences →
    ctx.enclosingField? id = other.enclosingField? id
  scopeKey : ∀ id ∈ ctx.members.templateReferences,
    Item.scopeKey? ctx.nodes id = Item.scopeKey? other.nodes id
  supplied : ∀ id node, seen id → ctx.nodes.plain? id = some node →
    ∀ supplier ∈ node.kind.supplierIds, ctx.nodes.SameNode other.nodes supplier supplier
  loaded : ∀ transition, ctx.scopes.lastLoadFrom? ctx.step = some transition →
    ctx.nodes.SameNode other.nodes transition transition

namespace Mirrors

variable {ctx other : WiringContext NodeStore} {seen : NodeId → Prop}

theorem supplierIds_blind : NodeKind.Blind NodeKind.supplierIds := fun _ _ => rfl

theorem repeatedBy?_blind (id : NodeId) : NodeKind.Blind (repeatedBy? id) := fun _ _ => rfl

section

variable (mirrors : ctx.Mirrors other seen)
include mirrors

/-- What is read off seen nodes that are no pseudo-nodes is the same. -/
theorem bind_node? {α : Type} {view : NodeKind → Option α} (blind : NodeKind.Blind view)
    (void : ∀ definition, view (.pseudo definition) = none) {id : NodeId} (sees : seen id) :
    ((ctx.nodes.node? id).bind fun node => view node.kind) =
      (other.nodes.node? id).bind fun node => view node.kind := by
  rw [NodeStore.bind_node?_eq_plain? void, NodeStore.bind_node?_eq_plain? void]
  exact blind.bind_eq (mirrors.plain id sees)

/-- A pseudo-node of the step is there in both. -/
theorem exists_held {id : NodeId} {definition : Pseudo} (held : ctx.Holds id definition) :
    ∃ same, other.Holds same definition ∧ ctx.nodes.SameNode other.nodes id same := by
  obtain ⟨known, here⟩ := held
  have found := NodeStore.pseudo?_of_pseudoAt? mirrors.coherent known
  have one : ctx.nodes.definition? definition.toPseudoKey = some definition := by
    rw [NodeStore.definition?, found]
    exact known
  rw [mirrors.definitions _ here] at one
  obtain ⟨same, there, alsoKnown⟩ := Option.bind_eq_some_iff.1 one
  exact ⟨same, ⟨alsoKnown, here.trans mirrors.step⟩, .pseudo _ found there⟩

theorem exists_held_of_other {same : NodeId} {definition : Pseudo}
    (held : other.Holds same definition) : ∃ id, ctx.Holds id definition := by
  obtain ⟨known, here⟩ := held
  have found := NodeStore.pseudo?_of_pseudoAt? mirrors.otherCoherent known
  have one : other.nodes.definition? definition.toPseudoKey = some definition := by
    rw [NodeStore.definition?, found]
    exact known
  have inStep : definition.scope = ctx.step := here.trans mirrors.step.symm
  rw [← mirrors.definitions _ inStep] at one
  obtain ⟨id, _, alsoKnown⟩ := Option.bind_eq_some_iff.1 one
  exact ⟨id, alsoKnown, inStep⟩

end

theorem symm (mirrors : ctx.Mirrors other seen) : other.Mirrors ctx seen where
  coherent := mirrors.otherCoherent
  otherCoherent := mirrors.coherent
  step := mirrors.step.symm
  config := mirrors.config.symm
  load := mirrors.load.symm
  definitions := fun identity here =>
    (mirrors.definitions identity (here.trans mirrors.step.symm)).symm
  plain := fun id sees => (mirrors.plain id sees).symm
  references := fun id => (mirrors.references id).symm
  templateReferences := fun id => (mirrors.templateReferences id).symm
  listed := fun id inside => mirrors.listed id (by
    rwa [mirrors.references, mirrors.templateReferences])
  origins := fun _ definition held => by
    obtain ⟨id, alsoHeld⟩ := mirrors.exists_held_of_other held
    exact mirrors.origins id definition alsoHeld
  collections := fun origin collection index sees found => by
    rw [← mirrors.bind_node? (repeatedBy?_blind origin) (fun _ => rfl) sees] at found
    exact mirrors.collections origin collection index sees found
  enclosing := fun id listed => (mirrors.enclosing id (by
    rwa [mirrors.references, mirrors.templateReferences])).symm
  scopeKey := fun id listed =>
    (mirrors.scopeKey id ((mirrors.templateReferences id).2 listed)).symm
  supplied := by
    intro id node sees found supplier named
    have same := mirrors.plain id sees
    rw [found] at same
    obtain ⟨like, there, alike⟩ := Option.map_eq_some_iff.1 same
    rw [← supplierIds_blind.eq alike] at named
    exact (mirrors.supplied id like sees there supplier named).symm
  loaded := fun transition serves =>
    (mirrors.loaded transition (mirrors.load.trans serves)).symm

variable (mirrors : ctx.Mirrors other seen)
include mirrors

theorem expression?_eq {id : NodeId} (sees : seen id) :
    ctx.expression? id = other.expression? id :=
  mirrors.bind_node? (fun _ _ => rfl : NodeKind.Blind NodeKind.reference?) (fun _ => rfl) sees

/-- An identity of the step is found in both or in neither. -/
theorem find?_cases (kind : PseudoKind) (key : String) :
    (ctx.find? kind key = none ∧ other.find? kind key = none) ∨
      ∃ id same, ctx.find? kind key = some id ∧ other.find? kind key = some same ∧
        ctx.nodes.SameNode other.nodes id same := by
  have here : ctx.find? kind key = ctx.nodes.pseudo? ⟨kind, ctx.step, key⟩ := rfl
  have there : other.find? kind key = other.nodes.pseudo? ⟨kind, ctx.step, key⟩ := by
    rw [mirrors.step]
    rfl
  have absent : ctx.nodes.pseudo? ⟨kind, ctx.step, key⟩ = none ↔
      other.nodes.pseudo? ⟨kind, ctx.step, key⟩ = none := by
    rw [← NodeStore.definition?_eq_none_iff mirrors.coherent,
      ← NodeStore.definition?_eq_none_iff mirrors.otherCoherent,
      mirrors.definitions ⟨kind, ctx.step, key⟩ rfl]
  rw [here, there]
  cases found : ctx.nodes.pseudo? ⟨kind, ctx.step, key⟩ with
  | none => exact .inl ⟨rfl, absent.1 found⟩
  | some id =>
    cases also : other.nodes.pseudo? ⟨kind, ctx.step, key⟩ with
    | none => cases found.symm.trans (absent.2 also)
    | some same => exact .inr ⟨id, same, rfl, rfl, .pseudo _ found also⟩

/-- A reference is the same node in both. -/
theorem same_reference {id : NodeId} (sees : seen id) {expression : Reference}
    (known : ctx.expression? id = some expression) : ctx.nodes.SameNode other.nodes id id := by
  have plain : ∀ {ctx : WiringContext NodeStore}, ctx.expression? id = some expression →
      ctx.nodes.pseudoAt? id = none := by
    intro ctx known
    obtain ⟨node, found, isReference⟩ := Option.bind_eq_some_iff.1 known
    have present : ctx.nodes.node? id = some node := found
    rw [NodeStore.pseudoAt?, present, Option.bind_some,
      NodeKind.reference?_eq_some_iff.1 isReference]
    rfl
  exact .plain (plain known) (plain ((mirrors.expression?_eq sees).symm.trans known))

/-! ### Fillings -/

variable {id same : NodeId} (alike : ctx.nodes.SameNode other.nodes id same)
include alike

omit mirrors in
theorem fill {producer partner : NodeId}
    (supplies : ctx.nodes.SameNode other.nodes producer partner) (family : Family)
    (key property : String) :
    List.Forall₂ (Draft.Partner (ctx.nodes.SameNode other.nodes))
      (ctx.fill family producer id key property) (other.fill family partner same key property) :=
  .cons (.ok supplies alike rfl rfl) .nil

theorem load_partners (family : Family) (key : String) :
    List.Forall₂ (Draft.Partner (ctx.nodes.SameNode other.nodes)) (ctx.load family id key)
      (other.load family same key) := by
  rw [WiringContext.load, WiringContext.load, ← mirrors.load]
  cases serves : ctx.scopes.lastLoadFrom? ctx.step with
  | none => exact .nil
  | some transition => exact .cons (.ok (mirrors.loaded transition serves) alike rfl rfl) .nil

omit mirrors in
theorem formatters_partners (code : String) {ids : List NodeId}
    (supplies : ∀ formatter ∈ ids, ctx.nodes.SameNode other.nodes formatter formatter)
    (position : Nat) : List.Forall₂ (Draft.Partner (ctx.nodes.SameNode other.nodes))
      (Answer.formatters ctx id code position ids)
      (Answer.formatters other same code position ids) := by
  induction ids generalizing position with
  | nil => exact .nil
  | cons formatter rest ih =>
    exact List.rel_append (fill alike (supplies formatter (List.mem_cons_self ..)) ..)
      (ih (fun other member => supplies other (List.mem_cons_of_mem _ member)) _)

/-- A local answer is filled by the same nodes. -/
theorem fieldProducers_partners (code : String) {field : Field}
    (supplies : ∀ supplier ∈ NodeKind.supplierIds (.field field),
      ctx.nodes.SameNode other.nodes supplier supplier) :
    List.Forall₂ (Draft.Partner (ctx.nodes.SameNode other.nodes))
      (Answer.fieldProducers ctx id code field) (Answer.fieldProducers other same code field) := by
  refine List.rel_append (List.rel_append (List.rel_append ?_ ?_) ?_) ?_
  · rcases mirrors.find?_cases .post code with
      ⟨here, there⟩ | ⟨submitted, partner, here, there, supplied⟩
    · rw [here, there]
      exact .nil
    · rw [here, there]
      exact fill alike supplied ..
  · exact formatters_partners alike code
      (fun formatter member => supplies formatter (List.mem_append_left _ member)) 0
  · cases value : field.defaultValue with
    | none => exact .nil
    | some expression =>
      refine fill alike (supplies expression (List.mem_append_right _ ?_)) ..
      rw [value]
      exact List.mem_singleton_self _
  · exact mirrors.load_partners alike _ _

omit alike in
/-- A field or a collection takes its value from the same nodes. -/
theorem supplied_of_bind {α : Type} {view : NodeKind → Option α}
    (void : ∀ definition, view (.pseudo definition) = none) {id : NodeId} (sees : seen id)
    {found : α} (known : ((ctx.nodes.node? id).bind fun node => view node.kind) = some found)
    {suppliers : List NodeId}
    (named : ∀ kind, view kind = some found → suppliers = NodeKind.supplierIds kind) :
    ∀ supplier ∈ suppliers, ctx.nodes.SameNode other.nodes supplier supplier := by
  rw [NodeStore.bind_node?_eq_plain? void] at known
  obtain ⟨node, present, isOne⟩ := Option.bind_eq_some_iff.1 known
  intro supplier member
  rw [named node.kind isOne] at member
  exact mirrors.supplied id node sees present supplier member

theorem localProducers_partners {definition : Pseudo} (held : ctx.Holds id definition) :
    List.Forall₂ (Draft.Partner (ctx.nodes.SameNode other.nodes))
      (Answer.localProducers ctx id definition) (Answer.localProducers other same definition) := by
  have blind : NodeKind.Blind NodeKind.field? := fun _ _ => rfl
  refine Draft.forall₂_after ?_ fun field found => ?_
  · rw [WiredForm.toOption_originField, WiredForm.toOption_originField, WiredForm.originField?,
      WiredForm.originField?, Option.bind_assoc, Option.bind_assoc]
    exact Option.bind_congr fun origin named =>
      mirrors.bind_node? blind (fun _ => rfl) (mirrors.origins id definition held origin named)
  · rw [WiredForm.toOption_originField, WiredForm.originField?, Option.bind_assoc] at found
    obtain ⟨origin, named, known⟩ := Option.bind_eq_some_iff.1 found
    refine mirrors.fieldProducers_partners alike _ (mirrors.supplied_of_bind (fun _ => rfl)
      (mirrors.origins id definition held origin named) known fun kind isField => ?_)
    rw [NodeKind.field?_eq_some_iff.1 isField]

end Mirrors

theorem toOption_collectionOf (ctx : WiringContext NodeStore) (id : NodeId) (definition : Pseudo) :
    (Item.collectionOf ctx id definition).toOption = definition.origin.bind fun origin =>
      (ctx.nodes.node? origin).bind fun node => repeatedBy? origin node.kind := by
  rw [Item.collectionOf]
  cases definition.origin with
  | none => rfl
  | some origin =>
    have looked : node? ctx.nodes origin = ctx.nodes.node? origin := rfl
    dsimp only
    rw [Option.bind_some, looked]
    cases ctx.nodes.node? origin with
    | none => rfl
    | some node =>
      dsimp only
      rw [Option.bind_some]
      cases node.kind <;> rfl

namespace Mirrors

variable {ctx other : WiringContext NodeStore} {seen : NodeId → Prop}
  (mirrors : ctx.Mirrors other seen) {id same : NodeId}
  (alike : ctx.nodes.SameNode other.nodes id same)
include mirrors alike

theorem itemProducer_partners {definition : Pseudo} (held : ctx.Holds id definition) :
    List.Forall₂ (Draft.Partner (ctx.nodes.SameNode other.nodes))
      (Item.producer ctx id definition) (Item.producer other same definition) := by
  have blind : NodeKind.Blind NodeKind.collection? := fun _ _ => rfl
  have sees : ∀ collection index,
      (Item.collectionOf ctx id definition).toOption = some (collection, index) →
        seen collection := by
    intro collection index of
    rw [toOption_collectionOf] at of
    obtain ⟨origin, named, found⟩ := Option.bind_eq_some_iff.1 of
    exact mirrors.collections origin collection index
      (mirrors.origins id definition held origin named) found
  refine Draft.forall₂_after ?_ fun (collection, index) of =>
    Draft.forall₂_after ?_ fun found known => ?_
  · rw [toOption_collectionOf, toOption_collectionOf]
    exact Option.bind_congr fun origin named => mirrors.bind_node? (repeatedBy?_blind origin)
      (fun _ => rfl) (mirrors.origins id definition held origin named)
  · rw [WiredForm.toOption_definitionOf, WiredForm.toOption_definitionOf]
    exact mirrors.bind_node? blind (fun _ => rfl) (sees collection index of)
  · rw [WiredForm.toOption_definitionOf] at known
    have supplies : ∀ supplier ∈ found.source.toList,
        ctx.nodes.SameNode other.nodes supplier supplier := by
      refine mirrors.supplied_of_bind (fun _ => rfl) (sees collection index of) known
        fun kind isCollection => ?_
      rw [NodeKind.collection?_eq_some_iff.1 isCollection]
      rfl
    cases source : found.source with
    | none => exact .nil
    | some supplier =>
      rw [source] at supplies
      exact fill alike (supplies supplier (List.mem_singleton_self _)) ..

/-- **A pseudo-node is filled by the same nodes, with the same metadata**, in the same order. -/
theorem producers_partners {definition : Pseudo} (held : ctx.Holds id definition) :
    List.Forall₂ (Draft.Partner (ctx.nodes.SameNode other.nodes)) (ctx.producers id definition)
      (other.producers same definition) := by
  simp only [producers]
  split
  · exact mirrors.localProducers_partners alike held
  · exact mirrors.load_partners alike _ _
  · exact .nil
  · exact .nil
  · exact .nil
  · exact mirrors.load_partners alike _ _
  · exact mirrors.itemProducer_partners alike held

omit alike

/-! ### Readers -/

/-- A pseudo-node is fed to the same readers. -/
theorem feed_maps {producer partner : NodeId}
    (alike : ctx.nodes.SameNode other.nodes producer partner) (family : Family) (key : String)
    (space : Namespace) {readers others : List NodeId}
    (listed : ∀ reader ∈ readers, reader ∈ others ∧ seen reader ∧
      ∃ expression, ctx.expression? reader = some expression) :
    (ctx.feed family producer key space readers).Maps (ctx.nodes.SameNode other.nodes)
      (other.feed family partner key space others) := by
  intro entry member
  obtain ⟨reader, inside, rfl⟩ := List.mem_map.1 member
  obtain ⟨there, sees, expression, known⟩ := listed reader inside
  exact ⟨_, List.mem_map_of_mem there,
    .ok alike (mirrors.same_reference sees known) rfl rfl⟩

theorem mem_selecting {ids others : List NodeId} (listed : ∀ id, id ∈ ids ↔ id ∈ others)
    (sees : ∀ id ∈ ids, seen id) {space : Namespace} {id : NodeId} {expression : Reference} :
    (id, expression) ∈ ctx.selecting ids space ↔
      (id, expression) ∈ other.selecting others space := by
  rw [mem_selecting_iff, mem_selecting_iff, ← listed]
  exact and_congr_right fun inside => by rw [mirrors.expression?_eq (sees id inside)]

theorem mem_references {space : Namespace} {id : NodeId} {expression : Reference} :
    (id, expression) ∈ ctx.references space ↔ (id, expression) ∈ other.references space :=
  mirrors.mem_selecting mirrors.references fun _ inside => mirrors.listed _ (.inl inside)

theorem keyOf_eq (space : Namespace) (id : NodeId) (expression : Reference) :
    ctx.keyOf space id expression = other.keyOf space id expression := by
  rw [keyOf, keyOf, withoutKey, withoutKey, mirrors.config]

/-- The references of the step can be indexed in both contexts, or in neither. -/
theorem exists_index {space : Namespace} {index : ReferenceIndex}
    (built : ReferenceIndex.build ctx space = .ok index) :
    ∃ found, ReferenceIndex.build other space = .ok found := by
  cases again : ReferenceIndex.build other space with
  | ok found => exact ⟨found, rfl⟩
  | error error =>
    rw [ReferenceIndex.build] at again
    cases mapped : (other.references space).mapM fun entry =>
      other.keyOf space entry.1 entry.2 with
    | ok keyed => rw [mapped] at again; cases again
    | error first =>
      obtain ⟨⟨id, expression⟩, listed, failed⟩ := Except.exists_of_mapM_eq_error mapped
      obtain ⟨entry, keyed⟩ :=
        ReferenceIndex.keyOf_of_build built (mirrors.mem_references.2 listed)
      rw [mirrors.keyOf_eq] at keyed
      cases keyed.symm.trans failed

theorem mem_index {space : Namespace} {index found : ReferenceIndex}
    (built : ReferenceIndex.build ctx space = .ok index)
    (again : ReferenceIndex.build other space = .ok found) {key : String} :
    ∀ reader ∈ index.get key, reader ∈ found.get key ∧ seen reader ∧
      ∃ expression, ctx.expression? reader = some expression := by
  intro reader member
  obtain ⟨expression, listed, keyed⟩ := (ReferenceIndex.mem_get_build built).1 member
  obtain ⟨inside, known, _⟩ := mem_selecting_iff.1 listed
  exact ⟨(ReferenceIndex.mem_get_build again).2
    ⟨expression, mirrors.mem_references.1 listed, keyed⟩, mirrors.listed _ (.inl inside),
    expression, known⟩

/-! ### Families -/

/-- The pseudo-nodes of a kind draft the same. -/
theorem pseudos_maps {kind : PseudoKind} {draft another : NodeId → Pseudo → Draft}
    (each : ∀ id same definition, ctx.Holds id definition → definition.kind = kind →
      ctx.nodes.SameNode other.nodes id same →
      (draft id definition).Maps (ctx.nodes.SameNode other.nodes) (another same definition)) :
    Draft.Maps (ctx.nodes.SameNode other.nodes)
      ((ctx.pseudoIds kind).flatMap fun id => Draft.after (ctx.pseudo id) (draft id))
      ((other.pseudoIds kind).flatMap fun id => Draft.after (other.pseudo id) (another id)) := by
  intro entry member
  obtain ⟨id, definition, held, isKind, drafted⟩ := (mem_pseudos_iff mirrors.coherent).1 member
  obtain ⟨same, alsoHeld, alike⟩ := mirrors.exists_held held
  obtain ⟨partner, there, partners⟩ := each id same definition held isKind alike entry drafted
  exact ⟨partner, (mem_pseudos_iff mirrors.otherCoherent).2
    ⟨same, definition, alsoHeld, isKind, there⟩, partners⟩

/-- What needs the index of a namespace drafts the same, if it does with both indices. -/
theorem indexed_maps (space : Namespace) {draft another : ReferenceIndex → Draft}
    (each : ∀ index found, ReferenceIndex.build ctx space = .ok index →
      ReferenceIndex.build other space = .ok found →
      (draft index).Maps (ctx.nodes.SameNode other.nodes) (another found)) :
    Draft.Maps (ctx.nodes.SameNode other.nodes)
      (Draft.after (ReferenceIndex.build ctx space) draft)
      (Draft.after (ReferenceIndex.build other space) another) := by
  refine .after (fun found built => mirrors.symm.exists_index built) fun index built => ?_
  obtain ⟨found, again⟩ := mirrors.exists_index built
  exact ⟨found, again, each index found built again⟩

theorem keyed_maps {source : KeyedSource} (isSource : source ∈ KeyedSource.all) :
    (source.draft ctx).Maps (ctx.nodes.SameNode other.nodes) (source.draft other) := by
  refine mirrors.indexed_maps _ fun index found built again =>
    mirrors.pseudos_maps fun id same definition held isKind alike => .append ?_ ?_
  · rw [← producers_of_keyed isSource isKind, ← producers_of_keyed isSource isKind]
    exact .ofForall₂ (mirrors.producers_partners alike held)
  · exact mirrors.feed_maps alike _ _ _ (mirrors.mem_index built again)

theorem answer_maps :
    (Answer.draft ctx).Maps (ctx.nodes.SameNode other.nodes) (Answer.draft other) := by
  refine mirrors.indexed_maps _ fun index found built again => .append ?_ ?_
  · refine mirrors.pseudos_maps fun id same definition held _ alike => .append ?_ ?_
    · exact .ofForall₂ (mirrors.localProducers_partners alike held)
    · exact mirrors.feed_maps alike _ _ _ (mirrors.mem_index built again)
  · refine mirrors.pseudos_maps fun id same definition held _ alike => .append ?_ ?_
    · exact .ofForall₂ (mirrors.load_partners alike _ _)
    · rcases mirrors.find?_cases .answerLocal definition.key with
        ⟨here, there⟩ | ⟨answer, partner, here, there, _⟩
      · rw [here, there]
        exact mirrors.feed_maps alike _ _ _ (mirrors.mem_index built again)
      · rw [here, there]
        exact .nil _

/-- A reference to the field around it is connected alike. -/
theorem selfReader_partners {id : NodeId} {expression : Reference}
    (listed : id ∈ ctx.members.references) (known : ctx.expression? id = some expression) :
    List.Forall₂ (Draft.Partner (ctx.nodes.SameNode other.nodes)) (SelfValue.reader ctx id)
      (SelfValue.reader other id) := by
  simp only [SelfValue.reader]
  rw [← mirrors.enclosing id (.inl listed), ← mirrors.config]
  cases ctx.enclosingField? id with
  | none =>
    dsimp only
    split
    · exact .cons (.error _ _) .nil
    · exact .nil
  | some field =>
    dsimp only
    rcases mirrors.find?_cases .answerLocal field.code with
      ⟨here, there⟩ | ⟨answer, partner, here, there, alike⟩
    · rw [here, there]
      exact .nil
    · rw [here, there]
      exact .cons (.ok alike (mirrors.same_reference (mirrors.listed id (.inl listed)) known)
        rfl rfl) .nil

theorem self_maps :
    (SelfValue.draft ctx).Maps (ctx.nodes.SameNode other.nodes) (SelfValue.draft other) := by
  refine .flatMap fun pair listed => ⟨pair, mirrors.mem_references.1 listed, ?_⟩
  obtain ⟨member, known, _⟩ := mem_selecting_iff.1 listed
  exact .ofForall₂ (mirrors.selfReader_partners member known)

theorem item_maps : (Item.draft ctx).Maps (ctx.nodes.SameNode other.nodes) (Item.draft other) := by
  refine mirrors.pseudos_maps fun id same definition held _ alike => .append ?_ ?_
  · exact .ofForall₂ (mirrors.itemProducer_partners alike held)
  · refine mirrors.feed_maps alike _ _ _ fun reader inside => ?_
    obtain ⟨⟨id, expression⟩, listed, keyed⟩ :=
      List.mem_filterMap.1 (ReferenceIndex.mem_get_ofKeys.1 inside)
    obtain ⟨key, _, pair⟩ := Option.map_eq_some_iff.1 keyed
    cases pair
    obtain ⟨member, known, _⟩ := mem_selecting_iff.1 listed
    refine ⟨ReferenceIndex.mem_get_ofKeys.2 (List.mem_filterMap.2 ⟨(id, expression),
      (mirrors.mem_selecting mirrors.templateReferences
        fun _ inside => mirrors.listed _ (.inr inside)).1 listed, ?_⟩),
      mirrors.listed id (.inr member), expression, known⟩
    rw [← mirrors.scopeKey id member]
    exact keyed

/-- The check of the references inside templates finds the same faults. -/
theorem templateFault?_eq {id : NodeId} (listed : id ∈ ctx.members.templateReferences) :
    ctx.templateFault? id = other.templateFault? id := by
  -- What the check reads of a reference is its expression, so that is asked for first.
  have asked : ∀ ctx : WiringContext NodeStore,
      ((NodeSource.node? ctx.nodes id).bind fun node => node.kind.reference?) =
        ctx.expression? id := fun _ => rfl
  simp only [templateFault?, Option.bind_eq_bind, ← Option.bind_assoc, asked]
  simp only [mirrors.expression?_eq (mirrors.listed id (.inr listed)),
    mirrors.enclosing id (.inr listed), mirrors.config, mirrors.keyOf_eq]

theorem templateCheck_maps :
    ctx.templateCheck.Maps (ctx.nodes.SameNode other.nodes) other.templateCheck := by
  intro entry member
  obtain ⟨error, faulty, rfl⟩ := List.mem_map.1 member
  obtain ⟨id, listed, fault⟩ := List.mem_filterMap.1 faulty
  rw [mirrors.templateFault?_eq listed] at fault
  exact ⟨_, List.mem_map_of_mem (List.mem_filterMap.2
    ⟨id, (mirrors.templateReferences id).1 listed, fault⟩), .error error error⟩

/-- **Whatever is in the draft of a step has its partner in that of its mirror.** -/
theorem stepDraft_maps :
    (Pass.stepDraft ctx).Maps (ctx.nodes.SameNode other.nodes) (Pass.stepDraft other) := by
  refine .append mirrors.templateCheck_maps (.flatMap fun family listed => ⟨family, listed, ?_⟩)
  cases family with
  | post => exact mirrors.keyed_maps (by decide : KeyedSource.post ∈ KeyedSource.all)
  | query => exact mirrors.keyed_maps (by decide : KeyedSource.query ∈ KeyedSource.all)
  | params => exact mirrors.keyed_maps (by decide : KeyedSource.params ∈ KeyedSource.all)
  | data => exact mirrors.keyed_maps (by decide : KeyedSource.data ∈ KeyedSource.all)
  | answer => exact mirrors.answer_maps
  | selfValue => exact mirrors.self_maps
  | item => exact mirrors.item_maps

end Mirrors

end WiringContext

end FormFlow
