import FormFlow.Proofs.Wiring.Batch

/-!
# Pseudo-nodes and their readers

When a form is wired, a pseudo-node finds its readers in an index of the step. That is the same
as each reader looking up its pseudo-node (`WiringContext.pseudos_collect`), because a pseudo-node
is the only one of its identity and because the members of a step are the references that belong
to it and do not wait for an iteration (`WiringContext.Settled`).
-/

set_option autoImplicit false

namespace FormFlow

open NodeSource

theorem Reference.isIn_inj {expression : Reference} {space other : Namespace}
    (one : expression.isIn space = true) (two : expression.isIn other = true) : space = other := by
  simp only [Reference.isIn] at one two
  have same : space.text = other.text := by
    rw [decide_eq_true_eq] at one two
    exact Option.some.inj (one.symm.trans two)
  cases space <;> cases other <;> first | rfl | exact absurd same (by decide)

theorem findSome?_eq_some_of_unique {α β : Type} {items : List α} {f : α → Option β} {value : β}
    (found : ∃ item ∈ items, f item = some value)
    (unique : ∀ item ∈ items, ∀ other, f item = some other → other = value) :
    items.findSome? f = some value := by
  cases first : items.findSome? f with
  | none =>
    obtain ⟨item, member, here⟩ := found
    rw [List.findSome?_eq_none_iff.1 first item member] at here
    cases here
  | some other =>
    obtain ⟨item, member, here⟩ := List.exists_of_findSome?_eq_some first
    rw [unique item member other here]

namespace WiringContext

/-! ## The nodes of a step -/

section

variable {σ : Type} [NodeSource σ]

/-- The properties of a node, if it is a pseudo-node. -/
def definition? (ctx : WiringContext σ) (id : NodeId) : Option Pseudo :=
  (node? ctx.nodes id).bind fun node => node.kind.pseudo?

/-- The expression of a node, if it is a reference. -/
def expression? (ctx : WiringContext σ) (id : NodeId) : Option Reference :=
  (node? ctx.nodes id).bind fun node => node.kind.reference?

/-- A node belongs to the step and does not wait for an iteration. -/
def Ready (ctx : WiringContext σ) (id : NodeId) : Prop :=
  (∃ node, node? ctx.nodes id = some node) ∧ Pass.isReady ctx.nodes id = true ∧
    owningStep? ctx.nodes id = some ctx.step

variable {ctx : WiringContext σ}

theorem ofPseudo_eq (kind : PseudoKind) (id : NodeId) (make : Pseudo → Draft) :
    ctx.ofPseudo kind id make = match ctx.definition? id with
      | some definition => if definition.kind = kind then make definition else []
      | none => [] := rfl

theorem expression?_of_definition? {id : NodeId} {definition : Pseudo}
    (found : ctx.definition? id = some definition) : ctx.expression? id = none := by
  obtain ⟨node, present, isPseudo⟩ := Option.bind_eq_some_iff.1 found
  rw [expression?, present, Option.bind_some, NodeKind.pseudo?_eq_some_iff.1 isPseudo]
  rfl

theorem pseudo_of_definition? {id : NodeId} {definition : Pseudo}
    (found : ctx.definition? id = some definition) : ctx.pseudo id = .ok definition := by
  obtain ⟨node, present, isPseudo⟩ := Option.bind_eq_some_iff.1 found
  rw [WiringContext.pseudo, get_of_found present]
  dsimp only [bind, Except.bind]
  rw [isPseudo]
  rfl

/-- A pseudo-node belongs to its scope. -/
theorem owningStep?_of_definition? {id : NodeId} {definition : Pseudo}
    (found : ctx.definition? id = some definition) :
    owningStep? ctx.nodes id = some definition.scope := by
  simp only [owningStep?]
  simp only [definition?] at found
  rw [found]

/-- A pseudo-node is ready in its scope, for it waits for nothing. -/
theorem ready_iff_of_definition? {id : NodeId} {definition : Pseudo}
    (found : ctx.definition? id = some definition) :
    ctx.Ready id ↔ definition.scope = ctx.step := by
  have owned := owningStep?_of_definition? found
  obtain ⟨node, present, isPseudo⟩ := Option.bind_eq_some_iff.1 found
  have ready : Pass.isReady ctx.nodes id = true := by
    simp only [Pass.isReady, awaitsIteration]
    rw [present]
    dsimp only
    rw [NodeKind.pseudo?_eq_some_iff.1 isPseudo]
    rfl
  constructor
  · rintro ⟨_, _, here⟩
    exact Option.some.inj (owned.symm.trans here)
  · intro here
    exact ⟨⟨node, present⟩, ready, by rw [owned, here]⟩

end

/-! ## Pseudo-nodes and their readers -/

/-- A context in which a step of a form is wired: the members are the references of the step,
divided by whether they stand in a template, and no template has iterations yet. -/
structure Settled (ctx : WiringContext NodeStore) : Prop where
  coherent : ctx.nodes.Coherent
  references : ∀ id, id ∈ ctx.members.references ↔ ∃ node expression,
    ctx.nodes.node? id = some node ∧ node.kind = .reference expression ∧
      inTemplate ctx.nodes node = false ∧ owningStep? ctx.nodes id = some ctx.step
  templateReferences : ∀ id, id ∈ ctx.members.templateReferences ↔ ∃ node expression,
    ctx.nodes.node? id = some node ∧ node.kind = .reference expression ∧
      inTemplate ctx.nodes node = true ∧ owningStep? ctx.nodes id = some ctx.step
  uninstantiated : ∀ id node, ctx.nodes.node? id = some node →
    inOpenTemplate ctx.nodes node = inTemplate ctx.nodes node

/-- The connection of a node to the pseudo-node of a kind and key. -/
def lookUp (ctx : WiringContext NodeStore) (family : Family) (kind : PseudoKind)
    (space : Namespace) (id : NodeId) (key : Option String) : Draft :=
  match key with
  | some key =>
    match ctx.find? kind key with
    | some pseudo => ctx.feed family pseudo key space [id]
    | none => []
  | none => []

/-- The connections of the pseudo-nodes of a kind to their readers. -/
def feeds (ctx : WiringContext NodeStore) (family : Family) (kind : PseudoKind)
    (space : Namespace) (readers : String → List NodeId) : Draft :=
  (ctx.pseudoIds kind).flatMap fun id => Draft.after (ctx.pseudo id) fun definition =>
    ctx.feed family id definition.key space (readers definition.key)

/-- The producer of a connection is a pseudo-node of a kind in the step, and its key is asked. -/
def Feeding (ctx : WiringContext NodeStore) (kind : PseudoKind) (space : Namespace)
    (asked : String → Prop) (triple : Triple) (metadata : EdgeMetadata) : Prop :=
  ∃ definition, ctx.definition? triple.producer = some definition ∧ definition.kind = kind ∧
    definition.scope = ctx.step ∧ asked definition.key ∧ triple.role = .dataFlow ∧
    metadata = ⟨some definition.key, none, some space⟩

theorem failure?_lookUp (ctx : WiringContext NodeStore) (family : Family) (kind : PseudoKind)
    (space : Namespace) (id : NodeId) (key : Option String) :
    (ctx.lookUp family kind space id key).failure? = none := by
  simp only [lookUp]
  split
  · split
    · rfl
    · rfl
  · rfl

theorem offer?_feed {σ : Type} (ctx : WiringContext σ) (family : Family) (pseudo : NodeId)
    (key : String) (space : Namespace) (readers : List NodeId) (triple : Triple)
    (metadata : EdgeMetadata) :
    (ctx.feed family pseudo key space readers).offer? triple = some metadata ↔
      triple.producer = pseudo ∧ triple.consumer ∈ readers ∧ triple.role = .dataFlow ∧
        metadata = ⟨some key, none, some space⟩ := by
  obtain ⟨producer, consumer, role⟩ := triple
  induction readers with
  | nil => simp [feed]
  | cons reader rest ih =>
    have first : ctx.feed family pseudo key space (reader :: rest) =
        [.ok ⟨family, pseudo, reader, .dataFlow, key, .reads space⟩] ++
          ctx.feed family pseudo key space rest := rfl
    rw [first, Draft.offer?_append, Option.or_eq_some_iff, ih]
    simp only [Draft.offer?, List.findSome?_singleton, Connection.triple, Connection.metadata,
      Triple.mk.injEq, ite_eq_iff, reduceCtorEq, and_false, or_false, Option.some.injEq,
      List.mem_cons]
    grind

section

variable {ctx : WiringContext NodeStore} (coherent : ctx.nodes.Coherent)
include coherent

theorem mem_pseudoIds_iff {kind : PseudoKind} {id : NodeId} :
    id ∈ ctx.pseudoIds kind ↔ ∃ definition, ctx.definition? id = some definition ∧
      definition.kind = kind ∧ definition.scope = ctx.step := by
  have listed : id ∈ ctx.pseudoIds kind ↔ id ∈ ctx.nodes.pseudoIds kind ctx.step := .rfl
  rw [listed, NodeStore.mem_pseudoIds_iff coherent]
  constructor
  · rintro ⟨key, node, found, identity⟩
    obtain ⟨definition, isPseudo, same⟩ := Option.map_eq_some_iff.1 identity
    refine ⟨definition, Option.bind_eq_some_iff.2 ⟨node, found, isPseudo⟩, ?_⟩
    rw [same]
    exact ⟨rfl, rfl⟩
  · rintro ⟨definition, known, rfl, here⟩
    obtain ⟨node, found, isPseudo⟩ := Option.bind_eq_some_iff.1 known
    refine ⟨definition.key, node, found, ?_⟩
    rw [Node.identity?, isPseudo, ← here]
    rfl

theorem find?_eq_some_iff {kind : PseudoKind} {key : String} {id : NodeId} :
    ctx.find? kind key = some id ↔ ∃ definition, ctx.definition? id = some definition ∧
      definition.toPseudoKey = ⟨kind, ctx.step, key⟩ := by
  have looked : ctx.find? kind key = ctx.nodes.pseudo? ⟨kind, ctx.step, key⟩ := rfl
  rw [looked, NodeStore.pseudo?_eq_some_iff coherent]
  constructor
  · rintro ⟨node, found, identity⟩
    obtain ⟨definition, isPseudo, same⟩ := Option.map_eq_some_iff.1 identity
    exact ⟨definition, Option.bind_eq_some_iff.2 ⟨node, found, isPseudo⟩, same⟩
  · rintro ⟨definition, known, same⟩
    obtain ⟨node, found, isPseudo⟩ := Option.bind_eq_some_iff.1 known
    exact ⟨node, found, by rw [Node.identity?, isPseudo, ← same]; rfl⟩

end

section

variable {ctx : WiringContext NodeStore} (settled : ctx.Settled)
include settled

/-- The producers of the pseudo-nodes of a step are collected one by one. -/
theorem makes_collect (kind : PseudoKind) {make : NodeId → Pseudo → Draft}
    (into : ∀ id definition, (make id definition).Into id) :
    Draft.Collects ((ctx.pseudoIds kind).flatMap fun id => Draft.after (ctx.pseudo id) (make id))
      ctx.Ready fun id => ctx.ofPseudo kind id (make id) := by
  refine (Draft.Collects.ofNodes fun id _ => .after (into id)).extend ?_ ?_ ?_
  · intro id member
    obtain ⟨definition, known, _, here⟩ := (mem_pseudoIds_iff settled.coherent).1 member
    exact (ready_iff_of_definition? known).2 here
  · intro id member
    obtain ⟨definition, known, same, _⟩ := (mem_pseudoIds_iff settled.coherent).1 member
    rw [pseudo_of_definition? known, ofPseudo_eq, known]
    exact (if_pos same).symm
  · intro id ready absent
    rw [ofPseudo_eq]
    cases known : ctx.definition? id with
    | none => rfl
    | some definition =>
      refine if_neg fun same => absent ?_
      refine (mem_pseudoIds_iff settled.coherent).2 ⟨definition, known, same, ?_⟩
      exact (ready_iff_of_definition? known).1 ready

/-- The readers that are found by pseudo-nodes. -/
theorem offer?_feeds (family : Family) (kind : PseudoKind) (space : Namespace)
    (readers : String → List NodeId) (triple : Triple) (metadata : EdgeMetadata) :
    (ctx.feeds family kind space readers).offer? triple = some metadata ↔
      ctx.Feeding kind space (fun key => triple.consumer ∈ readers key) triple metadata := by
  have each : ∀ id ∈ ctx.pseudoIds kind, ∀ other,
      Draft.offer? (Draft.after (ctx.pseudo id) fun definition =>
        ctx.feed family id definition.key space (readers definition.key)) triple = some other →
      ctx.Feeding kind space (fun key => triple.consumer ∈ readers key) triple other := by
    intro id member other offered
    obtain ⟨definition, known, same, here⟩ := (mem_pseudoIds_iff settled.coherent).1 member
    rw [pseudo_of_definition? known] at offered
    obtain ⟨rfl, reader, role, metadataEq⟩ := (ctx.offer?_feed ..).1 offered
    exact ⟨definition, known, same, here, reader, role, metadataEq⟩
  rw [feeds, Draft.offer?_flatMap]
  constructor
  · intro found
    obtain ⟨id, member, offered⟩ := List.exists_of_findSome?_eq_some found
    exact each id member metadata offered
  · rintro ⟨definition, known, same, here, reader, role, rfl⟩
    refine findSome?_eq_some_of_unique ⟨triple.producer,
      (mem_pseudoIds_iff settled.coherent).2 ⟨definition, known, same, here⟩, ?_⟩ ?_
    · rw [pseudo_of_definition? known]
      exact (ctx.offer?_feed ..).2 ⟨rfl, reader, role, rfl⟩
    · intro id member other offered
      obtain ⟨found, again, _, _, _, _, rfl⟩ := each id member other offered
      rw [known] at again
      cases again
      rfl

/-- The pseudo-node that is found by a reader. -/
theorem offer?_lookUp (family : Family) (kind : PseudoKind) (space : Namespace)
    (key : Option String) (triple : Triple) (metadata : EdgeMetadata) :
    (ctx.lookUp family kind space triple.consumer key).offer? triple = some metadata ↔
      ctx.Feeding kind space (fun other => key = some other) triple metadata := by
  simp only [lookUp]
  cases key with
  | none =>
    refine ⟨nofun, ?_⟩
    rintro ⟨_, _, _, _, ⟨⟩, _⟩
  | some key =>
    dsimp only
    cases found : ctx.find? kind key with
    | none =>
      refine ⟨nofun, ?_⟩
      rintro ⟨definition, known, rfl, here, ⟨⟩, _⟩
      have present :=
        (find?_eq_some_iff settled.coherent).2 ⟨definition, known, by rw [← here]⟩
      rw [found] at present
      cases present
    | some pseudo =>
      obtain ⟨definition, known, identity⟩ := (find?_eq_some_iff settled.coherent).1 found
      dsimp only
      rw [offer?_feed]
      constructor
      · rintro ⟨rfl, _, role, rfl⟩
        refine ⟨definition, known, ?_⟩
        rw [identity]
        exact ⟨rfl, rfl, rfl, role, rfl⟩
      · rintro ⟨other, again, rfl, here, ⟨⟩, role, rfl⟩
        have unique := (find?_eq_some_iff settled.coherent).2 ⟨other, again, by rw [← here]⟩
        rw [found] at unique
        cases unique
        exact ⟨rfl, List.mem_singleton_self _, role, rfl⟩

/-- What the pseudo-nodes of a kind offer to their readers is what the readers look up. -/
theorem feeds_collect (family : Family) (kind : PseudoKind) (space : Namespace)
    {readers : String → List NodeId} {asks : NodeId → Option String}
    (reads : ∀ id key, id ∈ readers key ↔ ctx.Ready id ∧ asks id = some key) :
    (ctx.feeds family kind space readers).Collects ctx.Ready fun id =>
      ctx.lookUp family kind space id (asks id) := by
  refine ⟨?_, ?_, ?_⟩
  · intro _ id _
    exact failure?_lookUp ..
  · intro _ triple ready
    apply Option.ext
    intro metadata
    rw [offer?_feeds settled, offer?_lookUp settled]
    simp only [Feeding, reads, ready, true_and]
  · intro _ triple unready
    apply Option.eq_none_iff_forall_ne_some.2
    intro metadata offered
    obtain ⟨definition, _, _, _, reader, _⟩ := (offer?_feeds settled ..).1 offered
    exact unready ((reads _ _).1 reader).1

/-- The pseudo-nodes of a kind with their producers and readers are collected one by one. -/
theorem pseudos_collect (family : Family) (kind : PseudoKind) (space : Namespace)
    (make : NodeId → Pseudo → Draft) (readers : String → List NodeId)
    (asks : NodeId → Option String)
    (into : ∀ id definition, (make id definition).Into id)
    (reads : ∀ id key, id ∈ readers key ↔ ctx.Ready id ∧ asks id = some key)
    (references : ∀ id key, asks id = some key →
      ∃ expression, ctx.expression? id = some expression) :
    Draft.Collects ((ctx.pseudoIds kind).flatMap fun id => Draft.after (ctx.pseudo id)
        fun definition => make id definition ++
          ctx.feed family id definition.key space (readers definition.key))
      ctx.Ready fun id =>
        ctx.ofPseudo kind id (make id) ++ ctx.lookUp family kind space id (asks id) := by
  have split : ((ctx.pseudoIds kind).flatMap fun id => Draft.after (ctx.pseudo id)
        fun definition => make id definition ++
          ctx.feed family id definition.key space (readers definition.key)) =
      (ctx.pseudoIds kind).flatMap fun id => Draft.after (ctx.pseudo id) (make id) ++
        Draft.after (ctx.pseudo id) fun definition =>
          ctx.feed family id definition.key space (readers definition.key) := by
    apply List.flatMap_congr
    intro id member
    obtain ⟨definition, known, _⟩ := (mem_pseudoIds_iff settled.coherent).1 member
    rw [pseudo_of_definition? known]
    rfl
  rw [split]
  refine (makes_collect settled kind into).interleave
    (feeds_collect settled family kind space reads) fun triple => ?_
  -- A connection leads into a reference or into a pseudo-node, never into both.
  cases reader : ctx.expression? triple.consumer with
  | some expression =>
    refine .inl fun id member => Draft.Into.offer?_of_ne (.after (into id)) ?_
    rintro rfl
    obtain ⟨definition, known, _⟩ := (mem_pseudoIds_iff settled.coherent).1 member
    rw [expression?_of_definition? known] at reader
    cases reader
  | none =>
    refine .inr fun id member => Option.eq_none_iff_forall_ne_some.2 fun metadata offered => ?_
    obtain ⟨definition, known, _⟩ := (mem_pseudoIds_iff settled.coherent).1 member
    rw [pseudo_of_definition? known] at offered
    obtain ⟨_, inside, _⟩ := (ctx.offer?_feed ..).1 offered
    obtain ⟨expression, found⟩ := references _ _ ((reads _ _).1 inside).2
    rw [found] at reader
    cases reader

end

/-! ## References by key -/

theorem mem_selecting_iff {σ : Type} [NodeSource σ] {ctx : WiringContext σ} {ids : List NodeId}
    {space : Namespace} {id : NodeId} {expression : Reference} :
    (id, expression) ∈ ctx.selecting ids space ↔
      id ∈ ids ∧ ctx.expression? id = some expression ∧ expression.isIn space = true := by
  rw [selecting, expression?, List.mem_filterMap]
  simp only [Option.bind_eq_bind, Option.bind_eq_some_iff, Option.ite_none_right_eq_some,
    Option.some.injEq, Prod.mk.injEq]
  constructor
  · rintro ⟨_, member, node, found, _, isReference, within, rfl, rfl⟩
    exact ⟨member, ⟨node, found, isReference⟩, within⟩
  · rintro ⟨member, ⟨node, found, isReference⟩, within⟩
    exact ⟨id, member, node, found, expression, isReference, within, rfl, rfl⟩

section

variable {ctx : WiringContext NodeStore} (settled : ctx.Settled)
include settled

/-- The references of a step into a namespace are those that belong to it and wait for nothing. -/
theorem mem_references_iff {space : Namespace} (plain : space ≠ .item) {id : NodeId}
    {expression : Reference} :
    (id, expression) ∈ ctx.references space ↔
      ctx.Ready id ∧ ctx.expression? id = some expression ∧ expression.isIn space = true := by
  rw [references, mem_selecting_iff, settled.references]
  constructor
  · rintro ⟨⟨node, other, found, isReference, outside, owned⟩, known, within⟩
    refine ⟨⟨⟨node, found⟩, ?_, owned⟩, known, within⟩
    simp only [Pass.isReady, awaitsIteration]
    have present : node? ctx.nodes id = some node := found
    rw [present]
    dsimp only
    rw [settled.uninstantiated id node found, outside, Bool.and_false]
    rfl
  · rintro ⟨⟨⟨node, found⟩, ready, owned⟩, known, within⟩
    have isReference : node.kind = .reference expression := by
      rw [expression?, found, Option.bind_some] at known
      exact NodeKind.reference?_eq_some_iff.1 known
    refine ⟨⟨node, expression, found, isReference, ?_, owned⟩, known, within⟩
    have other : expression.isIn .item = false := by
      cases both : expression.isIn .item with
      | false => rfl
      | true => exact absurd (Reference.isIn_inj within both) plain
    simp only [Pass.isReady, awaitsIteration] at ready
    rw [found] at ready
    dsimp only at ready
    rw [isReference, settled.uninstantiated id node found] at ready
    simpa [isDeferred, other] using ready

/-- The references to items inside the templates of a step. -/
theorem mem_templateReferences_iff {id : NodeId} {expression : Reference} :
    (id, expression) ∈ ctx.templateReferences .item ↔
      ctx.Ready id ∧ ctx.expression? id = some expression ∧ expression.isIn .item = true ∧
        ∃ node, node? ctx.nodes id = some node ∧ inTemplate ctx.nodes node = true := by
  rw [templateReferences, mem_selecting_iff, settled.templateReferences]
  constructor
  · rintro ⟨⟨node, other, found, isReference, inside, owned⟩, known, within⟩
    have present : node? ctx.nodes id = some node := found
    have same : other = expression := by
      rw [expression?, present, Option.bind_some, isReference] at known
      exact Option.some.inj known
    subst same
    refine ⟨⟨⟨node, found⟩, ?_, owned⟩, known, within, node, found, inside⟩
    simp only [Pass.isReady, awaitsIteration]
    rw [present]
    dsimp only
    rw [isReference]
    simp [isDeferred, within]
  · rintro ⟨⟨_, _, owned⟩, known, within, node, found, inside⟩
    have isReference : node.kind = .reference expression := by
      rw [expression?, found, Option.bind_some] at known
      exact NodeKind.reference?_eq_some_iff.1 known
    exact ⟨⟨node, expression, found, isReference, inside, owned⟩, known, within⟩

end

end WiringContext

/-! ## The index of a step -/

namespace ReferenceIndex

theorem mem_get_insert {index : ReferenceIndex} {key other : String} {added id : NodeId} :
    id ∈ (index.insert key added).get other ↔
      id ∈ index.get other ∨ (id = added ∧ other = key) := by
  obtain ⟨groups⟩ := index
  unfold insert get
  dsimp only
  induction groups with
  | nil =>
    by_cases same : other = key
    · simp [insertInto, same]
    · simp [insertInto, same, List.lookup_cons, beq_eq_false_iff_ne.2 same]
  | cons group rest ih =>
    obtain ⟨first, ids⟩ := group
    rw [insertInto]
    split
    · rename_i here
      subst here
      by_cases same : other = first
      · simp [same]
      · simp [same, List.lookup_cons, beq_eq_false_iff_ne.2 same]
    · rename_i elsewhere
      by_cases same : other = first
      · subst same
        simp [elsewhere]
      · rw [List.lookup_cons, List.lookup_cons, beq_eq_false_iff_ne.2 same]
        exact ih

theorem mem_get_ofKeys {keyed : List (NodeId × String)} {key : String} {id : NodeId} :
    id ∈ (ofKeys keyed).get key ↔ (id, key) ∈ keyed := by
  have folded : ∀ (keyed : List (NodeId × String)) (index : ReferenceIndex),
      id ∈ (keyed.foldl (fun index entry => index.insert entry.2 entry.1) index).get key ↔
        id ∈ index.get key ∨ (id, key) ∈ keyed := by
    intro keyed
    induction keyed with
    | nil => simp
    | cons entry rest ih =>
      intro index
      rw [List.foldl_cons, ih, mem_get_insert, List.mem_cons, or_assoc]
      obtain ⟨other, name⟩ := entry
      simp
  rw [ofKeys, folded]
  exact or_iff_right (by simp [get, empty])

variable {ctx : WiringContext NodeStore} {space : Namespace} {index : ReferenceIndex}

theorem mem_get_build (built : build ctx space = .ok index) {key : String} {id : NodeId} :
    id ∈ index.get key ↔
      ∃ expression, (id, expression) ∈ ctx.references space ∧
        expression.lookupKey? space = some key := by
  obtain ⟨entries, mapped, same⟩ := Except.bind_eq_ok_iff.1 built
  cases same
  have all := Except.mapM_eq_ok_iff.1 mapped
  rw [mem_get_ofKeys, List.mem_filterMap]
  constructor
  · rintro ⟨entry, member, rfl⟩
    obtain ⟨⟨other, expression⟩, known, keyed⟩ := Except.exists_of_mem_result mapped member
    rcases ctx.keyOf_eq_ok_iff.1 keyed with ⟨name, found, same⟩ | ⟨_, _, same⟩
    · cases same
      exact ⟨expression, known, found⟩
    · cases same
  · rintro ⟨expression, known, found⟩
    obtain ⟨entry, member, keyed⟩ := Except.exists_of_mem_mapM mapped known
    rcases ctx.keyOf_eq_ok_iff.1 keyed with ⟨name, again, rfl⟩ | ⟨absent, _, _⟩
    · dsimp only at again
      rw [found] at again
      cases again
      exact ⟨_, member, rfl⟩
    · dsimp only at absent
      rw [found] at absent
      cases absent

/-- If there is an index, no reference lacks its key against the policy. -/
theorem keyOf_of_build (built : build ctx space = .ok index) {id : NodeId}
    {expression : Reference} (known : (id, expression) ∈ ctx.references space) :
    ∃ entry, ctx.keyOf space id expression = .ok entry := by
  obtain ⟨entries, mapped, _⟩ := Except.bind_eq_ok_iff.1 built
  obtain ⟨entry, _, keyed⟩ := Except.exists_of_mem_mapM mapped known
  exact ⟨entry, keyed⟩

end ReferenceIndex

end FormFlow
