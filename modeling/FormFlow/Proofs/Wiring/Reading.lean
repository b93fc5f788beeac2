import FormFlow.Proofs.Form.Placement
import FormFlow.Proofs.Wiring.Furnishing
import FormFlow.Proofs.Wiring.Readers

/-!
# What a reference reads

The pseudo-node that a reference reads is given by its namespace, its key and its place
(`Pass.readOf?`). If everything that nodes read is there (`NodeSource.Furnished`), then this is
the one connection that the reference asks for (`Pass.offer?_solo_reference`).
-/

set_option autoImplicit false

namespace FormFlow

open NodeSource

theorem Reference.isIn_iff {expression : Reference} {space : Namespace} :
    expression.isIn space = true ↔ expression.selected? = some space := by
  simp only [Reference.isIn, Reference.selected?]
  cases expression.path.head? with
  | none => simp
  | some segment =>
    simp only [decide_eq_true_eq, Option.some.injEq, Option.bind_some]
    constructor
    · rintro rfl
      cases space <;> decide
    · intro found
      simpa [eq_comm] using List.find?_some found

/-! ## The keys of items -/

theorem NodeId.toList_text (id : NodeId) : id.text.toList = Nat.toDigits 10 id.val := by
  simp [NodeId.text, Nat.repr]

theorem toDigits_inj {one other : Nat} (same : Nat.toDigits 10 one = Nat.toDigits 10 other) :
    one = other := by
  have numbers := congrArg (fun found => Nat.ofDigitChars 10 found 0) same
  simpa only [Nat.ofDigitChars_toDigits (by decide : 1 < 10) (by decide : 10 ≤ 10)] using numbers

/-- A number in front of a character that is no digit is known from the whole text. -/
theorem toDigits_append_inj {one other : Nat} {separator : Char} {rest more : List Char}
    (noDigit : separator.isDigit = false)
    (same : Nat.toDigits 10 one ++ separator :: rest = Nat.toDigits 10 other ++ separator :: more) :
    one = other ∧ rest = more := by
  have digits : ∀ number, ∀ c ∈ Nat.toDigits 10 number, (c != separator) = true := by
    intro number c member
    have digit := Nat.isDigit_of_mem_toDigits (by decide) (by decide) member
    rw [bne_iff_ne]
    rintro rfl
    cases noDigit.symm.trans digit
  have front : ∀ number behind,
      (Nat.toDigits 10 number ++ separator :: behind).takeWhile (· != separator) =
        Nat.toDigits 10 number := by
    intro number behind
    rw [List.takeWhile_append_of_pos (digits number)]
    simp
  obtain rfl : one = other := by
    apply toDigits_inj
    rw [← front one rest, ← front other more, same]
  exact ⟨rfl, (List.cons.inj (List.append_cancel_left same)).2⟩

theorem NodeId.text_inj {one other : NodeId} (same : one.text = other.text) : one = other := by
  refine congrArg mk (toDigits_inj ?_)
  rw [← toList_text, ← toList_text, same]

/-- The key of a collection is the key of no other collection and of no iteration. -/
theorem itemKey_eq_none {collection other : NodeId} {index : Option Nat}
    (same : itemKey collection index = itemKey other none) : collection = other ∧ index = none := by
  cases index with
  | none => exact ⟨NodeId.text_inj same, rfl⟩
  | some index =>
    have sign : '#' ∈ Nat.toDigits 10 other.val := by
      rw [← NodeId.toList_text]
      change '#' ∈ (itemKey other none).toList
      rw [← same]
      simp [itemKey]
    have digit := Nat.isDigit_of_mem_toDigits (by decide) (by decide) sign
    cases digit
namespace Pass

/-! ## The pseudo-node that is read -/

section

variable {σ τ : Type} [NodeSource σ] [NodeSource τ]

/-- The identity that a key in a namespace stands for. Of an answer it is the local one, if that
was made. -/
def identityOf? (made : σ) (step : NodeId) (space : Namespace) (key : String) : Option PseudoKey :=
  match space with
  | .answers =>
    if (pseudo? made ⟨.answerLocal, step, key⟩).isSome then some ⟨.answerLocal, step, key⟩
    else some ⟨.answerRemote, step, key⟩
  | .post => some ⟨.post, step, key⟩
  | .query => some ⟨.query, step, key⟩
  | .params => some ⟨.params, step, key⟩
  | .data => some ⟨.data, step, key⟩
  | .selfValue => none
  | .item => none

/-- The local answer of the field around a node. -/
def selfOf? (nodes : σ) (step : NodeId) (node : Node) : Option PseudoKey := do
  let outer ← enclosingAbove? nodes node NodeKind.isField
  let field ← outer.kind.field?
  return ⟨.answerLocal, step, field.code⟩

/-- The item of the nearest collection or iteration around a node, unless that waits for an
iteration itself. -/
def itemOf? (nodes : σ) (step : NodeId) (node : Node) : Option PseudoKey := do
  let outer ← repeatedAbove? nodes node
  if awaitsIteration nodes outer then none
  else (Item.keyOfKind? outer.id outer.kind).map fun key => ⟨.item, step, key⟩

/-- The identity of the pseudo-node that a reference of a step reads. Whether an answer is local
is seen in `made`, the place of the reference in `nodes`. -/
def readOf? (made : σ) (nodes : τ) (step : NodeId) (node : Node) (expression : Reference) :
    Option PseudoKey :=
  match expression.selected? with
  | none => none
  | some .item => itemOf? nodes step node
  | some .selfValue => if inOpenTemplate nodes node then none else selfOf? nodes step node
  | some space =>
    if inOpenTemplate nodes node then none
    else (expression.lookupKey? space).bind (identityOf? made step space)

end

/-! ## The draft of a reference -/

section

variable {σ : Type} [NodeSource σ] {ctx : WiringContext σ} {id : NodeId} {node : Node}
  {expression : Reference}

/-- The connection of a reference to the pseudo-node that it finds. -/
def keyReader (ctx : WiringContext σ) (space : Namespace) (id : NodeId) (expression : Reference)
    (make : NodeId × String → Draft) : Draft :=
  Draft.after (ctx.keyOf space id expression) fun entry =>
    match entry with
    | some keyed => make keyed
    | none => []

/-- Of all families only one concerns a reference. -/
theorem single_reference (found : node? ctx.nodes id = some node)
    (isReference : node.kind = .reference expression) :
    single ctx id = match expression.selected? with
      | none => []
      | some .post => keyReader ctx .post id expression (KeyedSource.post.reader ctx)
      | some .query => keyReader ctx .query id expression (KeyedSource.query.reader ctx)
      | some .params => keyReader ctx .params id expression (KeyedSource.params.reader ctx)
      | some .data => keyReader ctx .data id expression (KeyedSource.data.reader ctx)
      | some .answers => keyReader ctx .answers id expression (Answer.reader ctx)
      | some .selfValue => SelfValue.reader ctx id
      | some .item => Item.reader ctx id := by
  have noPseudo : ∀ kind make, ctx.ofPseudo kind id make = [] := by
    intro kind make
    rw [WiringContext.ofPseudo, found, Option.bind_some, isReference]
    rfl
  have inside : ∀ space make, ctx.ofReference space id make =
      if expression.selected? = some space then make expression else [] := by
    intro space make
    rw [WiringContext.ofReference, found, Option.bind_some, isReference]
    simp only [NodeKind.reference?, Reference.isIn_iff]
  have keyed : ∀ space make, ctx.ofKey space id make =
      if expression.selected? = some space then keyReader ctx space id expression make else [] :=
    fun space make => inside space _
  simp only [single, Family.all, List.flatMap_cons, List.flatMap_nil, Family.single,
    KeyedSource.single, Answer.single, SelfValue.single, Item.single, noPseudo, keyed, inside,
    List.nil_append, List.append_nil]
  cases expression.selected? with
  | none => rfl
  | some space =>
    cases space <;> simp [KeyedSource.post, KeyedSource.query, KeyedSource.params,
      KeyedSource.data, PseudoKind.reads]

omit [NodeSource σ] in
theorem offer?_keyReader (ctx : WiringContext σ) (space : Namespace) (id : NodeId)
    (expression : Reference) (make : NodeId × String → Draft) (triple : Triple) :
    (keyReader ctx space id expression make).offer? triple =
      (expression.lookupKey? space).bind fun key => (make (id, key)).offer? triple := by
  simp only [keyReader, WiringContext.keyOf]
  cases expression.lookupKey? space with
  | some key => rfl
  | none =>
    simp only [WiringContext.withoutKey]
    cases ctx.config.malformedReferences <;> rfl

omit [NodeSource σ] in
/-- A reference is connected to the pseudo-node that it finds. -/
theorem offer?_found (ctx : WiringContext σ) (family : Family) (target? : Option NodeId)
    (key : String) (space : Namespace) (id : NodeId) (triple : Triple) (metadata : EdgeMetadata) :
    Draft.offer? (match target? with
      | some pseudo => ctx.feed family pseudo key space [id]
      | none => []) triple = some metadata ↔
      target? = some triple.producer ∧ triple.consumer = id ∧ triple.role = .dataFlow ∧
        metadata = ⟨some key, none, some space⟩ := by
  cases target? with
  | none => simp
  | some pseudo =>
    dsimp only
    rw [WiringContext.offer?_feed, Option.some.injEq, List.mem_singleton]
    constructor
    · rintro ⟨rfl, rest⟩
      exact ⟨rfl, rest⟩
    · rintro ⟨rfl, rest⟩
      exact ⟨rfl, rest⟩

/-- A reference that does not read an item waits exactly if it stands in an open template. -/
theorem awaitsIteration_reference {nodes : σ} (isReference : node.kind = .reference expression)
    (other : expression.selected? ≠ some .item) :
    awaitsIteration nodes node = inOpenTemplate nodes node := by
  have elsewhere : expression.isIn .item = false := by
    rw [Bool.eq_false_iff]
    exact fun inside => other (Reference.isIn_iff.1 inside)
  rw [awaitsIteration, isReference]
  simp [isDeferred, elsewhere]

/-- The pseudo-node that a key stands for is the one that is looked up for it. -/
theorem answer_target? (ctx : WiringContext σ) (key : String) (pseudo : NodeId) :
    Answer.target? ctx key = some pseudo ↔
      ∃ identity, identityOf? ctx.nodes ctx.step .answers key = some identity ∧
        identity.key = key ∧ pseudo? ctx.nodes identity = some pseudo := by
  simp only [Answer.target?, WiringContext.find?, identityOf?]
  cases here : pseudo? ctx.nodes ⟨.answerLocal, ctx.step, key⟩ with
  | none => simp
  | some id => simp [here]

end

end Pass

/-! ## Where everything that is read is there -/

/-- What a node reads is there, if it does not wait for an iteration, and there are items of
collections and iterations that do not wait only. -/
structure NodeSource.Furnished {σ : Type} [NodeSource σ] (nodes : σ) : Prop where
  fields : ∀ id node step, node? nodes id = some node → awaitsIteration nodes node = false →
    owningStep? nodes id = some step → Synthesis.ServesField nodes step nodes id
  references : ∀ id node step, node? nodes id = some node → awaitsIteration nodes node = false →
    owningStep? nodes id = some step → Synthesis.ServesReference nodes step nodes id
  repeated : ∀ id node step, node? nodes id = some node → awaitsIteration nodes node = false →
    owningStep? nodes id = some step → Synthesis.ServesRepeated nodes step nodes id
  items : ∀ step key, HasPseudo nodes ⟨.item, step, key⟩ → ∃ id node,
    node? nodes id = some node ∧ Item.keyOfKind? id node.kind = some key ∧
      awaitsIteration nodes node = false

/-- If nodes are added, it is enough to look at the new ones. -/
theorem NodeSource.Furnished.extend {σ τ : Type} [NodeSource σ] [NodeSource τ] [LawfulSource σ]
    [LawfulSource τ] {earlier : σ} {later : τ} (furnished : Furnished earlier)
    (shown : Shows earlier later) (upright : Upright earlier)
    (new : ∀ id node step, node? later id = some node → awaitsIteration later node = false →
      owningStep? later id = some step → node? earlier id = some node ∨
        Synthesis.ServesField later step later id ∧
          Synthesis.ServesReference later step later id ∧
          Synthesis.ServesRepeated later step later id)
    (items : ∀ step key, HasPseudo later ⟨.item, step, key⟩ → HasPseudo earlier ⟨.item, step, key⟩ ∨
      ∃ id node, node? later id = some node ∧ Item.keyOfKind? id node.kind = some key ∧
        awaitsIteration later node = false) : Furnished later := by
  have only : ∀ {id node}, node? later id = some node → node? earlier id = some node →
      ∀ other, node? later id = some other → node? earlier id = some other := by
    intro id node found old other again
    cases found.symm.trans again
    exact old
  refine ⟨?_, ?_, ?_, ?_⟩
  · intro id node step found ready owned
    rcases new id node step found ready owned with old | ⟨serves, _, _⟩
    · rw [shown.awaitsIteration_eq upright old] at ready
      rw [shown.owningStep?_eq upright old] at owned
      exact (furnished.fields id node step old ready owned).mono (only found old) shown
    · exact serves
  · intro id node step found ready owned
    rcases new id node step found ready owned with old | ⟨_, serves, _⟩
    · rw [shown.awaitsIteration_eq upright old] at ready
      rw [shown.owningStep?_eq upright old] at owned
      exact (furnished.references id node step old ready owned).mono (only found old) shown
    · exact serves
  · intro id node step found ready owned
    rcases new id node step found ready owned with old | ⟨_, _, serves⟩
    · rw [shown.awaitsIteration_eq upright old] at ready
      rw [shown.owningStep?_eq upright old] at owned
      exact (furnished.repeated id node step old ready owned).mono (only found old) shown
    · exact serves
  · intro step key has
    rcases items step key has with old | known
    · obtain ⟨id, node, found, keyed, ready⟩ := furnished.items step key old
      refine ⟨id, node, shown.node id node found, keyed, ?_⟩
      rw [shown.awaitsIteration_eq upright found, ready]
    · exact known

namespace Pass

variable {σ τ : Type} [NodeSource σ] [NodeSource τ]

theorem readOf?_of_keyed {made : σ} {nodes : τ} {step : NodeId} {node : Node}
    {expression : Reference} {space : Namespace} (selected : expression.selected? = some space)
    (keyed : space.isKeyed = true) (closed : inOpenTemplate nodes node = false) :
    readOf? made nodes step node expression =
      (expression.lookupKey? space).bind (identityOf? made step space) := by
  rw [readOf?, selected]
  cases space with
  | selfValue => cases keyed
  | item => cases keyed
  | answers => exact if_neg (by simp [closed])
  | post => exact if_neg (by simp [closed])
  | query => exact if_neg (by simp [closed])
  | params => exact if_neg (by simp [closed])
  | data => exact if_neg (by simp [closed])

theorem key_of_identityOf? {made : σ} {step : NodeId} {space : Namespace} {key : String}
    {identity : PseudoKey} (stands : identityOf? made step space key = some identity) :
    identity.key = key := by
  simp only [identityOf?] at stands
  cases space with
  | answers =>
    dsimp only at stands
    split at stands <;> cases stands <;> rfl
  | post | query | params | data =>
    cases stands
    rfl
  | selfValue | item => cases stands

/-- A reference that waits for an iteration reads nothing. -/
theorem readOf?_of_awaits {made : σ} {nodes : τ} {step : NodeId} {node : Node}
    {expression : Reference} (isReference : node.kind = .reference expression)
    (waits : awaitsIteration nodes node = true) :
    readOf? made nodes step node expression = none := by
  have deferred : isDeferred node.kind = true ∧ inOpenTemplate nodes node = true := by
    simp only [awaitsIteration] at waits
    exact Bool.and_eq_true_iff.1 waits
  rw [isReference] at deferred
  simp only [readOf?]
  cases selected : expression.selected? with
  | none => rfl
  | some space =>
    cases space with
    | item =>
      have inside := Reference.isIn_iff.2 selected
      simp [isDeferred, inside] at deferred
    | answers | post | query | params | data | selfValue => exact if_pos deferred.2

/-- What a reference reads is settled once it is there, but for which answers are local. -/
theorem readOf?_of_shows {ρ : Type} [NodeSource ρ] [LawfulSource τ] [LawfulSource ρ] {made : σ}
    {earlier : τ} {later : ρ} (shown : Shows earlier later) (upright : Upright earlier)
    {id : NodeId} {node : Node} (found : node? earlier id = some node) (step : NodeId)
    (expression : Reference) :
    readOf? made later step node expression = readOf? made earlier step node expression := by
  have item : itemOf? later step node = itemOf? earlier step node := by
    simp only [itemOf?]
    rw [shown.repeatedAbove?_eq upright found]
    cases around : repeatedAbove? earlier node with
    | none => rfl
    | some outer =>
      have present := (node?_of_enclosingAbove? around).1
      simp only [Option.bind_eq_bind, Option.bind_some]
      rw [shown.awaitsIteration_eq upright present]
  have self : selfOf? later step node = selfOf? earlier step node := by
    simp only [selfOf?]
    rw [shown.enclosingAbove?_eq upright found]
  simp only [readOf?]
  rw [shown.inOpenTemplate_eq upright found, item, self]

/-- What a reference asks for is a connection from a pseudo-node to it. -/
def Binds (nodes : σ) (id : NodeId) (expression : Reference) (identity? : Option PseudoKey)
    (triple : Triple) (metadata : EdgeMetadata) : Prop :=
  ∃ identity, identity? = some identity ∧ pseudo? nodes identity = some triple.producer ∧
    triple.consumer = id ∧ triple.role = .dataFlow ∧
    metadata = ⟨some identity.key, none, expression.selected?⟩

/-- What is asked for stays the same while the pseudo-node that is read is there. -/
theorem binds_of_shows {earlier : σ} {later : τ} (shown : Shows earlier later)
    {identity? : Option PseudoKey}
    (present : ∀ identity, identity? = some identity → HasPseudo earlier identity) {id : NodeId}
    {expression : Reference} {triple : Triple} {metadata : EdgeMetadata} :
    Binds later id expression identity? triple metadata ↔
      Binds earlier id expression identity? triple metadata := by
  constructor
  · rintro ⟨identity, reads, found, rest⟩
    obtain ⟨producer, known⟩ := present identity reads
    cases (shown.pseudo identity producer known).symm.trans found
    exact ⟨identity, reads, known, rest⟩
  · rintro ⟨identity, reads, found, rest⟩
    exact ⟨identity, reads, shown.pseudo identity triple.producer found, rest⟩

variable {nodes : σ} {scopes : ScopeTree} {config : WiringConfig} {step id : NodeId} {node : Node}
  {expression : Reference}

/-- A reference into a keyed namespace asks for what its key stands for. -/
theorem offer?_keyReader_iff {space : Namespace} (selected : expression.selected? = some space)
    (keyed : space.isKeyed = true) (closed : inOpenTemplate nodes node = false)
    {ctx : WiringContext σ} {make : NodeId × String → Draft} {triple : Triple}
    {metadata : EdgeMetadata}
    (makes : ∀ key, (make (id, key)).offer? triple = some metadata ↔
      Binds nodes id expression (identityOf? nodes step space key) triple metadata) :
    (keyReader ctx space id expression make).offer? triple = some metadata ↔
      Binds nodes id expression (readOf? nodes nodes step node expression) triple metadata := by
  rw [offer?_keyReader, readOf?_of_keyed selected keyed closed]
  cases expression.lookupKey? space with
  | none => simp [Binds]
  | some key => exact makes key

theorem offer?_keyed (source : KeyedSource) (ctx : WiringContext σ)
    (selected : expression.selected? = some source.kind.reads)
    (stands : ∀ key, identityOf? ctx.nodes ctx.step source.kind.reads key =
      some ⟨source.kind, ctx.step, key⟩)
    (key : String) (triple : Triple) (metadata : EdgeMetadata) :
    (source.reader ctx (id, key)).offer? triple = some metadata ↔
      Binds ctx.nodes id expression (identityOf? ctx.nodes ctx.step source.kind.reads key) triple
        metadata := by
  refine (offer?_found ctx _ _ _ _ _ _ _).trans ?_
  rw [Binds, WiringContext.find?, stands, selected]
  simp

theorem offer?_answer (ctx : WiringContext σ) (selected : expression.selected? = some .answers)
    (key : String) (triple : Triple) (metadata : EdgeMetadata) :
    (Answer.reader ctx (id, key)).offer? triple = some metadata ↔
      Binds ctx.nodes id expression (identityOf? ctx.nodes ctx.step .answers key) triple
        metadata := by
  refine (offer?_found ctx _ _ _ _ _ _ _).trans ?_
  rw [answer_target?]
  rw [Binds, selected]
  constructor
  · rintro ⟨⟨identity, stands, rfl, present⟩, rest⟩
    exact ⟨identity, stands, present, rest⟩
  · rintro ⟨identity, stands, present, rest⟩
    obtain rfl := key_of_identityOf? stands
    exact ⟨⟨identity, stands, rfl, present⟩, rest⟩

theorem offer?_selfReader (ctx : WiringContext σ) (found : node? ctx.nodes id = some node)
    (selected : expression.selected? = some .selfValue) (triple : Triple)
    (metadata : EdgeMetadata) :
    (SelfValue.reader ctx id).offer? triple = some metadata ↔
      Binds ctx.nodes id expression (selfOf? ctx.nodes ctx.step node) triple metadata := by
  have field : selfOf? ctx.nodes ctx.step node =
      (ctx.enclosingField? id).map fun field => ⟨.answerLocal, ctx.step, field.code⟩ := by
    rw [selfOf?, WiringContext.enclosingField?, found]
    simp only [Option.bind_eq_bind, Option.bind_some, Option.pure_def]
    cases enclosingAbove? ctx.nodes node NodeKind.isField with
    | none => rfl
    | some outer => exact Option.map_eq_bind.symm
  rw [SelfValue.reader, Binds, field, selected]
  cases ctx.enclosingField? id with
  | none =>
    dsimp only
    split <;> simp [Draft.offer?]
  | some field =>
    refine (offer?_found ctx _ _ _ _ _ _ _).trans ?_
    simp [WiringContext.find?]

/-- A collection that waits for an iteration has no item. -/
theorem no_item_of_awaits (furnished : Furnished nodes) {outer : Node}
    (found : node? nodes outer.id = some outer) (waits : awaitsIteration nodes outer = true)
    {key : String} (keyed : Item.keyOfKind? outer.id outer.kind = some key) :
    ¬HasPseudo nodes ⟨.item, step, key⟩ := by
  intro has
  obtain ⟨other, known, seen, same, ready⟩ := furnished.items step key has
  have deferred : isDeferred outer.kind = true := by
    simp only [awaitsIteration] at waits
    exact (Bool.and_eq_true_iff.1 waits).1
  have isCollection : itemKey outer.id none = key := by
    cases kind : outer.kind <;> rw [kind] at keyed deferred <;> cases keyed <;> first
      | rfl
      | cases deferred
  have unique : other = outer.id := by
    cases kind : known.kind <;> rw [kind] at same <;> cases same
    · exact (itemKey_eq_none isCollection.symm).1
    · cases (itemKey_eq_none isCollection.symm).2
  subst unique
  cases seen.symm.trans found
  rw [waits] at ready
  cases ready

variable [LawfulSource σ]

/-- The item that a reference finds is that of what is repeated around it. -/
theorem offer?_itemReader (ctx : WiringContext σ) (furnished : Furnished ctx.nodes)
    (found : node? ctx.nodes id = some node) (selected : expression.selected? = some .item)
    (triple : Triple) (metadata : EdgeMetadata) :
    (Item.reader ctx id).offer? triple = some metadata ↔
      Binds ctx.nodes id expression (itemOf? ctx.nodes ctx.step node) triple metadata := by
  rw [Item.reader, Item.scopeKey?, Binds, itemOf?, found, selected]
  simp only [Option.bind_eq_bind, Option.bind_some]
  cases around : repeatedAbove? ctx.nodes node with
  | none => simp
  | some outer =>
    rw [Option.bind_some, Option.bind_some]
    cases keyed : Item.keyOfKind? outer.id outer.kind with
    | none => simp
    | some key =>
      refine (offer?_found ctx _ _ _ _ _ _ _).trans ?_
      cases waits : awaitsIteration ctx.nodes outer with
      | false => simp [WiringContext.find?]
      | true =>
        rw [if_pos rfl]
        constructor
        · rintro ⟨present, _⟩
          have there := (node?_of_enclosingAbove? around).1
          exact absurd ⟨_, present⟩ (no_item_of_awaits furnished there waits keyed)
        · rintro ⟨_, ⟨⟩, _⟩

/-- **A reference asks for one connection: from the pseudo-node that it reads.** -/
theorem offer?_solo_reference (furnished : Furnished nodes) (found : node? nodes id = some node)
    (isReference : node.kind = .reference expression) (owned : owningStep? nodes id = some step)
    (ready : awaitsIteration nodes node = false) (triple : Triple) (metadata : EdgeMetadata) :
    (solo nodes scopes config id).offer? triple = some metadata ↔
      Binds nodes id expression (readOf? nodes nodes step node expression) triple metadata := by
  rw [solo, owned]
  dsimp only
  rw [single_reference found isReference]
  have closed : expression.selected? ≠ some .item → inOpenTemplate nodes node = false :=
    fun other => by rw [← awaitsIteration_reference isReference other, ready]
  cases selected : expression.selected? with
  | none => simp [Binds, readOf?, selected]
  | some space =>
    cases space with
    | answers =>
      exact offer?_keyReader_iff selected rfl (closed (by simp [selected]))
        fun key => offer?_answer _ selected key triple metadata
    | post =>
      exact offer?_keyReader_iff selected rfl (closed (by simp [selected]))
        fun key => offer?_keyed .post _ selected (fun _ => rfl) key triple metadata
    | query =>
      exact offer?_keyReader_iff selected rfl (closed (by simp [selected]))
        fun key => offer?_keyed .query _ selected (fun _ => rfl) key triple metadata
    | params =>
      exact offer?_keyReader_iff selected rfl (closed (by simp [selected]))
        fun key => offer?_keyed .params _ selected (fun _ => rfl) key triple metadata
    | data =>
      exact offer?_keyReader_iff selected rfl (closed (by simp [selected]))
        fun key => offer?_keyed .data _ selected (fun _ => rfl) key triple metadata
    | selfValue =>
      have reads : readOf? nodes nodes step node expression = selfOf? nodes step node := by
        rw [readOf?, selected]
        exact if_neg (by simp [closed (by simp [selected])])
      rw [reads]
      exact offer?_selfReader _ found selected triple metadata
    | item =>
      have reads : readOf? nodes nodes step node expression = itemOf? nodes step node := by
        rw [readOf?, selected]
      rw [reads]
      exact offer?_itemReader _ furnished found selected triple metadata

/-- A reference that waits for an iteration reads nothing, so what is wired is what is read. -/
theorem ready_offer?_reference (furnished : Furnished nodes) (found : node? nodes id = some node)
    (isReference : node.kind = .reference expression) (owned : owningStep? nodes id = some step)
    (triple : Triple) (metadata : EdgeMetadata) :
    (isReady nodes id = true ∧ (solo nodes scopes config id).offer? triple = some metadata) ↔
      Binds nodes id expression (readOf? nodes nodes step node expression) triple metadata := by
  rw [isReady, found]
  dsimp only
  cases waits : awaitsIteration nodes node with
  | true =>
    rw [readOf?_of_awaits isReference waits]
    simp [Binds]
  | false =>
    rw [offer?_solo_reference furnished found isReference owned waits]
    exact and_iff_right rfl

/-! ## What is read is there -/

omit [LawfulSource σ] in
theorem hasPseudo_of_identityOf? {space : Namespace} {key : String} {kind : PseudoKind}
    (reads : kind.reads = space) (has : HasPseudo nodes ⟨kind, step, key⟩) {identity : PseudoKey}
    (stands : identityOf? nodes step space key = some identity) : HasPseudo nodes identity := by
  subst reads
  simp only [identityOf?] at stands
  cases kind with
  | answerLocal | answerRemote =>
    dsimp only [PseudoKind.reads] at stands
    split at stands
    · rename_i here
      cases stands
      exact Option.isSome_iff_exists.1 here
    · rename_i absent
      cases stands
      first
        | exact has
        | exact absurd (Option.isSome_iff_exists.2 has) absent
  | post | query | params | data =>
    cases stands
    exact has
  | item => cases stands

/-- What a reference reads is there. -/
theorem hasPseudo_of_readOf? (placed : WellPlaced nodes) (furnished : Furnished nodes)
    (found : node? nodes id = some node) (isReference : node.kind = .reference expression)
    (owned : owningStep? nodes id = some step) {identity : PseudoKey}
    (reads : readOf? nodes nodes step node expression = some identity) :
    HasPseudo nodes identity := by
  have ready : awaitsIteration nodes node = false := by
    rw [Bool.eq_false_iff]
    intro waits
    cases (readOf?_of_awaits isReference waits).symm.trans reads
  have plain : node.kind.pseudo? = none := by rw [isReference]; rfl
  have closed : expression.selected? ≠ some .item → inOpenTemplate nodes node = false :=
    fun other => by rw [← awaitsIteration_reference isReference other, ready]
  have byKey : ∀ space, expression.selected? = some space → space.isKeyed = true →
      HasPseudo nodes identity := by
    intro space selected keyed
    have other : expression.selected? ≠ some .item := by
      rw [selected]
      rintro ⟨⟩
      cases keyed
    have shut := closed other
    rw [readOf?_of_keyed selected keyed shut] at reads
    obtain ⟨key, known, stands⟩ := Option.bind_eq_some_iff.1 reads
    obtain ⟨kind, same, has⟩ := furnished.references id node step found ready owned node expression
      space key found isReference (Reference.keyedTarget?_eq_some_iff.2 ⟨selected, known, keyed⟩)
    exact hasPseudo_of_identityOf? same has stands
  cases selected : expression.selected? with
  | none =>
    rw [readOf?, selected] at reads
    cases reads
  | some space =>
    cases space with
    | answers | post | query | params | data => exact byKey _ selected rfl
    | selfValue =>
      have shut := closed (by simp [selected])
      have same : selfOf? nodes step node = some identity := by
        rw [readOf?, selected] at reads
        simpa [shut] using reads
      simp only [selfOf?] at same
      simp only [Option.bind_eq_bind, Option.bind_eq_some_iff, Option.pure_def,
        Option.some.injEq] at same
      obtain ⟨outer, around, field, isField, rfl⟩ := same
      obtain ⟨present, passes⟩ := node?_of_enclosingAbove? around
      have within : owningStep? nodes outer.id = some step := by
        rw [placed.owningStep?_of_encloses (fun _ is => (NodeKind.of_isField is).2) found plain
          around, owned]
      have waitless : awaitsIteration nodes outer = false := by
        rw [awaitsIteration, placed.inOpenTemplate_field found shut around, Bool.and_false]
      exact furnished.fields outer.id outer step present waitless within outer field present
        (NodeKind.field?_eq_some_iff.1 isField)
    | item =>
      have same : itemOf? nodes step node = some identity := by
        rw [readOf?, selected] at reads
        exact reads
      simp only [itemOf?] at same
      simp only [Option.bind_eq_bind, Option.bind_eq_some_iff] at same
      obtain ⟨outer, around, same⟩ := same
      obtain ⟨present, passes⟩ := node?_of_enclosingAbove? around
      have within : owningStep? nodes outer.id = some step := by
        rw [placed.owningStep?_of_encloses (fun _ is => NodeKind.of_isRepeated is) found plain
          around, owned]
      cases waits : awaitsIteration nodes outer with
      | true =>
        rw [waits] at same
        cases same
      | false =>
        rw [waits] at same
        obtain ⟨key, keyed, rfl⟩ := Option.map_eq_some_iff.1 same
        exact furnished.repeated outer.id outer step present waits within outer key present keyed

end Pass

end FormFlow
