import FormFlow.Proofs.Except
import FormFlow.Proofs.Form.Lineage
import FormFlow.Proofs.Wiring.Collects

/-!
# What one node asks for

A pseudo-node asks for its producers, a reference for the pseudo-node that it reads
(`Family.single`). Everything that a node asks for leads into it (`Family.single_into`), so what
becomes of the edges into a node is decided by the node alone.
-/

set_option autoImplicit false

namespace FormFlow

open NodeSource

/-! ## The parts of a node's draft -/

namespace WiringContext

variable {σ : Type}

/-- A key is found, or there is none and the policy lets that pass. -/
theorem keyOf_eq_ok_iff (ctx : WiringContext σ) {space : Namespace} {id : NodeId}
    {expression : Reference} {entry : Option (NodeId × String)} :
    ctx.keyOf space id expression = .ok entry ↔
      (∃ key, expression.lookupKey? space = some key ∧ entry = some (id, key)) ∨
        (expression.lookupKey? space = none ∧ ctx.config.malformedReferences = .skip ∧
          entry = none) := by
  simp only [keyOf]
  cases expression.lookupKey? space with
  | some key => simp [eq_comm]
  | none =>
    simp only [withoutKey]
    cases ctx.config.malformedReferences with
    | skip => simp [bind, Except.bind, pure, Except.pure, eq_comm]
    | reject => simp [bind, Except.bind]

variable [NodeSource σ]

/-- What is drafted for a node if it is a pseudo-node of a kind. -/
def ofPseudo (ctx : WiringContext σ) (kind : PseudoKind) (id : NodeId) (make : Pseudo → Draft) :
    Draft :=
  match (node? ctx.nodes id).bind fun node => node.kind.pseudo? with
  | some definition => if definition.kind = kind then make definition else []
  | none => []

/-- What is drafted for a node if it is a reference into a namespace. -/
def ofReference (ctx : WiringContext σ) (space : Namespace) (id : NodeId)
    (make : Reference → Draft) : Draft :=
  match (node? ctx.nodes id).bind fun node => node.kind.reference? with
  | some expression => if expression.isIn space then make expression else []
  | none => []

/-- What is drafted for a node if it is a reference with a lookup key. -/
def ofKey (ctx : WiringContext σ) (space : Namespace) (id : NodeId)
    (make : NodeId × String → Draft) : Draft :=
  ctx.ofReference space id fun expression =>
    Draft.after (ctx.keyOf space id expression) fun entry =>
      match entry with
      | some keyed => make keyed
      | none => []

end WiringContext

section Singles

variable {σ : Type} [NodeSource σ]

/-- What a node asks for from a keyed source. -/
def KeyedSource.single (source : KeyedSource) (ctx : WiringContext σ) (id : NodeId) : Draft :=
  ctx.ofPseudo source.kind id (fun definition => source.producers ctx id definition.key) ++
    ctx.ofKey source.kind.reads id (source.reader ctx)

/-- What a node asks for from the answers. -/
def Answer.single (ctx : WiringContext σ) (id : NodeId) : Draft :=
  ctx.ofPseudo .answerLocal id (localProducers ctx id) ++
    (ctx.ofPseudo .answerRemote id (fun definition => ctx.load .answer id definition.key) ++
      ctx.ofKey .answers id (reader ctx))

/-- What a node asks for from the enclosing field. -/
def SelfValue.single (ctx : WiringContext σ) (id : NodeId) : Draft :=
  ctx.ofReference .selfValue id fun _ => reader ctx id

/-- What a node asks for from the items. -/
def Item.single (ctx : WiringContext σ) (id : NodeId) : Draft :=
  ctx.ofPseudo .item id (producer ctx id) ++ ctx.ofReference .item id fun _ => reader ctx id

/-- What a node asks for from a family. -/
def Family.single (family : Family) (ctx : WiringContext σ) : NodeId → Draft :=
  match family with
  | .post => KeyedSource.post.single ctx
  | .query => KeyedSource.query.single ctx
  | .params => KeyedSource.params.single ctx
  | .data => KeyedSource.data.single ctx
  | .answer => Answer.single ctx
  | .selfValue => SelfValue.single ctx
  | .item => Item.single ctx

end Singles

theorem Answer.formatters_congr {σ : Type} (ctx other : WiringContext σ) (id : NodeId)
    (code : String) (position : Nat) (ids : List NodeId) :
    formatters ctx id code position ids = formatters other id code position ids := by
  induction ids generalizing position with
  | nil => rfl
  | cons formatter rest ih =>
    rw [formatters, formatters, ih]
    rfl

/-! ## Everything leads into the node -/

section Into

open Draft

variable {σ : Type} (ctx : WiringContext σ) (id : NodeId)

theorem WiringContext.fill_into (family : Family) (producer : NodeId) (key property : String) :
    (ctx.fill family producer id key property).Into id := by
  intro c member
  cases List.mem_singleton.1 member
  rfl

theorem WiringContext.load_into (family : Family) (key : String) :
    (ctx.load family id key).Into id := by
  simp only [WiringContext.load]
  split
  · intro c member
    cases List.mem_singleton.1 member
    rfl
  · exact into_nil id

theorem WiringContext.feed_into (family : Family) (pseudo : NodeId) (key : String)
    (space : Namespace) : (ctx.feed family pseudo key space [id]).Into id := by
  intro c member
  cases List.mem_singleton.1 member
  rfl

variable [NodeSource σ]

theorem WiringContext.ofPseudo_into (kind : PseudoKind) {make : Pseudo → Draft}
    (into : ∀ definition, (make definition).Into id) : (ctx.ofPseudo kind id make).Into id := by
  simp only [WiringContext.ofPseudo]
  split
  · split
    · exact into _
    · exact into_nil id
  · exact into_nil id

theorem WiringContext.ofReference_into (space : Namespace) {make : Reference → Draft}
    (into : ∀ expression, (make expression).Into id) :
    (ctx.ofReference space id make).Into id := by
  simp only [WiringContext.ofReference]
  split
  · split
    · exact into _
    · exact into_nil id
  · exact into_nil id

theorem WiringContext.ofKey_into (space : Namespace) {make : NodeId × String → Draft}
    (into : ∀ key, (make (id, key)).Into id) : (ctx.ofKey space id make).Into id := by
  apply ctx.ofReference_into id space
  intro expression
  cases found : ctx.keyOf space id expression with
  | error error => exact Into.after_error id error
  | ok entry =>
    rcases ctx.keyOf_eq_ok_iff.1 found with ⟨key, _, rfl⟩ | ⟨_, _, rfl⟩
    · exact into key
    · exact into_nil id

omit [NodeSource σ] in
theorem KeyedSource.producers_into (source : KeyedSource) (key : String) :
    (source.producers ctx id key).Into id := by
  simp only [KeyedSource.producers]
  split
  · exact into_nil id
  · exact ctx.load_into id _ _

theorem KeyedSource.single_into (source : KeyedSource) : (source.single ctx id).Into id := by
  refine Into.append (ctx.ofPseudo_into id _ fun definition => ?_)
    (ctx.ofKey_into id _ fun key => ?_)
  · exact producers_into ctx id source _
  · simp only [KeyedSource.reader]
    split
    · exact ctx.feed_into id _ _ _ _
    · exact into_nil id

omit [NodeSource σ] in
theorem Answer.formatters_into (code : String) (position : Nat) (ids : List NodeId) :
    (formatters ctx id code position ids).Into id := by
  induction ids generalizing position with
  | nil => exact into_nil id
  | cons formatter rest ih =>
    rw [formatters]
    exact Into.append (ctx.fill_into id _ _ _ _) (ih (position + 1))

theorem Answer.localProducers_into (definition : Pseudo) :
    (localProducers ctx id definition).Into id := by
  apply Into.after
  intro field
  simp only [fieldProducers]
  refine Into.append (Into.append (Into.append ?_ (formatters_into ctx id _ 0 _)) ?_)
    (ctx.load_into id _ _)
  · split
    · exact ctx.fill_into id _ _ _ _
    · exact into_nil id
  · split
    · exact ctx.fill_into id _ _ _ _
    · exact into_nil id

theorem Answer.single_into : (Answer.single ctx id).Into id := by
  refine Into.append (ctx.ofPseudo_into id _ fun definition => ?_)
    (Into.append (ctx.ofPseudo_into id _ fun definition => ?_) (ctx.ofKey_into id _ fun key => ?_))
  · exact localProducers_into ctx id definition
  · exact ctx.load_into id _ _
  · simp only [Answer.reader]
    split
    · exact ctx.feed_into id _ _ _ _
    · exact into_nil id

theorem SelfValue.reader_into : (SelfValue.reader ctx id).Into id := by
  simp only [SelfValue.reader]
  split
  · split
    · exact Into.after_error id _
    · exact into_nil id
  · split
    · exact ctx.feed_into id _ _ _ _
    · exact into_nil id

theorem SelfValue.single_into : (SelfValue.single ctx id).Into id :=
  ctx.ofReference_into id _ fun _ => reader_into ctx id

theorem Item.producer_into (definition : Pseudo) : (Item.producer ctx id definition).Into id := by
  refine Into.after fun found => Into.after fun collection => ?_
  split
  · exact ctx.fill_into id _ _ _ _
  · exact into_nil id

theorem Item.single_into : (Item.single ctx id).Into id := by
  refine Into.append (ctx.ofPseudo_into id _ (producer_into ctx id))
    (ctx.ofReference_into id _ fun expression => ?_)
  simp only [Item.reader]
  split
  · exact into_nil id
  · split
    · exact ctx.feed_into id _ _ _ _
    · exact into_nil id

end Into

end FormFlow
