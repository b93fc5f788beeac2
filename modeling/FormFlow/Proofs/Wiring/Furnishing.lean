import FormFlow.Proofs.Form.Rooted
import FormFlow.Proofs.Wiring.Registration

/-!
# The pseudo-nodes that are there to be read

Before a step is wired, everything that its nodes read is made (`Synthesis.run_furnishes`): the
local answer of a field, a pseudo-node for the key of a reference, the item of a collection or
an iteration. An item is made for nothing else.

What is made for one step stays while others follow, so after all steps of a form the members of
each have what they read (`WiredForm.synthesize_furnishes`). Without an end of identifiers nothing
stands against making any of it (`Synthesis.make_eq_run`, `WiredForm.supply_eq_synthesize`).
-/

set_option autoImplicit false

namespace FormFlow

open NodeSource

/-- There is a pseudo-node with an identity. -/
def NodeSource.HasPseudo {σ : Type} [NodeSource σ] (nodes : σ) (identity : PseudoKey) : Prop :=
  ∃ id, pseudo? nodes identity = some id

theorem NodeSource.Shows.hasPseudo {σ τ : Type} [NodeSource σ] [NodeSource τ] {earlier : σ}
    {later : τ} (shown : Shows earlier later) {identity : PseudoKey}
    (has : HasPseudo earlier identity) : HasPseudo later identity := by
  obtain ⟨id, found⟩ := has
  exact ⟨id, shown.pseudo identity id found⟩

theorem Reference.keyedTarget?_eq_some_iff {expression : Reference} {space : Namespace}
    {key : String} : expression.keyedTarget? = some (space, key) ↔
      expression.selected? = some space ∧ expression.lookupKey? space = some key ∧
        space.isKeyed = true := by
  simp only [Reference.keyedTarget?]
  simp only [Option.bind_eq_bind, Option.bind_eq_some_iff]
  constructor
  · rintro ⟨other, selected, found, known, same⟩
    split at same
    · cases same
      exact ⟨selected, known, ‹_›⟩
    · cases same
  · rintro ⟨selected, known, keyed⟩
    exact ⟨space, selected, key, known, by rw [if_pos keyed]⟩

namespace Synthesis

section

variable {σ τ : Type} [NodeSource σ] [NodeSource τ]

/-- If a node is a field, its local answer is there. The node is seen in `initial`, the
pseudo-node in `nodes`. -/
def ServesField (initial : σ) (step : NodeId) (nodes : τ) (id : NodeId) : Prop :=
  ∀ node field, node? initial id = some node → node.kind = .field field →
    HasPseudo nodes ⟨.answerLocal, step, field.code⟩

/-- If a node is a reference with a key, a pseudo-node that it can read is there. -/
def ServesReference (initial : σ) (step : NodeId) (nodes : τ) (id : NodeId) : Prop :=
  ∀ node expression space key, node? initial id = some node → node.kind = .reference expression →
    expression.keyedTarget? = some (space, key) →
      ∃ kind, kind.reads = space ∧ HasPseudo nodes ⟨kind, step, key⟩

/-- If a node is a collection or an iteration, its item is there. -/
def ServesRepeated (initial : σ) (step : NodeId) (nodes : τ) (id : NodeId) : Prop :=
  ∀ node key, node? initial id = some node → Item.keyOfKind? id node.kind = some key →
    HasPseudo nodes ⟨.item, step, key⟩

/-- What the nodes of a step read is there. -/
structure Furnishes (initial : σ) (step : NodeId) (fields references repeated : List NodeId)
    (nodes : τ) : Prop where
  fields : ∀ id ∈ fields, ServesField initial step nodes id
  references : ∀ id ∈ references, ServesReference initial step nodes id
  repeated : ∀ id ∈ repeated, ServesRepeated initial step nodes id

variable {υ ρ : Type} [NodeSource υ] [NodeSource ρ] {initial : σ} {nodes : τ} {first : υ}
  {later : ρ} {step id : NodeId}

theorem ServesField.mono (serves : ServesField initial step nodes id)
    (before : ∀ node, node? first id = some node → node? initial id = some node)
    (after : Shows nodes later) : ServesField first step later id :=
  fun node field found isField => after.hasPseudo (serves node field (before node found) isField)

theorem ServesReference.mono (serves : ServesReference initial step nodes id)
    (before : ∀ node, node? first id = some node → node? initial id = some node)
    (after : Shows nodes later) : ServesReference first step later id := by
  intro node expression space key found isReference target
  obtain ⟨kind, reads, has⟩ :=
    serves node expression space key (before node found) isReference target
  exact ⟨kind, reads, after.hasPseudo has⟩

theorem ServesRepeated.mono (serves : ServesRepeated initial step nodes id)
    (before : ∀ node, node? first id = some node → node? initial id = some node)
    (after : Shows nodes later) : ServesRepeated first step later id :=
  fun node key found keyed => after.hasPseudo (serves node key (before node found) keyed)

theorem Furnishes.mono {fields references repeated : List NodeId}
    (furnishes : Furnishes initial step fields references repeated nodes)
    (before : Shows first initial) (after : Shows nodes later) :
    Furnishes first step fields references repeated later :=
  ⟨fun id member => (furnishes.fields id member).mono (before.node id) after,
    fun id member => (furnishes.references id member).mono (before.node id) after,
    fun id member => (furnishes.repeated id member).mono (before.node id) after⟩

end

variable {σ : Type} [PseudoSink σ]

/-- Looking pseudo-nodes of a step up does not fail in a sink that is in good order. It leaves the
sink in good order, keeps what it shows, and adds nothing but the pseudo-node that is wanted. -/
structure Locates (Good : σ → Prop) (step : NodeId) : Prop where
  creates : ∀ nodes identity origin, Good nodes →
    PseudoSink.findOrCreate nodes identity origin .endless =
      .ok (PseudoSink.locate nodes identity origin)
  keeps : ∀ nodes identity origin, identity.scope = step → Good nodes →
    Good (PseudoSink.locate nodes identity origin).nodes
  shows : ∀ nodes identity origin, identity.scope = step → Good nodes →
    Shows nodes (PseudoSink.locate nodes identity origin).nodes
  present : ∀ nodes identity origin, identity.scope = step → Good nodes →
    HasPseudo (PseudoSink.locate nodes identity origin).nodes identity
  only : ∀ nodes identity origin, identity.scope = step → Good nodes → ∀ other,
    HasPseudo (PseudoSink.locate nodes identity origin).nodes other →
      HasPseudo nodes other ∨ other = identity

/-- How far the making of pseudo-nodes has come from some nodes. -/
structure Reached (Good : σ → Prop) (Asked : PseudoKey → Prop) (initial nodes : σ) : Prop where
  good : Good nodes
  shown : Shows initial nodes
  only : ∀ identity, HasPseudo nodes identity → HasPseudo initial identity ∨ Asked identity

/-- The kind that a reference needs is one that its namespace reads. -/
theorem reads_of_kindFor? (nodes : σ) (step : NodeId) {space : Namespace} (key : String)
    (keyed : space.isKeyed = true) :
    (∃ kind, kindFor? nodes step space key = some kind ∧ kind.reads = space ∧ kind ≠ .item) ∨
      (kindFor? nodes step space key = none ∧ space = .answers ∧
        HasPseudo nodes ⟨.answerLocal, step, key⟩) := by
  simp only [kindFor?]
  cases space with
  | answers =>
    dsimp only
    split
    · rename_i present
      exact .inr ⟨rfl, rfl, Option.isSome_iff_exists.1 present⟩
    · exact .inl ⟨_, rfl, rfl, by decide⟩
  | post => exact .inl ⟨_, rfl, rfl, by decide⟩
  | query => exact .inl ⟨_, rfl, rfl, by decide⟩
  | params => exact .inl ⟨_, rfl, rfl, by decide⟩
  | data => exact .inl ⟨_, rfl, rfl, by decide⟩
  | selfValue => cases keyed
  | item => cases keyed

section

variable {Good : σ → Prop} {Asked : PseudoKey → Prop} {step : NodeId} {initial : σ}
  (locates : Locates Good step)
include locates

theorem want_reached {state : State σ} (reached : Reached Good Asked initial state.nodes)
    (identity : PseudoKey) (within : identity.scope = step) (asked : Asked identity)
    (origin : Option NodeId) :
    Reached Good Asked initial (want state identity origin).nodes ∧
      Shows state.nodes (want state identity origin).nodes ∧
      HasPseudo (want state identity origin).nodes identity := by
  have later := locates.shows state.nodes identity origin within reached.good
  refine ⟨⟨locates.keeps _ _ origin within reached.good, reached.shown.trans later, ?_⟩, later,
    locates.present _ _ origin within reached.good⟩
  intro other has
  rcases locates.only _ _ origin within reached.good other has with old | rfl
  · exact reached.only other old
  · exact .inr asked

theorem ofField_reached {state : State σ} (reached : Reached Good Asked initial state.nodes)
    (asked : ∀ kind key, kind ≠ PseudoKind.item → Asked ⟨kind, step, key⟩) (id : NodeId) :
    Reached Good Asked initial (ofField step state id).nodes ∧
      Shows state.nodes (ofField step state id).nodes ∧
      ServesField initial step (ofField step state id).nodes id := by
  simp only [ofField]
  cases known : (node? state.nodes id).bind fun node => node.kind.field? with
  | none =>
    refine ⟨reached, .refl _, ?_⟩
    intro node field found isField
    rw [reached.shown.node id node found, Option.bind_some, isField] at known
    cases known
  | some definition =>
    obtain ⟨first, earlier, -⟩ := want_reached locates reached
      ⟨.post, step, definition.code⟩ rfl (asked _ _ (by decide)) (some id)
    obtain ⟨second, again, present⟩ := want_reached locates first
      ⟨.answerLocal, step, definition.code⟩ rfl (asked _ _ (by decide)) (some id)
    refine ⟨second, earlier.trans again, ?_⟩
    intro node field found isField
    rw [reached.shown.node id node found, Option.bind_some, isField] at known
    cases known
    exact present

omit locates in
/-- A reference with a key needs the pseudo-node of the kind for it, if there is one. -/
theorem ofReference_eq_elim {state : State σ} {id : NodeId} {expression : Reference}
    {space : Namespace} {key : String}
    (known : ((node? state.nodes id).bind fun node => node.kind.reference?) = some expression)
    (target : expression.keyedTarget? = some (space, key)) :
    ofReference step state id =
      (kindFor? state.nodes step space key).elim state
        fun kind => want state ⟨kind, step, key⟩ none := by
  obtain ⟨node, found, isReference⟩ := Option.bind_eq_some_iff.1 known
  simp only [ofReference, found, isReference, target, Option.bind_eq_bind, Option.bind_some]
  cases kindFor? state.nodes step space key <;> rfl

omit locates in
/-- Nothing else needs one. -/
theorem ofReference_eq_self {state : State σ} {id : NodeId}
    (absent : ((node? state.nodes id).bind fun node => node.kind.reference?).bind
      Reference.keyedTarget? = none) : ofReference step state id = state := by
  simp only [ofReference, Option.bind_eq_bind]
  cases found : node? state.nodes id with
  | none => rfl
  | some node =>
    rw [found, Option.bind_some] at absent
    cases isReference : node.kind.reference? with
    | none => simp only [Option.bind_some, isReference, Option.bind_none]
    | some expression =>
      rw [isReference, Option.bind_some] at absent
      simp only [Option.bind_some, isReference, absent, Option.bind_none]

theorem ofReference_reached {state : State σ} (reached : Reached Good Asked initial state.nodes)
    (asked : ∀ kind key, kind ≠ PseudoKind.item → Asked ⟨kind, step, key⟩) (id : NodeId) :
    Reached Good Asked initial (ofReference step state id).nodes ∧
      Shows state.nodes (ofReference step state id).nodes ∧
      ServesReference initial step (ofReference step state id).nodes id := by
  -- The node is seen in the nodes that are reached as well.
  have seen : ∀ node expression space key, node? initial id = some node →
      node.kind = .reference expression → expression.keyedTarget? = some (space, key) →
        ((node? state.nodes id).bind fun node => node.kind.reference?).bind
          Reference.keyedTarget? = some (space, key) := by
    intro node expression space key found isReference target
    rw [reached.shown.node id node found, Option.bind_some, isReference]
    exact target
  cases target : ((node? state.nodes id).bind fun node => node.kind.reference?).bind
      Reference.keyedTarget? with
  | none =>
    rw [ofReference_eq_self target]
    refine ⟨reached, .refl _, ?_⟩
    intro node expression space key found isReference keyed
    cases target.symm.trans (seen node expression space key found isReference keyed)
  | some pair =>
    obtain ⟨space, key⟩ := pair
    obtain ⟨expression, known, keyed⟩ := Option.bind_eq_some_iff.1 target
    rw [ofReference_eq_elim known keyed]
    rcases reads_of_kindFor? state.nodes step key
      (Reference.keyedTarget?_eq_some_iff.1 keyed).2.2 with
      ⟨kind, needed, reads, other⟩ | ⟨unneeded, reads, has⟩
    · rw [needed]
      obtain ⟨next, later, present⟩ := want_reached locates reached
        ⟨kind, step, key⟩ rfl (asked kind key other) none
      refine ⟨next, later, ?_⟩
      intro node expression other wanted found isReference again
      cases target.symm.trans (seen node expression other wanted found isReference again)
      exact ⟨kind, reads, present⟩
    · rw [unneeded]
      refine ⟨reached, .refl _, ?_⟩
      intro node expression other wanted found isReference again
      cases target.symm.trans (seen node expression other wanted found isReference again)
      exact ⟨.answerLocal, reads.symm, has⟩

theorem ofRepeated_reached {state : State σ} (reached : Reached Good Asked initial state.nodes)
    {id : NodeId} {node : Node} (found : node? initial id = some node)
    (asked : ∀ key, Item.keyOfKind? id node.kind = some key → Asked ⟨.item, step, key⟩) :
    Reached Good Asked initial (ofRepeated step state id).nodes ∧
      Shows state.nodes (ofRepeated step state id).nodes ∧
      ServesRepeated initial step (ofRepeated step state id).nodes id := by
  rw [ofRepeated, reached.shown.node id node found, Option.bind_some]
  cases keyed : Item.keyOfKind? id node.kind with
  | none =>
    refine ⟨reached, .refl _, ?_⟩
    intro other key again known
    cases found.symm.trans again
    rw [keyed] at known
    cases known
  | some key =>
    obtain ⟨next, later, present⟩ := want_reached locates reached
      ⟨.item, step, key⟩ rfl (asked key keyed) (some id)
    refine ⟨next, later, ?_⟩
    intro other again present' known
    cases found.symm.trans present'
    rw [keyed] at known
    cases known
    exact present

omit locates in
/-- What is served for each of some nodes stays served, so all of them are. -/
theorem foldl_reached {make : State σ → NodeId → State σ} (Serves : σ → NodeId → Prop)
    (stays : ∀ nodes later id, Serves nodes id → Shows nodes later → Serves later id)
    {ids : List NodeId}
    (each : ∀ state, ∀ id ∈ ids, Reached Good Asked initial state.nodes →
      Reached Good Asked initial (make state id).nodes ∧ Shows state.nodes (make state id).nodes ∧
        Serves (make state id).nodes id)
    {state : State σ} (reached : Reached Good Asked initial state.nodes) :
    Reached Good Asked initial (ids.foldl make state).nodes ∧
      Shows state.nodes (ids.foldl make state).nodes ∧
      ∀ id ∈ ids, Serves (ids.foldl make state).nodes id := by
  induction ids generalizing state with
  | nil => exact ⟨reached, .refl _, nofun⟩
  | cons id rest ih =>
    obtain ⟨next, step, served⟩ := each state id (List.mem_cons_self ..) reached
    obtain ⟨last, later, all⟩ := ih
      (fun state other member => each state other (List.mem_cons_of_mem _ member)) next
    refine ⟨last, step.trans later, ?_⟩
    intro other member
    rcases List.mem_cons.1 member with rfl | known
    · exact stays _ _ _ served later
    · exact all other known

/-- Making the pseudo-nodes for nodes of a step furnishes them, and makes items for nothing
else. -/
theorem run_furnishes (good : Good initial) (fields references repeated : List NodeId)
    (present : ∀ id ∈ repeated, ∃ node, node? initial id = some node) {made : State σ}
    (ran : run initial step fields references repeated = made) :
    Good made.nodes ∧ Shows initial made.nodes ∧
      Furnishes initial step fields references repeated made.nodes ∧
      ∀ scope key, HasPseudo made.nodes ⟨.item, scope, key⟩ →
        HasPseudo initial ⟨.item, scope, key⟩ ∨ ∃ id ∈ repeated, ∃ node,
          node? initial id = some node ∧ Item.keyOfKind? id node.kind = some key := by
  subst ran
  let Asked : PseudoKey → Prop := fun identity => identity.kind = .item →
    ∃ id ∈ repeated, ∃ node, node? initial id = some node ∧
      Item.keyOfKind? id node.kind = some identity.key
  have others : ∀ kind key, kind ≠ PseudoKind.item → Asked ⟨kind, step, key⟩ :=
    fun kind key other same => absurd same other
  have start : Reached Good Asked initial (⟨initial, []⟩ : State σ).nodes :=
    ⟨good, .refl _, fun _ => .inl⟩
  obtain ⟨first, -, fieldsServed⟩ := foldl_reached (ServesField initial step)
    (fun _ _ _ serves => serves.mono fun _ found => found)
    (fun state id _ reached => ofField_reached locates reached others id) start
  obtain ⟨second, toSecond, referencesServed⟩ := foldl_reached (ServesReference initial step)
    (fun _ _ _ serves => serves.mono fun _ found => found)
    (fun state id _ reached => ofReference_reached locates reached others id) first
  obtain ⟨third, toThird, repeatedServed⟩ := foldl_reached (ServesRepeated initial step)
    (fun _ _ _ serves => serves.mono fun _ found => found)
    (fun state id member reached => by
      obtain ⟨node, found⟩ := present id member
      exact ofRepeated_reached locates reached found
        fun key keyed _ => ⟨id, member, node, found, keyed⟩) second
  refine ⟨third.good, third.shown, ⟨?_, ?_, repeatedServed⟩, ?_⟩
  · intro id member
    exact (fieldsServed id member).mono (fun _ found => found) (toSecond.trans toThird)
  · intro id member
    exact (referencesServed id member).mono (fun _ found => found) toThird
  · intro scope key has
    exact (third.only _ has).imp_right fun asked => asked rfl

/-- Where nodes are in good order, nothing stands against making what some of them need. -/
theorem make_eq_run [LawfulSink σ] (good : Good initial) (fields references repeated : List NodeId)
    (present : ∀ id, id ∈ fields ∨ id ∈ references ∨ id ∈ repeated →
      ∃ node, node? initial id = some node) :
    make .endless initial step fields references repeated =
      .ok (run initial step fields references repeated) := by
  let Within : State σ → Prop := fun state => Good state.nodes ∧ Shows initial state.nodes
  have demands : ∀ (state : State σ) (need : Need), need.1.scope = step → Within state →
      ∃ next, demand .endless state need = .ok next ∧ Within next := by
    intro state need within ⟨good, shown⟩
    refine ⟨state.extend (PseudoSink.locate state.nodes need.1 need.2), ?_,
      locates.keeps _ _ _ within good, shown.trans (locates.shows _ _ _ within good)⟩
    rw [demand, locates.creates _ _ _ good]
  have serves : ∀ needs : σ → NodeId → NodeId → NodeKind → List Need,
      (∀ nodes id kind, ∀ need ∈ needs nodes step id kind, need.1.scope = step) →
      ∀ (state : State σ) (id : NodeId), (∃ node, node? initial id = some node) → Within state →
        ∃ next, serve .endless needs step state id = .ok next ∧ Within next := by
    intro needs within before id there held
    obtain ⟨node, found⟩ := there
    have each : ∀ state, ∀ need ∈ needs before.nodes step id node.kind, Within state →
        ∃ next, demand .endless state need = .ok next ∧ Within next :=
      fun state need member => demands state need (within _ id node.kind need member)
    obtain ⟨next, ran, kept⟩ := Except.exists_foldlM each held
    exact ⟨next, serve_eq_ok_iff.2 ⟨node, held.2.node id node found, ran⟩, kept⟩
  obtain ⟨first, ran, held⟩ := Except.exists_foldlM (fun state id member =>
    serves fieldNeeds (fun _ _ _ _ => scope_of_needs ∘ .inl) state id
      (present id (.inl member))) (⟨good, .refl _⟩ : Within ⟨initial, []⟩)
  obtain ⟨second, again, held⟩ := Except.exists_foldlM (fun state id member =>
    serves referenceNeeds (fun _ _ _ _ => scope_of_needs ∘ .inr ∘ .inl) state id
      (present id (.inr (.inl member)))) held
  obtain ⟨third, last, -⟩ := Except.exists_foldlM (fun state id member =>
    serves repeatedNeeds (fun _ _ _ _ => scope_of_needs ∘ .inr ∘ .inr) state id
      (present id (.inr (.inr member)))) held
  have made : make .endless initial step fields references repeated = .ok third :=
    Except.bind_eq_ok_iff.2 ⟨first, ran, Except.bind_eq_ok_iff.2 ⟨second, again, last⟩⟩
  rw [made, make_endless made]

end

end Synthesis

/-! ## The pseudo-nodes of a form -/

namespace NodeStore

theorem Grows.shows {mark : Nat} {store later : NodeStore} (grows : Grows mark store later) :
    Shows store later :=
  ⟨fun _ _ found => grows.node?_of_found found, fun _ _ found => grows.pseudo?_of_found found⟩

theorem hasPseudo_iff {store : NodeStore} (coherent : store.Coherent) {identity : PseudoKey} :
    HasPseudo store identity ↔ ∃ node ∈ store.nodes, node.identity? = some identity := by
  constructor
  · rintro ⟨id, found⟩
    obtain ⟨node, present, same⟩ := (pseudo?_eq_some_iff coherent).1 found
    exact ⟨node, ((node?_eq_some_iff coherent).1 present).1, same⟩
  · rintro ⟨node, member, same⟩
    exact ⟨node.id, (pseudo?_eq_some_iff coherent).2 ⟨node, node?_of_mem coherent member, same⟩⟩

theorem hasPseudo_push {store : NodeStore} (coherent : store.Coherent) {node : Node}
    (free : store.conflict? node = none) {identity : PseudoKey} :
    HasPseudo (store.push node) identity ↔
      HasPseudo store identity ∨ node.identity? = some identity := by
  rw [hasPseudo_iff (coherent.push free), hasPseudo_iff coherent]
  change (∃ other ∈ store.nodes ++ [node], other.identity? = some identity) ↔ _
  constructor
  · rintro ⟨other, member, same⟩
    rcases List.mem_append.1 member with old | new
    · exact .inl ⟨other, old, same⟩
    · exact .inr (List.mem_singleton.1 new ▸ same)
  · rintro (⟨other, old, same⟩ | same)
    · exact ⟨other, List.mem_append_left _ old, same⟩
    · exact ⟨node, List.mem_append_right _ (List.mem_singleton_self _), same⟩

/-- A store looks pseudo-nodes up as it should. -/
theorem locates (step : NodeId) : Synthesis.Locates (σ := NodeStore) Coherent step where
  creates := fun _ identity origin coherent => coherent.findOrCreate_eq (by nofun) identity origin
  keeps := fun _ identity origin _ coherent => coherent.locate identity origin
  shows := fun _ identity origin _ coherent =>
    (Grows.refl.locate coherent (Nat.le_refl _) identity origin).shows
  present := fun store identity origin _ _ => ⟨_, pseudo?_locate store identity origin⟩
  only := by
    intro store identity origin _ coherent other has
    change HasPseudo (store.locate identity origin).nodes other at has
    cases present : store.pseudo? identity with
    | some id =>
      rw [locate_of_present present] at has
      exact .inl has
    | none =>
      rw [locate_of_absent present] at has
      have free := coherent.conflict?_fresh present origin
      apply ((hasPseudo_push coherent free).1 has).imp_right
      rintro ⟨⟩
      rfl

end NodeStore

namespace WiredForm

/-- After all steps the members of each have what they read, and there are items of their
collections only. -/
theorem synthesize_furnishes {membership : StepMembership} {steps : List NodeId}
    {store : NodeStore} (coherent : store.Coherent)
    (present : ∀ step, ∀ id ∈ (membership.members step).collections,
      ∃ node, node? store id = some node) (count : Nat) {made : NodeStore}
    (ran : (synthesize membership steps store count).1 = made) :
    Shows store made ∧
      (∀ step ∈ steps, Synthesis.Furnishes store step (membership.members step).fields
        (membership.members step).references (membership.members step).collections made) ∧
      ∀ scope key, HasPseudo made ⟨.item, scope, key⟩ →
        HasPseudo store ⟨.item, scope, key⟩ ∨
          ∃ step, ∃ id ∈ (membership.members step).collections, ∃ node,
            node? store id = some node ∧ Item.keyOfKind? id node.kind = some key := by
  induction steps generalizing store count with
  | nil =>
    cases ran
    exact ⟨.refl _, nofun, fun _ _ => .inl⟩
  | cons step rest ih =>
    obtain ⟨good, first, served, items⟩ := Synthesis.run_furnishes (NodeStore.locates step)
      coherent (membership.members step).fields (membership.members step).references
      (membership.members step).collections (present step) rfl
    obtain ⟨later, others, more⟩ := ih good (fun other id member => by
      obtain ⟨node, found⟩ := present other id member
      exact ⟨node, first.node id node found⟩) _ ran
    refine ⟨first.trans later, ?_, ?_⟩
    · intro other member
      rcases List.mem_cons.1 member with rfl | known
      · exact served.mono (.refl _) later
      · exact (others other known).mono first (.refl _)
    · intro scope key has
      rcases more scope key has with old | ⟨other, id, member, node, found, keyed⟩
      · rcases items scope key old with older | ⟨id, member, node, found, keyed⟩
        · exact .inl older
        · exact .inr ⟨step, id, member, node, found, keyed⟩
      · obtain ⟨same, known⟩ := present other id member
        cases (first.node id same known).symm.trans found
        exact .inr ⟨other, id, member, node, known, keyed⟩

/-- Nothing stands against making what the members of steps need. -/
theorem supply_eq_synthesize {membership : StepMembership} {steps : List NodeId}
    {store : NodeStore} (coherent : store.Coherent)
    (present : ∀ step role, ∀ id ∈ membership.within step role,
      ∃ node, node? store id = some node) (count : Nat) :
    supply .endless membership steps store count = .ok (synthesize membership steps store count) := by
  induction steps generalizing store count with
  | nil => rfl
  | cons step rest ih =>
    have made := Synthesis.make_eq_run (NodeStore.locates step) coherent
      (membership.members step).fields (membership.members step).references
      (membership.members step).collections <| by
        rintro id (member | member | member) <;> exact present step _ id member
    have grows := Synthesis.run_grows coherent step (membership.members step).fields
      (membership.members step).references (membership.members step).collections
    rw [supply, Synthesis.makeStep, made]
    exact ih (grows.coherent coherent) (fun other role id member => by
      obtain ⟨node, found⟩ := present other role id member
      exact ⟨node, grows.node?_of_found found⟩) _

end WiredForm

end FormFlow
