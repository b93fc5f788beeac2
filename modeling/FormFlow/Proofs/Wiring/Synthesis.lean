import FormFlow.Proofs.Except
import FormFlow.Proofs.Form.Lasting
import FormFlow.Wiring.Synthesis

/-!
# What the making of pseudo-nodes preserves

However many members a step has, their pseudo-nodes are made by one operation, `want`, and
always in the scope of the step. What `want` preserves is therefore preserved by a whole run
(`Synthesis.run_induction`), and what a pseudo-node is made for is known of each
(`Synthesis.run_sourced`).

`Synthesis.make` does the same with the errors that can come up. If it succeeds, it comes to
`Synthesis.run` (`Synthesis.make_endless`). What every creation preserves is preserved wherever it
stops (`Synthesis.make_induction`). How identifiers are counted makes no difference as long as no
node is given the last one (`Synthesis.make_recounts`).
-/

set_option autoImplicit false

namespace FormFlow

namespace Synthesis

variable {σ : Type} [PseudoSink σ]

/-- A local answer is made for a field, and an item for the collection or iteration with its key. -/
structure Sourced (Known : NodeId → Node → Prop) (identity : PseudoKey)
    (origin : Option NodeId) : Prop where
  answer : identity.kind = .answerLocal → ∃ id node field, origin = some id ∧ Known id node ∧
    node.kind = .field field
  item : identity.kind = .item → ∃ id node, origin = some id ∧ Known id node ∧
    Item.keyOfKind? id node.kind = some identity.key

/-- What every creation in a step preserves holds after all of them, where it is known of the
nodes that are found what pseudo-nodes are made for. -/
theorem run_sourced (Known : NodeId → Node → Prop) {P : State σ → Prop} {step : NodeId}
    (known : ∀ state id node, P state → NodeSource.node? state.nodes id = some node →
      Known id node)
    (wants : ∀ state identity origin, identity.scope = step → Sourced Known identity origin →
      P state → P (want state identity origin))
    {nodes : σ} (start : P ⟨nodes, []⟩) (fields references repeated : List NodeId) :
    P (run nodes step fields references repeated) := by
  have folded : ∀ (make : State σ → NodeId → State σ), (∀ state id, P state → P (make state id)) →
      ∀ (ids : List NodeId) (state : State σ), P state → P (ids.foldl make state) := by
    intro make keeps ids
    induction ids with
    | nil => exact fun state held => held
    | cons id rest ih => exact fun state held => ih _ (keeps state id held)
  refine folded _ ?_ _ _ (folded _ ?_ _ _ (folded _ ?_ _ _ start))
  · intro state id held
    simp only [ofRepeated]
    split
    · rename_i key keyed
      obtain ⟨node, found, keyed⟩ := Option.bind_eq_some_iff.1 keyed
      refine wants _ _ _ rfl ⟨nofun, fun _ => ?_⟩ held
      exact ⟨id, node, rfl, known state id node held found, keyed⟩
    · exact held
  · intro state id held
    unfold ofReference
    dsimp only
    split
    · rename_i identity target
      simp only [Option.bind_eq_bind, Option.bind_eq_some_iff] at target
      obtain ⟨_, _, _, _, ⟨space, key⟩, _, kind, needed, same⟩ := target
      cases same
      -- References are served by pseudo-nodes that have no origin.
      have other : kind ≠ .answerLocal ∧ kind ≠ .item := by
        cases space <;> simp only [kindFor?] at needed <;> first
          | cases needed <;> exact ⟨nofun, nofun⟩
          | split at needed <;> cases needed
            exact ⟨nofun, nofun⟩
      exact wants _ _ _ rfl ⟨fun same => absurd same other.1, fun same => absurd same other.2⟩ held
    · exact held
  · intro state id held
    simp only [ofField]
    split
    · rename_i field isField
      obtain ⟨node, found, isField⟩ := Option.bind_eq_some_iff.1 isField
      have there := known state id node held found
      refine wants _ _ _ rfl ⟨fun _ => ?_, nofun⟩ (wants _ _ _ rfl ⟨nofun, nofun⟩ held)
      exact ⟨id, node, field, rfl, there, NodeKind.field?_eq_some_iff.1 isField⟩
    · exact held

/-- What every creation in a step preserves holds after all of them. -/
theorem run_induction {P : State σ → Prop} {step : NodeId}
    (wants : ∀ state identity origin, identity.scope = step → P state →
      P (want state identity origin))
    {nodes : σ} (start : P ⟨nodes, []⟩) (fields references repeated : List NodeId) :
    P (run nodes step fields references repeated) :=
  run_sourced (fun _ _ => True) (fun _ _ _ _ _ => trivial)
    (fun state identity origin within _ => wants state identity origin within) start fields
    references repeated

/-! ## What making comes to -/

/-- A sink in which a pseudo-node that is found or created is the one that `locate` says. -/
class LawfulSink (σ : Type) [PseudoSink σ] : Prop where
  eq_locate : ∀ {nodes : σ} {identity : PseudoKey} {origin : Option NodeId} {located : Located σ},
    PseudoSink.findOrCreate nodes identity origin .endless = .ok located →
      located = PseudoSink.locate nodes identity origin

instance : LawfulSink NodeStore where
  eq_locate := by
    intro store identity origin located found
    change store.findOrCreate identity origin .endless = _ at found
    change located = store.locate identity origin
    rw [NodeStore.findOrCreate_eq] at found
    rw [NodeStore.locate]
    cases present : store.pseudo? identity with
    | some existing =>
      rw [present] at found
      exact (Except.ok.inj found).symm
    | none =>
      rw [present] at found
      dsimp only at found
      split at found
      · cases found
      · exact (Except.ok.inj found).symm

section

variable {step id : NodeId} {state next : State σ} {node : Node}

/-- Looks up or makes what is wanted. -/
def ofWant (state : State σ) (entry : Need) : State σ := want state entry.1 entry.2

theorem ofField_of_found (found : NodeSource.node? state.nodes id = some node) :
    ofField step state id = (fieldNeeds state.nodes step id node.kind).foldl ofWant state := by
  rw [ofField, fieldNeeds, found, Option.bind_some]
  cases node.kind.field? <;> rfl

theorem ofReference_of_found (found : NodeSource.node? state.nodes id = some node) :
    ofReference step state id =
      (referenceNeeds state.nodes step id node.kind).foldl ofWant state := by
  simp only [ofReference, referenceNeeds, found, Option.bind_eq_bind, Option.bind_some]
  generalize (node.kind.reference?.bind _ : Option PseudoKey) = target
  cases target <;> rfl

theorem ofRepeated_of_found (found : NodeSource.node? state.nodes id = some node) :
    ofRepeated step state id =
      (repeatedNeeds state.nodes step id node.kind).foldl ofWant state := by
  rw [ofRepeated, repeatedNeeds, found, Option.bind_some]
  cases Item.keyOfKind? id node.kind <;> rfl

theorem serve_eq_ok_iff {counting : Counting} {needs : σ → NodeId → NodeId → NodeKind → List Need} :
    serve counting needs step state id = .ok next ↔
      ∃ node, NodeSource.node? state.nodes id = some node ∧
        (needs state.nodes step id node.kind).foldlM (demand counting) state = .ok next := by
  rw [serve, NodeSource.get]
  cases NodeSource.node? state.nodes id with
  | none =>
    constructor
    · intro ran
      cases ran
    · rintro ⟨_, absent, _⟩
      cases absent
  | some node =>
    constructor
    · intro ran
      exact ⟨node, rfl, ran⟩
    · rintro ⟨_, same, ran⟩
      cases same
      exact ran

variable [LawfulSink σ]

theorem ofWant_of_demand {need : Need} (made : demand .endless state need = .ok next) :
    next = ofWant state need := by
  rw [demand] at made
  split at made
  · rename_i located found
    cases made
    rw [LawfulSink.eq_locate found]
    rfl
  · cases made

theorem of_serve {needs : σ → NodeId → NodeId → NodeKind → List Need}
    {total : State σ → NodeId → State σ}
    (same : ∀ state id node, NodeSource.node? state.nodes id = some node →
      total state id = (needs state.nodes step id node.kind).foldl ofWant state)
    (served : serve .endless needs step state id = .ok next) : next = total state id := by
  obtain ⟨node, found, ran⟩ := serve_eq_ok_iff.1 served
  rw [same state id node found]
  exact Except.foldl_of_foldlM (fun _ _ _ => ofWant_of_demand) ran

/-- Making that succeeds has made what is said of it. -/
theorem make_endless {nodes : σ} {fields references repeated : List NodeId}
    (made : make .endless nodes step fields references repeated = .ok next) :
    next = run nodes step fields references repeated := by
  obtain ⟨first, ran, made⟩ := Except.bind_eq_ok_iff.1 made
  obtain ⟨second, again, last⟩ := Except.bind_eq_ok_iff.1 made
  have fromFields : first = fields.foldl (ofField step) ⟨nodes, []⟩ :=
    Except.foldl_of_foldlM (fun _ _ _ => of_serve fun _ _ _ => ofField_of_found) ran
  have fromReferences : second = references.foldl (ofReference step) first :=
    Except.foldl_of_foldlM (fun _ _ _ => of_serve fun _ _ _ => ofReference_of_found) again
  rw [run, ← fromFields, ← fromReferences]
  exact Except.foldl_of_foldlM (fun _ _ _ => of_serve fun _ _ _ => ofRepeated_of_found) last

theorem makeBatch_endless {nodes : σ} {batch : List NodeId}
    (made : makeBatch .endless nodes step batch = .ok next) :
    runBatch nodes step batch = .ok next := by
  obtain ⟨found, mapped, made⟩ := Except.bind_eq_ok_iff.1 made
  rw [make_endless made]
  exact Except.bind_eq_ok_iff.2 ⟨found, Except.mapError_eq_ok_iff.1 mapped, rfl⟩

end

/-! ## Where making stops -/

/-- The nodes that making leaves, wherever it stops. -/
def left : Except (Stopped σ) (State σ) → σ
  | .ok state => state.nodes
  | .error stopped => stopped.nodes

theorem scope_of_needs {step : NodeId} {nodes : σ} {id : NodeId} {kind : NodeKind} {need : Need}
    (member : need ∈ fieldNeeds nodes step id kind ∨ need ∈ referenceNeeds nodes step id kind ∨
      need ∈ repeatedNeeds nodes step id kind) : need.1.scope = step := by
  rcases member with member | member | member
  · rw [fieldNeeds] at member
    split at member
    · rcases List.mem_cons.1 member with rfl | member
      · rfl
      · rw [List.mem_singleton.1 member]
    · cases member
  · obtain ⟨identity, target, rfl⟩ := List.mem_map.1 member
    simp only [Option.mem_toList, Option.bind_eq_bind, Option.bind_eq_some_iff] at target
    obtain ⟨_, _, ⟨space, key⟩, _, kind, _, same⟩ := target
    cases same
    rfl
  · obtain ⟨key, _, rfl⟩ := List.mem_map.1 member
    rfl

section

variable {P : σ → Prop}

omit [PseudoSink σ] in
theorem left_bind {result : Except (Stopped σ) (State σ)}
    {next : State σ → Except (Stopped σ) (State σ)} (first : P (left result))
    (goes : ∀ state, P state.nodes → P (left (next state))) : P (left (result >>= next)) := by
  cases result with
  | error stopped => exact first
  | ok state => exact goes state first

omit [PseudoSink σ] in
theorem left_foldlM {α : Type} {entries : List α}
    {make : State σ → α → Except (Stopped σ) (State σ)}
    (keeps : ∀ state, ∀ entry ∈ entries, P state.nodes → P (left (make state entry)))
    {state : State σ} (start : P state.nodes) : P (left (entries.foldlM make state)) := by
  induction entries generalizing state with
  | nil => exact start
  | cons entry rest ih =>
    rw [List.foldlM_cons]
    exact left_bind (keeps state entry (List.mem_cons_self ..) start) fun next held =>
      ih (fun state other member => keeps state other (List.mem_cons_of_mem _ member)) held

/-- What every creation in a step keeps is kept wherever making stops. -/
theorem make_induction {counting : Counting} {step : NodeId}
    (creates : ∀ nodes identity origin located, identity.scope = step → P nodes →
      PseudoSink.findOrCreate nodes identity origin counting = .ok located → P located.nodes)
    {nodes : σ} (start : P nodes) (fields references repeated : List NodeId) :
    P (left (make counting nodes step fields references repeated)) := by
  have demands : ∀ (state : State σ) (need : Need), need.1.scope = step → P state.nodes →
      P (left (demand counting state need)) := by
    intro state need within held
    rw [demand]
    split
    · rename_i located found
      exact creates _ _ _ _ within held found
    · exact held
  have serves : ∀ {needs : σ → NodeId → NodeId → NodeKind → List Need},
      (∀ nodes id kind, ∀ need ∈ needs nodes step id kind, need.1.scope = step) →
      ∀ (state : State σ) (id : NodeId), P state.nodes →
        P (left (serve counting needs step state id)) := by
    intro needs within state id held
    rw [serve, NodeSource.get]
    cases NodeSource.node? state.nodes id with
    | none => exact held
    | some node =>
      exact left_foldlM (fun next need member => demands next need (within _ _ _ need member)) held
  refine left_bind (left_foldlM (fun state id _ => serves ?_ state id) start) fun state held =>
    left_bind (left_foldlM (fun state id _ => serves ?_ state id) held) fun state held =>
      left_foldlM (fun state id _ => serves ?_ state id) held
  · exact fun _ _ _ _ member => scope_of_needs (.inl member)
  · exact fun _ _ _ _ member => scope_of_needs (.inr (.inl member))
  · exact fun _ _ _ _ member => scope_of_needs (.inr (.inr member))

theorem makeBatch_induction {counting : Counting} {step : NodeId}
    (creates : ∀ nodes identity origin located, identity.scope = step → P nodes →
      PseudoSink.findOrCreate nodes identity origin counting = .ok located → P located.nodes)
    {nodes : σ} (start : P nodes) (batch : List NodeId) :
    P (left (makeBatch counting nodes step batch)) := by
  rw [makeBatch]
  cases batch.mapM (NodeSource.get nodes) with
  | error error => exact start
  | ok found => exact make_induction creates start _ _ _

end

/-! ## How identifiers are counted -/

/-- Two ways of counting that find and create the same, where the nodes are calm afterwards. -/
structure CountsAlike (Calm : σ → Prop) (counting other : Counting) : Prop where
  found : ∀ {nodes : σ} {identity : PseudoKey} {origin : Option NodeId} {located : Located σ},
    PseudoSink.findOrCreate nodes identity origin counting = .ok located → Calm located.nodes →
      PseudoSink.findOrCreate nodes identity origin other = .ok located ∧ Calm nodes
  failed : ∀ {nodes : σ} {identity : PseudoKey} {origin : Option NodeId} {error : StructureError},
    PseudoSink.findOrCreate nodes identity origin counting = .error error →
      PseudoSink.findOrCreate nodes identity origin other = .error error

/-- Two ways of making that come to the same from some nodes, where calm nodes are left. -/
def Recounts (Calm : σ → Prop) (nodes : σ) (result again : Except (Stopped σ) (State σ)) : Prop :=
  Calm (left result) → again = result ∧ Calm nodes

section

variable {Calm : σ → Prop}

omit [PseudoSink σ] in
theorem Recounts.bind {nodes : σ} {result again : Except (Stopped σ) (State σ)}
    {next nextAgain : State σ → Except (Stopped σ) (State σ)}
    (first : Recounts Calm nodes result again)
    (rest : ∀ state, Recounts Calm state.nodes (next state) (nextAgain state)) :
    Recounts Calm nodes (result >>= next) (again >>= nextAgain) := by
  intro calm
  cases result with
  | error stopped =>
    obtain ⟨rfl, before⟩ := first calm
    exact ⟨rfl, before⟩
  | ok state =>
    obtain ⟨same, between⟩ := rest state calm
    obtain ⟨rfl, before⟩ := first between
    exact ⟨same, before⟩

omit [PseudoSink σ] in
theorem recounts_foldlM {α : Type} {make again : State σ → α → Except (Stopped σ) (State σ)}
    (each : ∀ state entry, Recounts Calm state.nodes (make state entry) (again state entry))
    (entries : List α) (state : State σ) :
    Recounts Calm state.nodes (entries.foldlM make state) (entries.foldlM again state) := by
  induction entries generalizing state with
  | nil => exact fun calm => ⟨rfl, calm⟩
  | cons entry rest ih =>
    rw [List.foldlM_cons, List.foldlM_cons]
    exact (each state entry).bind ih

variable {counting other : Counting} (alike : CountsAlike Calm counting other)
include alike

theorem demand_recounts (state : State σ) (need : Need) :
    Recounts Calm state.nodes (demand counting state need) (demand other state need) := by
  intro calm
  rw [demand] at calm
  rw [demand, demand]
  cases found : PseudoSink.findOrCreate state.nodes need.1 need.2 counting with
  | error error =>
    rw [found] at calm
    rw [alike.failed found]
    exact ⟨rfl, calm⟩
  | ok located =>
    rw [found] at calm
    obtain ⟨same, before⟩ := alike.found found calm
    rw [same]
    exact ⟨rfl, before⟩

theorem serve_recounts (needs : σ → NodeId → NodeId → NodeKind → List Need) (step : NodeId)
    (state : State σ) (id : NodeId) : Recounts Calm state.nodes
      (serve counting needs step state id) (serve other needs step state id) := by
  rw [serve, serve, NodeSource.get]
  cases NodeSource.node? state.nodes id with
  | none => exact fun calm => ⟨rfl, calm⟩
  | some node => exact recounts_foldlM (demand_recounts alike) _ state

/-- Counted in another way, the same is made of the same nodes. -/
theorem make_recounts (nodes : σ) (step : NodeId) (fields references repeated : List NodeId) :
    Recounts Calm nodes (make counting nodes step fields references repeated)
      (make other nodes step fields references repeated) :=
  (recounts_foldlM (serve_recounts alike _ step) fields ⟨nodes, []⟩).bind fun state =>
    (recounts_foldlM (serve_recounts alike _ step) references state).bind fun later =>
      recounts_foldlM (serve_recounts alike _ step) repeated later

theorem makeBatch_recounts (nodes : σ) (step : NodeId) (batch : List NodeId) :
    Recounts Calm nodes (makeBatch counting nodes step batch) (makeBatch other nodes step batch) := by
  rw [makeBatch, makeBatch]
  cases batch.mapM (NodeSource.get nodes) with
  | error error => exact fun calm => ⟨rfl, calm⟩
  | ok found => exact make_recounts alike nodes step _ _ _

end

theorem countsAlike_store (counting other : Counting) :
    CountsAlike NodeStore.Lasting counting other where
  found {store identity origin located} found lasting := by
    change store.findOrCreate identity origin counting = _ at found
    change store.findOrCreate identity origin other = _ ∧ _
    rw [NodeStore.findOrCreate_eq] at found ⊢
    cases present : store.pseudo? identity with
    | some existing =>
      rw [present] at found
      cases found
      exact ⟨rfl, lasting⟩
    | none =>
      rw [present] at found
      dsimp only at found ⊢
      split at found
      · cases found
      · rename_i free
        cases found
        obtain ⟨next, before⟩ := NodeStore.Lasting.of_take lasting
        rw [if_neg free, NodeStore.take_eq_push _ next, NodeStore.take_eq_push _ next]
        exact ⟨rfl, before⟩
  failed {store identity origin error} failed := by
    change store.findOrCreate identity origin counting = _ at failed
    change store.findOrCreate identity origin other = _
    rw [NodeStore.findOrCreate_eq] at failed ⊢
    cases present : store.pseudo? identity with
    | some existing =>
      rw [present] at failed
      cases failed
    | none =>
      rw [present] at failed
      dsimp only at failed ⊢
      split at failed
      · rename_i taken
        rw [if_pos taken]
        exact failed
      · cases failed

end Synthesis

end FormFlow
