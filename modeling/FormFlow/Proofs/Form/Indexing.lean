import Mathlib
import FormFlow.Proofs.Form.Built
import FormFlow.Proofs.Form.Preorder

/-!
# What the indices of a store say

A call on a store is a sequence of writes, and what was written before a call fails stays
written. `StoreCall.insertNode` is the insertion of a node write by write: the identity of a
pseudo-node, the list of references, the containment, the next identifier, and the node
last. Every check comes before the first write, so a call does what the function of its name
in `FormFlow.Form.Store` says, and leaves the store alone if it fails
(`StoreCall.outcome_insertNode`, `StoreCall.outcome_insert`, `StoreCall.outcome_locate`).

In a store that was started empty or read, and then changed by calls, every index lists
exactly what it says of the nodes, in the order of their insertion (`NodeStore.Indexed`).
Further calls can rely on this (`NodeStore.Reliable`): the next identifier is free, and an
identity that was found or created once is found from then on. A list of nodes is read as a
store exactly if no identifier and no identity stands twice in it (`reader_succeeds_iff`).
All of this is put together in `calls_indexed`.
-/

set_option autoImplicit false

namespace FormFlow

/-! ## Calls, write by write -/

/-- A call on a store. It may fail, and leaves what was written until then. -/
abbrev StoreCall (α : Type) := ExceptT StructureError (StateM NodeStore) α

namespace StoreCall

variable {α β : Type}

/-- The result of a call and the store that it leaves. -/
def outcome (call : StoreCall α) (store : NodeStore) :
    Except StructureError α × NodeStore :=
  (ExceptT.run call).run store

/-- Enters the identity of a pseudo-node, which must not be taken. -/
def enter (identity : PseudoKey) (id : NodeId) : StoreCall Unit := do
  match (← get).pseudo? identity with
  | some existing => throw (.duplicatePseudo identity existing)
  | none =>
    modify fun store => { store with identities := store.identities ++ [(identity, id)] }

/-- Inserts a node with an identifier of its own. -/
def insertNode (node : Node) : StoreCall Unit := do
  if (← get).contains node.id then throw (.duplicateNode node.id)
  if let some identity := node.identity? then enter identity node.id
  if node.kind.isReference then
    modify fun store => { store with references := store.references ++ [node.id] }
  if let some parent := node.parent then
    modify fun store => { store with containment := store.containment ++ [(parent, node.id)] }
  modify fun store => { store with nextId := max store.nextId (node.id.val + 1) }
  modify fun store => { store with nodes := store.nodes ++ [node] }

/-- Inserts a node with the next identifier. -/
def insert (parent : Option NodeId) (kind : NodeKind) : StoreCall NodeId := do
  let id : NodeId := ⟨(← get).nextId⟩
  insertNode ⟨id, parent, kind⟩
  return id

/-- Finds the pseudo-node with an identity or inserts it, and says whether it was created. -/
def locate (identity : PseudoKey) (origin : Option NodeId) : StoreCall (NodeId × Bool) := do
  match (← get).pseudo? identity with
  | some existing => return (existing, false)
  | none =>
    let id ← insert (some identity.scope) (.pseudo ⟨identity, origin⟩)
    return (id, true)

/-! ### What the calls do -/

@[simp]
theorem outcome_pure (value : α) (store : NodeStore) :
    outcome (pure value) store = (.ok value, store) := rfl

@[simp]
theorem outcome_throw (error : StructureError) (store : NodeStore) :
    outcome (throw error : StoreCall α) store = (.error error, store) := rfl

@[simp]
theorem outcome_get (store : NodeStore) : outcome get store = (.ok store, store) := rfl

@[simp]
theorem outcome_modify (change : NodeStore → NodeStore) (store : NodeStore) :
    outcome (modify change) store = (.ok ⟨⟩, change store) := rfl

/-- A call goes on from the store that its first part leaves. -/
@[simp]
theorem outcome_bind (call : StoreCall α) (next : α → StoreCall β) (store : NodeStore) :
    outcome (call >>= next) store =
      match outcome call store with
      | (.ok value, left) => outcome (next value) left
      | (.error error, left) => (.error error, left) := by
  simp only [outcome, ExceptT.run_bind, StateT.run_bind]
  cases (ExceptT.run call).run store with
  | mk result left => cases result <;> rfl

theorem outcome_enter (identity : PseudoKey) (id : NodeId) (store : NodeStore) :
    outcome (enter identity id) store =
      match store.pseudo? identity with
      | some existing => (.error (.duplicatePseudo identity existing), store)
      | none => (.ok (), { store with identities := store.identities ++ [(identity, id)] }) := by
  rw [enter, outcome_bind, outcome_get]
  cases found : store.pseudo? identity <;> simp [found]

/-- The writes of an insertion make up `push`, and both checks come before them. -/
theorem outcome_insertNode (node : Node) (store : NodeStore) :
    outcome (insertNode node) store =
      match store.insertNode node with
      | .ok extended => (.ok (), extended)
      | .error error => (.error error, store) := by
  simp only [insertNode, outcome_bind, outcome_get, NodeStore.insertNode, NodeStore.addNode,
    NodeStore.take_endless, NodeStore.conflict?]
  cases taken : store.contains node.id with
  | true => simp
  | false =>
    cases definition : node.kind.pseudo? with
    | none =>
      cases reference : node.kind.isReference <;> cases parent : node.parent <;>
        simp [Node.identity?, NodeStore.push, definition, reference, parent]
    | some pseudo =>
      cases found : store.pseudo? pseudo.toPseudoKey with
      | some existing => simp [Node.identity?, definition, outcome_enter, found]
      | none =>
        cases reference : node.kind.isReference <;> cases parent : node.parent <;>
          simp [Node.identity?, NodeStore.push, definition, reference, parent, outcome_enter, found]

theorem outcome_insert (parent : Option NodeId) (kind : NodeKind) (store : NodeStore) :
    outcome (insert parent kind) store =
      match store.insert parent kind with
      | .ok (extended, id) => (.ok id, extended)
      | .error error => (.error error, store) := by
  rw [insert, outcome_bind, outcome_get]
  simp only [outcome_bind, outcome_insertNode, NodeStore.insert, NodeStore.add,
    NodeStore.insertNode]
  cases store.addNode ⟨⟨store.nextId⟩, parent, kind⟩ .endless <;> rfl

/-- Nothing stands against the insertion of an identity that was just not found. -/
theorem outcome_locate {store : NodeStore} (coherent : store.Coherent) (identity : PseudoKey)
    (origin : Option NodeId) :
    outcome (locate identity origin) store =
      (.ok ((store.locate identity origin).id, (store.locate identity origin).created),
        (store.locate identity origin).nodes) := by
  rw [locate, outcome_bind, outcome_get]
  cases found : store.pseudo? identity with
  | some existing => simp [found, NodeStore.locate_of_present found]
  | none =>
    have inserted := NodeStore.insert_eq_ok_iff.2 ⟨coherent.conflict?_fresh found origin, rfl, rfl⟩
    simp only [found, outcome_bind, outcome_insert, inserted, outcome_pure,
      NodeStore.locate_of_absent found]

end StoreCall

namespace NodeStore

/-! ## Sequences of calls -/

/-- A call with its arguments. -/
inductive Operation where
  | insert (parent : Option NodeId) (kind : NodeKind)
  | insertNode (node : Node)
  | locate (identity : PseudoKey) (origin : Option NodeId)

/-- The store that a call leaves, whether it fails or not. -/
def Operation.applyTo (store : NodeStore) : Operation → NodeStore
  | .insert parent kind => ((StoreCall.insert parent kind).outcome store).2
  | .insertNode node => ((StoreCall.insertNode node).outcome store).2
  | .locate identity origin => ((StoreCall.locate identity origin).outcome store).2

/-- The store that a sequence of calls leaves. -/
def after (store : NodeStore) (operations : List Operation) : NodeStore :=
  operations.foldl Operation.applyTo store

/-- A store that no call was made on yet. -/
inductive Starts : NodeStore → Prop where
  | startingAt (first : Nat) : Starts (startingAt first)
  | read {stage : Stage} {document : Document} {store : NodeStore} :
    reader stage document = .ok store → Starts store

theorem Starts.coherent {store : NodeStore} (starts : store.Starts) : store.Coherent := by
  cases starts with
  | startingAt first => exact coherent_startingAt first
  | read found => exact coherent_of_reader _ _ _ found

/-- A call leaves the store alone or appends one node, against which nothing stands. -/
theorem applyTo_cases (store : NodeStore) (operation : Operation) :
    operation.applyTo store = store ∨
      ∃ node, store.conflict? node = none ∧ operation.applyTo store = store.push node := by
  have inserts : ∀ parent kind, ((StoreCall.insert parent kind).outcome store).2 = store ∨
      ∃ node, store.conflict? node = none ∧
        ((StoreCall.insert parent kind).outcome store).2 = store.push node := by
    intro parent kind
    rw [StoreCall.outcome_insert]
    cases inserted : store.insert parent kind with
    | error error => exact .inl rfl
    | ok result =>
      obtain ⟨free, -, same⟩ := insert_eq_ok_iff.1 inserted
      exact .inr ⟨_, free, same⟩
  cases operation with
  | insert parent kind => exact inserts parent kind
  | insertNode node =>
    rw [Operation.applyTo, StoreCall.outcome_insertNode]
    cases inserted : store.insertNode node with
    | error error => exact .inl rfl
    | ok extended =>
      obtain ⟨free, same⟩ := insertNode_eq_ok_iff.1 inserted
      exact .inr ⟨_, free, same⟩
  | locate identity origin =>
    rw [Operation.applyTo, StoreCall.locate, StoreCall.outcome_bind, StoreCall.outcome_get]
    cases found : store.pseudo? identity with
    | some existing => exact .inl (by simp [found])
    | none =>
      have added := inserts (some identity.scope) (.pseudo ⟨identity, origin⟩)
      simp only [found, StoreCall.outcome_bind]
      cases outcome : (StoreCall.insert (some identity.scope)
          (.pseudo ⟨identity, origin⟩)).outcome store with
      | mk result left =>
        rw [outcome] at added
        cases result <;> exact added

theorem Coherent.applyTo {store : NodeStore} (coherent : store.Coherent)
    (operation : Operation) : (operation.applyTo store).Coherent := by
  rcases applyTo_cases store operation with same | ⟨node, free, same⟩
  · rw [same]
    exact coherent
  · rw [same]
    exact coherent.push free

theorem Coherent.after {store : NodeStore} (coherent : store.Coherent)
    (operations : List Operation) : (store.after operations).Coherent := by
  induction operations generalizing store with
  | nil => exact coherent
  | cons operation rest ih => exact ih (coherent.applyTo operation)

theorem pseudo?_push_of_found {store : NodeStore} {identity : PseudoKey} {id : NodeId}
    (found : store.pseudo? identity = some id) (node : Node) :
    (store.push node).pseudo? identity = some id := by
  rw [pseudo?] at found
  rw [pseudo?, push, List.lookup_append, found, Option.some_or]

/-- An identity that is found goes on to be found. -/
theorem pseudo?_after {store : NodeStore} {identity : PseudoKey} {id : NodeId}
    (found : store.pseudo? identity = some id) (operations : List Operation) :
    (store.after operations).pseudo? identity = some id := by
  induction operations generalizing store with
  | nil => exact found
  | cons operation rest ih =>
    refine ih ?_
    rcases applyTo_cases store operation with same | ⟨node, -, same⟩
    · rw [same]
      exact found
    · rw [same]
      exact pseudo?_push_of_found found node

/-! ## Indices -/

/-- A store each index of which lists what it says of the nodes, in insertion order. -/
structure Indexed (store : NodeStore) : Prop where
  /-- Every node is found under its own identifier, and nothing else is found. -/
  node?_iff : ∀ id node, store.node? id = some node ↔ node ∈ store.nodes ∧ node.id = id
  below : ∀ node ∈ store.nodes, node.id.val < store.nextId
  /-- This goes for every identifier, whether or not there is such a node. -/
  children : ∀ parent, store.children parent =
    (store.nodes.filter fun node => node.parent = some parent).map Node.id
  references : store.references =
    (store.nodes.filter fun node => node.kind.isReference).map Node.id
  pseudoNodes : store.pseudoNodes =
    (store.nodes.filter fun node => node.kind.pseudo?.isSome).map Node.id
  pseudoIds : ∀ kind scope, store.pseudoIds kind scope =
    (store.nodes.filter fun node => node.kind.pseudo?.any fun definition =>
      definition.kind = kind && definition.scope = scope).map Node.id
  pseudo?_iff : ∀ identity id, store.pseudo? identity = some id ↔
    ∃ node, store.node? id = some node ∧ node.identity? = some identity
  /-- No two pseudo-nodes share an identity. -/
  distinct : ∀ first ∈ store.nodes, ∀ second ∈ store.nodes, ∀ identity,
    first.identity? = some identity → second.identity? = some identity → first = second

theorem map_snd_part? (nodes : List Node) :
    (nodes.filterMap Node.part?).map Prod.snd =
      (nodes.filter fun node => node.kind.pseudo?.isSome).map Node.id := by
  induction nodes with
  | nil => rfl
  | cons node rest ih =>
    cases definition : node.kind.pseudo? <;>
      simp [Node.part?, Node.identity?, definition, ← ih]

theorem Coherent.pseudoIds_eq {store : NodeStore} (coherent : store.Coherent) (kind : PseudoKind)
    (scope : NodeId) :
    store.pseudoIds kind scope =
      (store.nodes.filter fun node => node.kind.pseudo?.any fun definition =>
        definition.kind = kind && definition.scope = scope).map Node.id := by
  have seen : ∀ node ∈ store.nodes.filter fun node => node.kind.pseudo?.isSome,
      store.isPseudoOf kind scope node.id = node.kind.pseudo?.any fun definition =>
        definition.kind = kind && definition.scope = scope := by
    intro node member
    rw [isPseudoOf, node?_of_mem coherent (List.mem_filter.1 member).1, Option.bind_some]
    cases node.kind.pseudo? <;> rfl
  rw [pseudoIds, pseudoNodes, coherent.identities, map_snd_part?, List.filter_map,
    Function.comp_def, List.filter_congr seen, List.filter_filter]
  congr 1
  refine List.filter_congr fun node _ => ?_
  cases node.kind.pseudo? <;> simp

/-- What a coherent store keeps besides its nodes is read off them. -/
theorem Coherent.indexed {store : NodeStore} (coherent : store.Coherent) : store.Indexed where
  node?_iff _ _ := node?_eq_some_iff coherent
  below := coherent.below
  children := children_eq coherent
  references := coherent.references
  pseudoNodes := by rw [NodeStore.pseudoNodes, coherent.identities, map_snd_part?]
  pseudoIds := coherent.pseudoIds_eq
  pseudo?_iff _ _ := pseudo?_eq_some_iff coherent
  distinct := by
    intro first member second other identity own same
    have found := (pseudo?_eq_some_iff coherent).2 ⟨first, node?_of_mem coherent member, own⟩
    have again := (pseudo?_eq_some_iff coherent).2 ⟨second, node?_of_mem coherent other, same⟩
    rw [found, Option.some.injEq] at again
    have present := node?_of_mem coherent member
    rw [again, node?_of_mem coherent other] at present
    exact (Option.some.inj present).symm

/-! ## What calls can rely on -/

/-- A store whose next identifier is free, whose identities stay where they are, and that a
failing call does not change. -/
structure Reliable (store : NodeStore) : Prop where
  insert_fresh : ∀ parent kind id,
    ((StoreCall.insert parent kind).outcome store).1 ≠ .error (.duplicateNode id)
  insert_failed : ∀ parent kind error,
    ((StoreCall.insert parent kind).outcome store).1 = .error error →
      ((StoreCall.insert parent kind).outcome store).2 = store
  insertNode_failed : ∀ node error,
    ((StoreCall.insertNode node).outcome store).1 = .error error →
      ((StoreCall.insertNode node).outcome store).2 = store
  locate_found : ∀ identity origin id, store.pseudo? identity = some id →
    (StoreCall.locate identity origin).outcome store = (.ok (id, false), store)
  locate_created : ∀ identity origin, store.pseudo? identity = none →
    (StoreCall.locate identity origin).outcome store = (.ok (⟨store.nextId⟩, true),
      store.push ⟨⟨store.nextId⟩, some identity.scope, .pseudo ⟨identity, origin⟩⟩)
  /-- A repeat finds the same pseudo-node, however many calls came in between. -/
  locate_repeats : ∀ identity origin, ∃ id created left,
    (StoreCall.locate identity origin).outcome store = (.ok (id, created), left) ∧
      ∀ operations other, (StoreCall.locate identity other).outcome (left.after operations) =
        (.ok (id, false), left.after operations)

theorem Coherent.insert_fresh {store : NodeStore} (coherent : store.Coherent)
    (parent : Option NodeId) (kind : NodeKind) (id : NodeId) :
    ((StoreCall.insert parent kind).outcome store).1 ≠ .error (.duplicateNode id) := by
  rw [StoreCall.outcome_insert, NodeStore.insert, NodeStore.add, NodeStore.addNode, conflict?,
    contains_nextId coherent]
  cases kind.pseudo? with
  | none => exact fun same => by cases same
  | some definition => cases found : store.pseudo? definition.toPseudoKey <;> simp [found]

theorem Coherent.locate_found {store : NodeStore} (coherent : store.Coherent)
    {identity : PseudoKey} {id : NodeId} (found : store.pseudo? identity = some id)
    (origin : Option NodeId) :
    (StoreCall.locate identity origin).outcome store = (.ok (id, false), store) := by
  rw [StoreCall.outcome_locate coherent, locate_of_present found]

theorem Coherent.locate_repeats {store : NodeStore} (coherent : store.Coherent)
    (identity : PseudoKey) (origin : Option NodeId) : ∃ id created left,
    (StoreCall.locate identity origin).outcome store = (.ok (id, created), left) ∧
      ∀ operations other, (StoreCall.locate identity other).outcome (left.after operations) =
        (.ok (id, false), left.after operations) := by
  refine ⟨_, _, _, StoreCall.outcome_locate coherent identity origin, fun operations other => ?_⟩
  have later := coherent.locate identity origin
  exact (later.after operations).locate_found
    (pseudo?_after (pseudo?_locate store identity origin) operations) other

theorem Coherent.reliable {store : NodeStore} (coherent : store.Coherent) : store.Reliable where
  insert_fresh := coherent.insert_fresh
  insert_failed parent kind error failed := by
    rw [StoreCall.outcome_insert] at failed ⊢
    cases inserted : store.insert parent kind with
    | error => rfl
    | ok result =>
      rw [inserted] at failed
      cases failed
  insertNode_failed node error failed := by
    rw [StoreCall.outcome_insertNode] at failed ⊢
    cases inserted : store.insertNode node with
    | error => rfl
    | ok result =>
      rw [inserted] at failed
      cases failed
  locate_found _ origin _ found := coherent.locate_found found origin
  locate_created identity origin absent := by
    rw [StoreCall.outcome_locate coherent, locate_of_absent absent]
  locate_repeats := coherent.locate_repeats

end NodeStore

/-! ## Lists of nodes that are read -/

namespace Reader

variable {α β : Type} {shape : Shape α} (conversion : α → Except ReadError β) {stage : Stage}

/-- A conversion does not matter before the end. -/
theorem readMembers_convert {members : List (Document × Document)} {seen : List String}
    {state : shape.Partial} :
    readMembers (shape.convert conversion) stage members seen state =
      readMembers shape stage members seen state := by
  induction members generalizing seen state with
  | nil => rfl
  | cons member rest ih =>
    obtain ⟨key, item⟩ := member
    refine bind_congr fun name => ?_
    by_cases known : name ∈ shape.fields
    · refine (if_pos known).trans (Eq.trans ?_ (if_pos known).symm)
      by_cases again : name ∈ seen
      · exact (if_pos again).trans (if_pos again).symm
      · refine (if_neg again).trans (Eq.trans ?_ (if_neg again).symm)
        exact bind_congr fun next => ih
    · refine (if_neg known).trans (Eq.trans ?_ (if_neg known).symm)
      exact bind_congr fun _ => ih

theorem readInOrder_convert {ending : Ending} {names : List String} {items : List Document}
    {state : shape.Partial} :
    readInOrder (shape.convert conversion) stage ending names items state =
      readInOrder shape stage ending names items state := by
  induction names generalizing items state with
  | nil => cases items <;> rfl
  | cons name names ih =>
    cases items with
    | nil => rfl
    | cons item rest => exact bind_congr fun next => ih

variable {conversion}

/-- A structure that is converted is read first, and then its conversion has to succeed. -/
theorem structured_convert_eq_ok_iff {document : Document} {value : β} :
    structured (shape.convert conversion) stage document = .ok value ↔
      ∃ found, structured shape stage document = .ok found ∧ conversion found = .ok value := by
  cases document with
  | object members ending =>
    constructor
    · intro read
      obtain ⟨inner, entered, read⟩ := Except.bind_eq_ok_iff.1 read
      obtain ⟨last, stepped, read⟩ := Except.bind_eq_ok_iff.1 read
      obtain ⟨_, closed, read⟩ := Except.bind_eq_ok_iff.1 read
      obtain ⟨found, finished, converted⟩ := Except.bind_eq_ok_iff.1 read
      have stepped := (readMembers_convert conversion).symm.trans stepped
      exact ⟨found, Except.bind_eq_ok_iff.2 ⟨inner, entered, Except.bind_eq_ok_iff.2 ⟨last, stepped,
        Except.bind_eq_ok_iff.2 ⟨_, closed, finished⟩⟩⟩, converted⟩
    · rintro ⟨found, read, converted⟩
      obtain ⟨inner, entered, read⟩ := Except.bind_eq_ok_iff.1 read
      obtain ⟨last, stepped, read⟩ := Except.bind_eq_ok_iff.1 read
      obtain ⟨_, closed, finished⟩ := Except.bind_eq_ok_iff.1 read
      have stepped := (readMembers_convert conversion).trans stepped
      exact Except.bind_eq_ok_iff.2 ⟨inner, entered, Except.bind_eq_ok_iff.2 ⟨last, stepped,
        Except.bind_eq_ok_iff.2 ⟨_, closed, Except.bind_eq_ok_iff.2 ⟨found, finished, converted⟩⟩⟩⟩
  | array items ending =>
    constructor
    · intro read
      obtain ⟨inner, entered, read⟩ := Except.bind_eq_ok_iff.1 read
      obtain ⟨last, stepped, read⟩ := Except.bind_eq_ok_iff.1 read
      obtain ⟨found, finished, converted⟩ :=
        Except.bind_eq_ok_iff.1 (Except.mapError_eq_ok_iff.1 read)
      have stepped := (readInOrder_convert conversion).symm.trans stepped
      exact ⟨found, Except.bind_eq_ok_iff.2 ⟨inner, entered, Except.bind_eq_ok_iff.2 ⟨last, stepped,
        Except.mapError_eq_ok_iff.2 finished⟩⟩, converted⟩
    · rintro ⟨found, read, converted⟩
      obtain ⟨inner, entered, read⟩ := Except.bind_eq_ok_iff.1 read
      obtain ⟨last, stepped, finished⟩ := Except.bind_eq_ok_iff.1 read
      have stepped := (readInOrder_convert conversion).trans stepped
      exact Except.bind_eq_ok_iff.2 ⟨inner, entered, Except.bind_eq_ok_iff.2 ⟨last, stepped,
        Except.mapError_eq_ok_iff.2 (Except.bind_eq_ok_iff.2
          ⟨found, Except.mapError_eq_ok_iff.1 finished, converted⟩)⟩⟩
  | _ => exact ⟨nofun, nofun⟩

end Reader

namespace NodeStore

/-- No identifier and no identity stands twice in a list of nodes. -/
structure Unambiguous (nodes : List Node) : Prop where
  nodup : (nodes.map Node.id).Nodup
  distinct : (nodes.filterMap Node.identity?).Nodup

theorem Unambiguous.left {nodes more : List Node} (unambiguous : Unambiguous (nodes ++ more)) :
    Unambiguous nodes where
  nodup := by
    have all := unambiguous.nodup
    rw [List.map_append] at all
    exact (List.nodup_append.1 all).1
  distinct := by
    have all := unambiguous.distinct
    rw [List.filterMap_append] at all
    exact (List.nodup_append.1 all).1

theorem Coherent.unambiguous {store : NodeStore} (coherent : store.Coherent) :
    Unambiguous store.nodes :=
  ⟨coherent.nodup, coherent.distinct⟩

/-- A node can be inserted if it makes nothing stand twice. -/
theorem Coherent.conflict?_eq_none {store : NodeStore} (coherent : store.Coherent) {node : Node}
    (unambiguous : Unambiguous (store.nodes ++ [node])) : store.conflict? node = none := by
  refine conflict?_eq_none_iff.2 ⟨?_, fun identity own => ?_⟩
  · rw [contains, Option.isSome_eq_false_iff, Option.isNone_iff_eq_none]
    by_contra present
    obtain ⟨other, found⟩ := Option.ne_none_iff_exists'.1 present
    obtain ⟨member, same⟩ := (node?_eq_some_iff coherent).1 found
    have all := unambiguous.nodup
    rw [List.map_append, List.nodup_append] at all
    exact all.2.2 _ (List.mem_map_of_mem member) _ (by simp) same
  · by_contra present
    obtain ⟨id, found⟩ := Option.ne_none_iff_exists'.1 present
    obtain ⟨other, known, same⟩ := (pseudo?_eq_some_iff coherent).1 found
    have all := unambiguous.distinct
    rw [List.filterMap_append, List.nodup_append] at all
    refine all.2.2 identity (List.mem_filterMap.2 ⟨other, ?_, same⟩) identity ?_ rfl
    · exact ((node?_eq_some_iff coherent).1 known).1
    · exact List.mem_filterMap.2 ⟨node, List.mem_singleton_self node, own⟩

/-- Nodes are inserted in order if nothing comes to stand twice. -/
theorem Coherent.foldlM_insertNode {start last : NodeStore} (coherent : start.Coherent)
    (nodes : List Node) :
    nodes.foldlM NodeStore.insertNode start = .ok last ↔
      Unambiguous (start.nodes ++ nodes) ∧ last = nodes.foldl NodeStore.push start := by
  induction nodes generalizing start with
  | nil =>
    rw [List.append_nil, List.foldlM_nil]
    constructor
    · rintro ⟨⟩
      exact ⟨coherent.unambiguous, rfl⟩
    · rintro ⟨_, rfl⟩
      rfl
  | cons node rest ih =>
    have regroup : start.nodes ++ node :: rest = (start.push node).nodes ++ rest := by
      simp [NodeStore.push]
    rw [List.foldlM_cons, Except.bind_eq_ok_iff, regroup, List.foldl_cons]
    constructor
    · rintro ⟨next, inserted, run⟩
      obtain ⟨free, rfl⟩ := insertNode_eq_ok_iff.1 inserted
      exact (ih (coherent.push free)).1 run
    · rintro ⟨unambiguous, same⟩
      have free := coherent.conflict?_eq_none unambiguous.left
      exact ⟨_, insertNode_eq_ok_iff.2 ⟨free, rfl⟩, (ih (coherent.push free)).2 ⟨unambiguous, same⟩⟩

/-- A list of nodes makes up a store if nothing stands twice in it. -/
theorem ofNodes_eq_ok_iff {nodes : List Node} {nextId : Nat} {store : NodeStore} :
    ofNodes nodes nextId = .ok store ↔ Unambiguous nodes ∧
      store = { nodes.foldl push empty with
        nextId := max (nodes.foldl push empty).nextId nextId } := by
  have inserted (last : NodeStore) : nodes.foldlM insertNode empty = .ok last ↔
      Unambiguous nodes ∧ last = nodes.foldl push empty :=
    (coherent_startingAt 0).foldlM_insertNode nodes
  rw [ofNodes, Except.bind_eq_ok_iff]
  constructor
  · rintro ⟨last, run, same⟩
    obtain ⟨unambiguous, rfl⟩ := (inserted last).1 run
    cases same
    exact ⟨unambiguous, rfl⟩
  · rintro ⟨unambiguous, rfl⟩
    exact ⟨_, (inserted _).2 ⟨unambiguous, rfl⟩, rfl⟩

/-- The shape of a store in JSON, before its nodes are inserted. -/
def storedShape : Reader.Shape (List Node × Nat) :=
  (Reader.Shape.field "nodes" (Reader.list Node.reader)).and
    (Reader.Shape.field "next_id" (Reader.natBelow identBound))

/-- A list of nodes in JSON, with the next identifier, is read as a store if nothing stands
twice in it. -/
theorem reader_succeeds_iff {stage : Stage} {document : Document} {nodes : List Node}
    {nextId : Nat} (read : Reader.structured storedShape stage document = .ok (nodes, nextId)) :
    (∃ store, reader stage document = .ok store) ↔ Unambiguous nodes := by
  have inserts : ∀ store, reader stage document = .ok store ↔ ofNodes nodes nextId = .ok store := by
    intro store
    rw [reader, show shape = storedShape.convert ofStored from rfl,
      Reader.structured_convert_eq_ok_iff]
    constructor
    · rintro ⟨stored, found, converted⟩
      cases read.symm.trans found
      exact Except.mapError_eq_ok_iff.1 converted
    · intro inserted
      exact ⟨_, read, Except.mapError_eq_ok_iff.2 inserted⟩
  simp only [inserts, ofNodes_eq_ok_iff, exists_and_left, exists_eq, and_true]

/-- **The indices of a store say what its nodes say**, whatever calls were made on it and
whether they failed or not; and a list of nodes in JSON is a store exactly if no identifier and no
identity stands twice. -/
theorem calls_indexed {first : NodeStore} (starts : first.Starts) (operations : List Operation) :
    (first.after operations).Indexed ∧ (first.after operations).Reliable ∧
      ∀ stage document nodes nextId,
        Reader.structured storedShape stage document = .ok (nodes, nextId) →
          ((∃ store, reader stage document = .ok store) ↔
            (nodes.map Node.id).Nodup ∧ (nodes.filterMap Node.identity?).Nodup) := by
  have coherent := starts.coherent.after operations
  refine ⟨coherent.indexed, coherent.reliable, fun stage document nodes nextId read => ?_⟩
  rw [reader_succeeds_iff read]
  exact ⟨fun unambiguous => ⟨unambiguous.nodup, unambiguous.distinct⟩, fun ⟨nodup, distinct⟩ =>
    ⟨nodup, distinct⟩⟩

/-! ### A store that was read, with calls of which two fail -/

namespace Shelf

/-- The first node has a parent that is not there. -/
def text : String := "[[[4,7,[\"step\",\"/late\"]],[2,null,[\"journey\",\"trip\"]]],3]"

def nodes : List Node := [⟨⟨4⟩, some ⟨7⟩, .step "/late"⟩, ⟨⟨2⟩, none, .journey "trip"⟩]

def stored : NodeStore :=
  { nodes, containment := [(⟨7⟩, ⟨4⟩)], references := [], identities := [], nextId := 5 }

theorem read : reader .ofText (Document.ofText text).1 = .ok stored := by cbv

theorem read_nodes :
    Reader.structured storedShape .ofText (Document.ofText text).1 = .ok (nodes, 3) := by cbv

/-- The third call names an identifier that is taken, the fourth an identity. -/
def operations : List Operation := [
  .locate ⟨.query, ⟨4⟩, "day"⟩ none,
  .insert (some ⟨7⟩) (.reference ⟨["query", "day"]⟩),
  .insertNode ⟨⟨2⟩, some ⟨7⟩, .block "again"⟩,
  .insertNode ⟨⟨9⟩, some ⟨7⟩, .pseudo ⟨⟨.query, ⟨4⟩, "day"⟩, none⟩⟩]

theorem operations_indexed :
    (stored.after operations).Indexed ∧ (stored.after operations).Reliable ∧
      (stored.after operations).children ⟨7⟩ = [⟨4⟩, ⟨6⟩] ∧
      ((∃ store, reader .ofText (Document.ofText text).1 = .ok store) ↔
        (nodes.map Node.id).Nodup ∧ (nodes.filterMap Node.identity?).Nodup) := by
  obtain ⟨indexed, reliable, reads⟩ := calls_indexed (.read read) operations
  exact ⟨indexed, reliable, rfl, reads .ofText (Document.ofText text).1 nodes 3 read_nodes⟩

end Shelf

end NodeStore

end FormFlow
