import FormFlow.Proofs.Form.Growth
import FormFlow.Proofs.Serial.RoundTrip

/-!
# What is left of a store that goes back

Going back to a mark filters the nodes and every index, each by a test of its own. What should be
left is the store into which the nodes below the mark are inserted again, in their order. For
the nodes, the references and the identities this is so whatever the store went through, because
a filtered index lists what it says of the filtered nodes.

The containment is filtered by both of its ends. A node may name a parent that comes later or
never, so a node below the mark may stand in one above it. The node is kept, but it is taken off
the list of that parent, and nothing puts it back when the parent is inserted again. The children
are the right ones exactly if no kept node has lost its place in this way, now or when the store
went back before (`NodeStore.Attached`, `NodeStore.truncate_restores`).

Since a place may be lost, a store that calls led to (`NodeStore.Reached`) need not be coherent. It
is once the containment is read off the nodes again (`NodeStore.relinked`), and that is all that the
other indices need.
-/

set_option autoImplicit false

namespace FormFlow

namespace NodeStore

/-! ## Stores without a reliable containment -/

/-- A store that calls led to, where a store may be read, and may go back to a mark. -/
inductive Reached : NodeStore → Prop where
  | starts {store : NodeStore} : store.Starts → Reached store
  | call {store : NodeStore} : Reached store → (operation : Operation) →
    Reached (operation.applyTo store)
  | truncate {store : NodeStore} : Reached store → (mark : Nat) → Reached (store.truncate mark)

/-- The store with the containment that its nodes say. -/
def relinked (store : NodeStore) : NodeStore :=
  { store with containment := store.nodes.filterMap Node.link? }

/-- A store that is coherent up to pairs that are missing in its containment. -/
structure Pruned (store : NodeStore) : Prop where
  relinked : store.relinked.Coherent
  sublist : store.containment.Sublist (store.nodes.filterMap Node.link?)

/-- The nodes and the next identifier of a coherent store leave no choice for the rest. -/
theorem Coherent.eq {store other : NodeStore} (coherent : store.Coherent)
    (otherCoherent : other.Coherent) (nodes : store.nodes = other.nodes)
    (nextId : store.nextId = other.nextId) : store = other := by
  have containment := coherent.containment.trans
    (nodes ▸ otherCoherent.containment.symm)
  have references := coherent.references.trans (nodes ▸ otherCoherent.references.symm)
  have identities := coherent.identities.trans (nodes ▸ otherCoherent.identities.symm)
  cases store
  cases other
  cases nodes
  cases nextId
  cases containment
  cases references
  cases identities
  rfl

theorem Unambiguous.perm {nodes others : List Node} (unambiguous : Unambiguous nodes)
    (perm : nodes.Perm others) : Unambiguous others where
  nodup := (perm.map Node.id).nodup_iff.1 unambiguous.nodup
  distinct := (perm.filterMap Node.identity?).nodup_iff.1 unambiguous.distinct

theorem Pruned.placed {store : NodeStore} (pruned : store.Pruned) : store.Placed :=
  ⟨pruned.relinked.nodup, pruned.sublist⟩

theorem Coherent.pruned {store : NodeStore} (coherent : store.Coherent) : store.Pruned where
  relinked := by
    rw [NodeStore.relinked, ← coherent.containment]
    exact coherent
  sublist := coherent.placed.listed

/-- A new node is placed behind the others. -/
theorem Placed.push {store : NodeStore} (placed : store.Placed) {node : Node}
    (fresh : store.contains node.id = false) : (store.push node).Placed where
  distinct := by
    change ((store.nodes ++ [node]).map Node.id).Nodup
    rw [List.map_append, List.nodup_append]
    refine ⟨placed.distinct, List.nodup_singleton _, ?_⟩
    rintro id old _ new rfl
    obtain ⟨other, member, same⟩ := List.mem_map.1 old
    rw [contains, ← List.mem_singleton.1 new, ← same,
      node?_of_mem_of_nodup placed.distinct member] at fresh
    cases fresh
  listed := by
    have own : (node.parent.map fun parent => (parent, node.id)).toList =
        [node].filterMap Node.link? := by
      cases contained : node.parent <;> simp [Node.link?, contained]
    change (store.containment ++ (node.parent.map fun parent => (parent, node.id)).toList).Sublist
      ((store.nodes ++ [node]).filterMap Node.link?)
    rw [List.filterMap_append, own]
    exact placed.listed.append (.refl _)

theorem relinked_push (store : NodeStore) (node : Node) :
    (store.push node).relinked = store.relinked.push node := by
  cases contained : node.parent <;> simp [relinked, NodeStore.push, Node.link?, contained]

theorem Pruned.push {store : NodeStore} (pruned : store.Pruned) {node : Node}
    (free : store.conflict? node = none) : (store.push node).Pruned where
  relinked := relinked_push store node ▸ pruned.relinked.push free
  sublist := (pruned.placed.push (conflict?_eq_none_iff.1 free).1).listed

/-! ## What going back leaves -/

/-- The nodes below a mark, in the order of their insertion. -/
def nodesBelow (store : NodeStore) (mark : Nat) : List Node :=
  store.nodes.filter fun node => node.id.val < mark

/-- Every node below a mark that names a parent stands among the children of that parent, which
lies below the mark as well. -/
def Attached (store : NodeStore) (mark : Nat) : Prop :=
  ∀ node ∈ store.nodesBelow mark, ∀ parent, node.parent = some parent →
    parent.val < mark ∧ node.id ∈ store.children parent

theorem mem_children_iff_link {store : NodeStore} {parent child : NodeId} :
    child ∈ store.children parent ↔ (parent, child) ∈ store.containment := by
  simp [children]

/-- A kept node is attached if it is listed under its parent in what is left. -/
theorem attached_iff {store : NodeStore} {mark : Nat} :
    store.Attached mark ↔ ∀ node ∈ store.nodesBelow mark, ∀ parent, node.parent = some parent →
      node.id ∈ (store.cut mark).children parent := by
  refine forall₂_congr fun node member => forall₂_congr fun parent _ => ?_
  have own := of_decide_eq_true (List.mem_filter.1 member).2
  simp only [mem_children_iff_link, cut, List.mem_filter, Bool.and_eq_true, decide_eq_true_eq, own,
    and_true]
  exact And.comm

/-- Filtering by the identifier of a node filters what the nodes are listed as. -/
theorem filterMap_nodesBelow {α : Type} (store : NodeStore) (mark : Nat) (read : Node → Option α)
    (idOf : α → NodeId) (named : ∀ node entry, read node = some entry → idOf entry = node.id) :
    (store.nodesBelow mark).filterMap read =
      (store.nodes.filterMap read).filter fun entry => (idOf entry).val < mark := by
  rw [nodesBelow, List.filterMap_filter, List.filter_filterMap]
  refine List.filterMap_congr fun node _ => ?_
  cases entered : read node with
  | none => simp
  | some entry => simp [Option.filter, named node entry entered]

theorem id_of_link? {node : Node} {link : NodeId × NodeId} (linked : node.link? = some link) :
    link.2 = node.id := by
  obtain ⟨parent, -, rfl⟩ := Option.map_eq_some_iff.1 linked
  rfl

theorem id_of_part? {node : Node} {entry : PseudoKey × NodeId} (entered : node.part? = some entry) :
    entry.2 = node.id := by
  obtain ⟨identity, -, rfl⟩ := Option.map_eq_some_iff.1 entered
  rfl

/-- The nodes below a mark and the others are all nodes. -/
theorem perm_nodesBelow (store : NodeStore) (mark : Nat) :
    (store.nodesBelow mark ++ store.nodes.filter fun node => mark ≤ node.id.val).Perm
      store.nodes := by
  have others : (store.nodes.filter fun node => mark ≤ node.id.val) =
      store.nodes.filter fun node => !decide (node.id.val < mark) :=
    List.filter_congr fun node _ => by simp only [← decide_not, Nat.not_lt]
  rw [others]
  exact List.filter_append_perm ..

/-- The containment loses what it lists of removed parents, too. -/
theorem Placed.cut {store : NodeStore} (placed : store.Placed) (mark : Nat) :
    (store.cut mark).Placed where
  distinct := placed.distinct.sublist (List.filter_sublist.map _)
  listed := by
    change (store.cut mark).containment.Sublist ((store.nodesBelow mark).filterMap Node.link?)
    rw [filterMap_nodesBelow store mark Node.link? Prod.snd fun _ _ => id_of_link?]
    have both : (store.cut mark).containment =
        (store.containment.filter fun link => link.2.val < mark).filter
          fun link => link.1.val < mark := by
      rw [List.filter_filter]
      rfl
    rw [both]
    exact List.filter_sublist.trans (placed.listed.filter _)

section

variable {store : NodeStore} (pruned : store.Pruned) (mark : Nat)
include pruned

theorem Pruned.unambiguous_nodesBelow : Unambiguous (store.nodesBelow mark) where
  nodup := pruned.relinked.nodup.sublist (List.filter_sublist.map _)
  distinct := pruned.relinked.distinct.sublist (List.filter_sublist.filterMap _)

/-- Below a mark every index but the containment lists what it says of the nodes there. -/
theorem Pruned.coherent_cut : (store.cut mark).relinked.Coherent where
  below node member := of_decide_eq_true (List.mem_filter.1 member).2
  nodup := (pruned.unambiguous_nodesBelow mark).nodup
  containment := rfl
  references := by
    have whole : store.references =
        (store.nodes.filter fun node => node.kind.isReference).map Node.id :=
      pruned.relinked.references
    change store.references.filter _ = ((store.nodesBelow mark).filter _).map Node.id
    rw [whole, List.filter_map, nodesBelow, List.filter_filter, List.filter_filter]
    simp only [Function.comp_def, Bool.and_comm]
  identities := by
    have whole : store.identities = store.nodes.filterMap Node.part? := pruned.relinked.identities
    change store.identities.filter _ = (store.nodesBelow mark).filterMap Node.part?
    rw [whole, filterMap_nodesBelow store mark Node.part? Prod.snd fun _ _ => id_of_part?]
  distinct := (pruned.unambiguous_nodesBelow mark).distinct

theorem Pruned.truncate : (store.truncate mark).Pruned := by
  by_cases reached : store.nextId ≤ mark
  · rw [NodeStore.truncate, if_pos reached]
    exact pruned
  · rw [NodeStore.truncate, if_neg reached]
    exact ⟨pruned.coherent_cut mark, (pruned.placed.cut mark).listed⟩

/-- Inserting the nodes below a mark again makes the store that is left, with the containment that
its nodes say. -/
theorem Pruned.ofNodes_nodesBelow :
    ofNodes (store.nodesBelow mark) mark = .ok (store.cut mark).relinked := by
  have low : ((store.nodesBelow mark).foldl NodeStore.push empty).nextId ≤ mark :=
    nextId_foldl_push_le (Nat.zero_le _) fun node member => by
      simpa using (List.mem_filter.1 member).2
  have made := ofNodes_eq_ok_iff.2 ⟨pruned.unambiguous_nodesBelow mark,
    Eq.refl { (store.nodesBelow mark).foldl NodeStore.push empty with
      nextId := max ((store.nodesBelow mark).foldl NodeStore.push empty).nextId mark }⟩
  rw [made]
  congr 1
  refine (Coherent.ofNodes made).eq (pruned.coherent_cut mark) ?_ (Nat.max_eq_right low)
  exact nodes_foldl_push empty _

/-- The containment is what it should be if every kept node has kept its place. -/
theorem Pruned.containment_cut_iff :
    (store.cut mark).containment = (store.nodesBelow mark).filterMap Node.link? ↔
      store.Attached mark := by
  rw [attached_iff]
  constructor
  · intro same node member parent contained
    rw [mem_children_iff_link, same]
    exact List.mem_filterMap.2 ⟨node, member, by simp [Node.link?, contained]⟩
  · intro attached
    have distinct : ((store.nodesBelow mark).filterMap Node.link?).Nodup := by
      have apart := (pruned.unambiguous_nodesBelow mark).nodup
      rw [List.Nodup, List.pairwise_map] at apart
      rw [List.Nodup, List.pairwise_filterMap]
      refine apart.imp fun different link linked other again same => different ?_
      rw [← id_of_link? linked, same, id_of_link? again]
    have listed : (store.nodesBelow mark).filterMap Node.link? ⊆ (store.cut mark).containment := by
      intro link member
      obtain ⟨node, known, linked⟩ := List.mem_filterMap.1 member
      obtain ⟨parent, contained, rfl⟩ := Option.map_eq_some_iff.1 linked
      exact mem_children_iff_link.1 (attached node known parent contained)
    exact (pruned.placed.cut mark).listed.eq_of_length_le
      (List.subperm_of_subset distinct listed).length_le

end

/-! ## Stores that calls led to -/

theorem Reached.pruned {store : NodeStore} (reached : store.Reached) : store.Pruned := by
  induction reached with
  | starts begun => exact begun.coherent.pruned
  | @call store _ operation ih =>
    rcases applyTo_cases store operation with same | ⟨node, free, same⟩
    · rw [same]
      exact ih
    · rw [same]
      exact ih.push free
  | truncate _ mark ih => exact ih.truncate mark

/-- If no place was lost before, the parents of the nodes below the mark have to lie below it. -/
theorem Coherent.attached_iff {store : NodeStore} (coherent : store.Coherent) {mark : Nat} :
    store.Attached mark ↔
      ∀ node ∈ store.nodesBelow mark, ∀ parent, node.parent = some parent → parent.val < mark := by
  refine forall₂_congr fun node member => forall₂_congr fun parent contained => ?_
  refine and_iff_left ((mem_children_iff coherent).2 ⟨node, ?_, contained⟩)
  exact node?_of_mem coherent (List.mem_filter.1 member).1

/-- Lists of children of the nodes of two stores have the same members, if the nodes have. -/
theorem Coherent.perm_children {store other : NodeStore} (coherent : store.Coherent)
    (otherCoherent : other.Coherent) (perm : store.nodes.Perm other.nodes) (id : NodeId) :
    (store.children id).Perm (other.children id) := by
  rw [coherent.indexed.children, otherCoherent.indexed.children]
  exact (perm.filter _).map Node.id

/-- How a store that went back to a mark compares with one into which the nodes below the mark
were inserted again. -/
structure Restores (store : NodeStore) (mark : Nat) (rebuilt : NodeStore) : Prop where
  inserted : ofNodes (store.nodesBelow mark) mark = .ok rebuilt
  nextId : (store.truncate mark).nextId = mark ∧ rebuilt.nextId = mark
  nodes : (store.truncate mark).nodes = rebuilt.nodes
  references : (store.truncate mark).references = rebuilt.references
  pseudoNodes : (store.truncate mark).pseudoNodes = rebuilt.pseudoNodes
  pseudo? : ∀ identity, (store.truncate mark).pseudo? identity = rebuilt.pseudo? identity
  pseudoIds : ∀ kind scope,
    (store.truncate mark).pseudoIds kind scope = rebuilt.pseudoIds kind scope
  /-- The children are the same under every identifier exactly if no kept node lost its place. -/
  children_iff : (∀ id, (store.truncate mark).children id = rebuilt.children id) ↔
    store.Attached mark
  /-- In this case nothing at all tells the stores apart. -/
  eq_iff : store.truncate mark = rebuilt ↔ store.Attached mark
  /-- Saving and reading the store finds the children of the store that is rebuilt. -/
  reloads : ∃ reloaded,
    ofNodes (store.truncate mark).nodesById (store.truncate mark).nextId = .ok reloaded ∧
      ∀ id, (reloaded.children id).Perm (rebuilt.children id)
  /-- Inserting the removed nodes again finds what all nodes name as their parents. -/
  reinserts : store.Attached mark → ∃ again,
    (store.nodes.filter fun node => mark ≤ node.id.val).foldlM insertNode (store.truncate mark) =
        .ok again ∧
      ∀ id, (again.children id).Perm
        ((store.nodes.filter fun node => node.parent = some id).map Node.id)

/-- **What is left is the store of the nodes below the mark, up to the lists of children.**
Inserting these nodes again in their order succeeds, and the store that is made shows the same nodes
in the same order, the same references, pseudo-nodes and identities and the same next identifier as
the one that went back. It shows the same children exactly if every kept node that names a parent
still stands on the list of that parent and the parent is kept as well. Then the two stores are one,
saved and read or with the removed nodes inserted again. -/
theorem truncate_restores {store : NodeStore} (reached : store.Reached) {mark : Nat}
    (low : mark < store.nextId) : ∃ rebuilt, store.Restores mark rebuilt := by
  have pruned := reached.pruned
  have coherent := pruned.coherent_cut mark
  have back : store.truncate mark = store.cut mark := by
    rw [truncate, if_neg (by omega)]
    rfl
  have same : store.truncate mark = (store.cut mark).relinked ↔ store.Attached mark := by
    rw [back, ← pruned.containment_cut_iff mark]
    exact ⟨congrArg containment, fun same => by rw [relinked]; exact same ▸ rfl⟩
  refine ⟨(store.cut mark).relinked, {
    inserted := pruned.ofNodes_nodesBelow mark
    nextId := ⟨congrArg NodeStore.nextId back, rfl⟩
    nodes := back ▸ rfl
    references := back ▸ rfl
    pseudoNodes := back ▸ rfl
    pseudo? := fun _ => back ▸ rfl
    pseudoIds := fun _ _ => back ▸ rfl
    children_iff := ⟨fun children => ?_, fun attached id => by rw [same.2 attached]⟩
    eq_iff := same
    reloads := ⟨_, ?_, fun id => coherent.reread.perm_children coherent ?_ id⟩
    reinserts := fun attached => ?_ }⟩
  · refine attached_iff.2 fun node member parent contained => ?_
    rw [← back, children, mem_children_iff_link]
    exact List.mem_filterMap.2 ⟨node, member, by simp [Node.link?, contained]⟩
  · rw [back]
    exact coherent.ofNodes_nodesById
  · rw [nodes_reread]
    exact perm_nodesById _
  · have perm := store.perm_nodesBelow mark
    rw [same.2 attached]
    have again := (coherent.foldlM_insertNode _).2 ⟨pruned.relinked.unambiguous.perm perm.symm, rfl⟩
    refine ⟨_, again, fun id => ?_⟩
    have listed := pruned.relinked.indexed.children id
    change _ = ((store.nodes.filter fun node => node.parent = some id).map Node.id) at listed
    rw [← listed]
    refine (coherent.ofFoldlM again).perm_children pruned.relinked ?_ id
    rw [nodes_foldl_push]
    exact perm

/-! ### A parent that comes later -/

namespace Forward

/-- A node whose parent is not there yet. -/
def early : Node := ⟨⟨0⟩, some ⟨3⟩, .block "panel"⟩

/-- The store after the first insertion. -/
def moment : NodeStore := (startingAt 0).after [.insertNode early]

/-- Further insertions, of which the third is that of the parent. -/
def operations : List Operation := [
  .insert none (.journey "trip"),
  .insert (some ⟨1⟩) (.step "/start"),
  .insert (some ⟨2⟩) (.block "main"),
  .locate ⟨.query, ⟨2⟩, "day"⟩ none,
  .insertNode ⟨⟨9⟩, some ⟨2⟩, .reference ⟨["query", "day"]⟩⟩]

def store : NodeStore := moment.after operations

theorem reached_after {start : NodeStore} (reached : start.Reached) (operations : List Operation) :
    (start.after operations).Reached := by
  induction operations generalizing start with
  | nil => exact reached
  | cons operation rest ih => exact ih (reached.call operation)

theorem reached : store.Reached :=
  reached_after (reached_after (.starts (.startingAt 0)) _) operations

theorem attached : store.Attached 4 := by
  have kept : store.nodesBelow 4 = [early, ⟨⟨1⟩, none, .journey "trip"⟩,
      ⟨⟨2⟩, some ⟨1⟩, .step "/start"⟩, ⟨⟨3⟩, some ⟨2⟩, .block "main"⟩] := by rfl
  have coherent : store.Coherent := ((coherent_startingAt 0).after _).after operations
  rw [coherent.attached_iff, kept]
  simp only [List.forall_mem_cons, List.not_mem_nil, false_implies, implies_true, and_true]
  refine ⟨?_, nofun, ?_, ?_⟩ <;> rintro parent ⟨⟩ <;> decide

/-- Going back behind the parent keeps the child on its list, and inserting the others again
completes the lists. -/
theorem kept_restores : store.Reached ∧ 4 < store.nextId ∧ store.Attached 4 ∧
    (∃ rebuilt, store.Restores 4 rebuilt) ∧
    (store.truncate 4).children ⟨3⟩ = [⟨0⟩] ∧ (store.truncate 4).children ⟨2⟩ = [⟨3⟩] :=
  ⟨reached, by decide, attached, truncate_restores reached (by decide), by rfl, by rfl⟩

/-- Going back to the moment before the parent was inserted takes the child off its list for good.
The store of that moment, which inserting the kept node again makes, lists the child; the store
that went back does not, not even after the parent and all others were inserted again. -/
theorem child_lost : store.Reached ∧ moment.nextId < store.nextId ∧
    ofNodes (store.nodesBelow moment.nextId) moment.nextId = .ok moment ∧
    moment.children ⟨3⟩ = [⟨0⟩] ∧
    (store.truncate moment.nextId).nodes = moment.nodes ∧
    (store.truncate moment.nextId).children ⟨3⟩ = [] ∧
    ((store.truncate moment.nextId).after operations).children ⟨3⟩ = [] :=
  ⟨reached, by decide, by rfl, by rfl, by rfl, by rfl, by rfl⟩

end Forward

end NodeStore

end FormFlow
