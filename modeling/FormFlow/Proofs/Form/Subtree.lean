import FormFlow.Proofs.Form.Truncation

/-!
# Subtrees

A subtree is listed by a loop over a stack (`NodeStore.turn?`): a turn takes the last identifier
off, lists it, and puts its children at the end in reverse order. If no node contains itself the
loop ends, whether or not the root is there, and what it has listed then is the root, followed by
the subtrees of its children in their order (`NodeStore.Preordered`). Everything in it stands below
the root, once and behind the node that contains it.

Whether everything below the root is in it hangs on the lists of children. A store that never
went back lists every node under the parent that it names. A store that went back to a mark has
taken nodes off the lists of removed parents, and a subtree passes over these nodes: it is whole
exactly if the list of children of every identifier in it is (`NodeStore.subtree_preordered`).
-/

set_option autoImplicit false

namespace FormFlow

open NodeSource Relation

namespace NodeStore

/-! ## Stores after any calls -/

/-- A store that calls led to, of which any may have gone back to a mark or replaced the properties
of a node. -/
inductive Handled : NodeStore → Prop where
  | starts {store : NodeStore} : store.Starts → Handled store
  | call {store : NodeStore} : Handled store → (operation : Operation) →
    Handled (operation.applyTo store)
  | truncate {store : NodeStore} : Handled store → (mark : Nat) → Handled (store.truncate mark)
  | setKind {store changed : NodeStore} {id : NodeId} {kind : NodeKind} : Handled store →
    store.setKind id kind = .ok changed → Handled changed

/-- Properties say nothing about the place of a node. -/
theorem Placed.setKind {store changed : NodeStore} (placed : store.Placed) {id : NodeId}
    {kind : NodeKind} (set : store.setKind id kind = .ok changed) : changed.Placed := by
  rw [NodeStore.setKind] at set
  split at set
  · cases set
    have ids : ∀ node : Node, (if node.id = id then { node with kind } else node).id = node.id :=
      fun node => by split <;> rfl
    have links : ∀ node : Node,
        (if node.id = id then { node with kind } else node).link? = node.link? :=
      fun node => by split <;> rfl
    refine ⟨?_, ?_⟩
    · rw [List.map_map, Function.comp_def, List.map_congr_left fun node _ => ids node]
      exact placed.distinct
    · rw [List.filterMap_map, Function.comp_def, List.filterMap_congr fun node _ => links node]
      exact placed.listed
  · cases set

theorem Handled.placed {store : NodeStore} (handled : store.Handled) : store.Placed := by
  induction handled with
  | starts begun => exact begun.coherent.placed
  | @call store _ operation ih =>
    rcases applyTo_cases store operation with same | ⟨node, free, same⟩
    · rw [same]
      exact ih
    · rw [same]
      exact ih.push (conflict?_eq_none_iff.1 free).1
  | @truncate store _ mark ih =>
    rw [NodeStore.truncate]
    split
    · exact ih
    · exact ih.cut mark
  | setKind _ set ih => exact ih.setKind set

/-! ## The loop -/

/-- A traversal between two turns: what it has listed, and what still waits, the next at the
end. -/
structure Traversal where
  listed : List NodeId
  waiting : List NodeId
deriving DecidableEq, Repr

/-- One turn lists what comes next and lets its children wait, the first of them at the end. There
is none if nothing waits. -/
def turn? (store : NodeStore) (state : Traversal) : Option Traversal :=
  state.waiting.getLast?.map fun id =>
    ⟨state.listed ++ [id], state.waiting.dropLast ++ (store.children id).reverse⟩

/-- A traversal comes from one state to another in some turns. -/
abbrev Turns (store : NodeStore) : Traversal → Traversal → Prop :=
  ReflTransGen fun state next => store.turn? state = some next

/-- What waits at the end of the stack is listed in pre-order before the rest is touched. -/
theorem turns_of_spans {store : NodeStore} {roots listed : List NodeId}
    (spans : Spans store.children roots listed) (before waiting : List NodeId) :
    store.Turns ⟨before, waiting ++ roots.reverse⟩ ⟨before ++ listed, waiting⟩ := by
  induction spans generalizing before waiting with
  | nil =>
    rw [List.reverse_nil, List.append_nil, List.append_nil]
  | @cons id rest below others _ _ ihBelow ihOthers =>
    have first : store.turn? ⟨before, waiting ++ (id :: rest).reverse⟩ =
        some ⟨before ++ [id], (waiting ++ rest.reverse) ++ (store.children id).reverse⟩ := by
      simp [turn?, ← List.append_assoc]
    have inner := ihBelow (before ++ [id]) (waiting ++ rest.reverse)
    have outer := ihOthers (before ++ [id] ++ below) waiting
    have whole : before ++ id :: (below ++ others) = before ++ [id] ++ below ++ others := by simp
    rw [whole]
    refine .head ?_ (inner.trans outer)
    exact first

/-! ## What is listed -/

section

variable {store : NodeStore} (placed : store.Placed) (acyclic : Acyclic store)
include placed acyclic

/-- The number of steps that bounds a subtree is enough for every root. -/
theorem Placed.spans_subtree (root : NodeId) :
    Spans store.children [root] (store.subtree root) ∧ (store.subtree root).Nodup := by
  obtain ⟨path, ascends⟩ := acyclic.ascends (some root)
  obtain ⟨below, spans, distinct, enough⟩ := exists_below placed (fun _ _ => id) ascends
  rw [subtree_eq spans enough]
  exact ⟨List.append_nil below ▸ .cons spans .nil, distinct⟩

theorem Placed.inside_of_subtree {root : NodeId} {before after : List NodeId} {id : NodeId}
    (split : store.subtree root = before ++ id :: after) :
    id = root ∨ ∃ parent ∈ before, id ∈ store.children parent :=
  ((placed.spans_subtree acyclic root).1.leads_before split).imp_left List.mem_singleton.1

theorem Placed.reaches_root {root : NodeId} :
    ∀ id ∈ store.subtree root, ReflTransGen (Inside store) id root := by
  refine (placed.spans_subtree acyclic root).1.induction ?_ ?_
  · intro other first
    rw [List.mem_singleton.1 first]
  · intro outer _ above child leads
    exact .head (placed.inside leads) above

/-- A subtree is whole exactly if no list of children on the way misses a node. -/
theorem Placed.mem_subtree_iff (root : NodeId) :
    (∀ id, id ∈ store.subtree root ↔ ReflTransGen (Inside store) id root) ↔
      ∀ outer, ReflTransGen (Inside store) outer root → store.children outer =
        (store.nodes.filter fun node => node.parent = some outer).map Node.id := by
  have spans := (placed.spans_subtree acyclic root).1
  constructor
  · intro whole outer above
    refine (placed.children_sublist outer).eq_of_length_le
      (List.subperm_of_subset (placed.distinct.sublist (List.filter_sublist.map _)) ?_).length_le
    intro id member
    obtain ⟨node, known, rfl⟩ := List.mem_map.1 member
    obtain ⟨there, contained⟩ := List.mem_filter.1 known
    have found : store.node? node.id = some node := node?_of_mem_of_nodup placed.distinct there
    have up : Inside store node.id outer := ⟨node, found, of_decide_eq_true contained⟩
    obtain ⟨before, after, split⟩ := List.append_of_mem ((whole node.id).2 (.head up above))
    rcases placed.inside_of_subtree acyclic split with rfl | ⟨parent, -, child⟩
    · exact absurd (TransGen.head' up above) (acyclic _)
    · obtain ⟨again, same, named⟩ := placed.inside child
      cases found.symm.trans same
      cases named.symm.trans (of_decide_eq_true contained)
      exact child
  · intro whole id
    refine ⟨placed.reaches_root acyclic id, fun above => ?_⟩
    induction above using ReflTransGen.head_induction_on with
    | refl => exact spans.mem_of_root (List.mem_singleton_self root)
    | @head id outer up above ih =>
      obtain ⟨node, found, contained⟩ := up
      refine spans.mem_of_next ih ?_
      rw [whole outer above]
      refine List.mem_map.2 ⟨node, List.mem_filter.2 ⟨?_, decide_eq_true contained⟩, ?_⟩
      · exact List.mem_of_find?_eq_some found
      · exact id_eq_of_node? found

end

/-- What the subtree of a root is in a store. -/
structure Preordered (store : NodeStore) (root : NodeId) : Prop where
  /-- The loop comes to an end, and has listed the subtree by then. -/
  ends : store.Turns ⟨[], [root]⟩ ⟨store.subtree root, []⟩
  recursion : store.subtree root = root :: (store.children root).flatMap store.subtree
  /-- The children of a node are in the order of their insertion. -/
  inOrder : ∀ id, (store.children id).Sublist
    ((store.nodes.filter fun node => node.parent = some id).map Node.id)
  nodup : (store.subtree root).Nodup
  parent_first : ∀ before id after, store.subtree root = before ++ id :: after →
    id = root ∨ ∃ parent ∈ before, Inside store id parent
  reaches : ∀ id ∈ store.subtree root, ReflTransGen (Inside store) id root
  /-- Every node from which the parents lead to the root is listed exactly if the children of all
  of them and of the root are. -/
  whole_iff : (∀ id, id ∈ store.subtree root ↔ ReflTransGen (Inside store) id root) ↔
    ∀ outer, ReflTransGen (Inside store) outer root → store.children outer =
      (store.nodes.filter fun node => node.parent = some outer).map Node.id

/-- **A subtree is the recursive pre-order of the lists of children**, whatever the store went
through, as long as no node contains itself. It lists each of its members once and behind the node
that contains it, and it lists all that stands below the root exactly if no list of children on
the way has lost a node. -/
theorem subtree_preordered {store : NodeStore} (handled : store.Handled)
    (acyclic : Acyclic store) (root : NodeId) : store.Preordered root := by
  have placed := handled.placed
  obtain ⟨spans, distinct⟩ := placed.spans_subtree acyclic root
  have each := fun id => (placed.spans_subtree acyclic id).1
  exact {
    ends := turns_of_spans spans [] []
    recursion := by
      rw [spans.unique (.cons (.flatMap each (store.children root)) .nil), List.append_nil]
    inOrder := placed.children_sublist
    nodup := distinct
    parent_first := fun before id after split =>
      (placed.inside_of_subtree acyclic split).imp_right fun ⟨parent, member, child⟩ =>
        ⟨parent, member, placed.inside child⟩
    reaches := placed.reaches_root acyclic
    whole_iff := placed.mem_subtree_iff acyclic root }

/-! ### A root that is not there, and a child that is not listed -/

namespace Grove

/-- Two nodes name a parent that is never inserted, and two come before a node with a greater
identifier that contains them. -/
def operations : List Operation := [
  .insertNode ⟨⟨2⟩, some ⟨4⟩, .block "first"⟩,
  .insertNode ⟨⟨4⟩, some ⟨0⟩, .block "late"⟩,
  .insert (some ⟨0⟩) (.block "next"),
  .insertNode ⟨⟨3⟩, some ⟨4⟩, .reference ⟨["query", "day"]⟩⟩,
  .insert (some ⟨5⟩) (.block "last")]

def store : NodeStore := (startingAt 1).after operations

theorem handled_after {start : NodeStore} (handled : start.Handled) (operations : List Operation) :
    (start.after operations).Handled := by
  induction operations generalizing start with
  | nil => exact handled
  | cons operation rest ih => exact ih (handled.call operation)

theorem handled (mark : Nat) : (store.truncate mark).Handled :=
  (handled_after (.starts (.startingAt 1)) operations).truncate mark

/-- How far below the missing node the nodes stand. -/
def depth (id : NodeId) : Nat :=
  if id.val = 0 then 0 else if id.val = 4 ∨ id.val = 5 then 1 else 2

theorem acyclic (mark : Nat) : Acyclic (store.truncate mark) := by
  have descends : ∀ node ∈ store.nodes, ∀ parent, node.parent = some parent →
      depth parent < depth node.id := by
    have nodes : store.nodes = [⟨⟨2⟩, some ⟨4⟩, .block "first"⟩, ⟨⟨4⟩, some ⟨0⟩, .block "late"⟩,
        ⟨⟨5⟩, some ⟨0⟩, .block "next"⟩, ⟨⟨3⟩, some ⟨4⟩, .reference ⟨["query", "day"]⟩⟩,
        ⟨⟨6⟩, some ⟨5⟩, .block "last"⟩] := by rfl
    rw [nodes]
    simp only [List.forall_mem_cons, List.not_mem_nil, false_implies, implies_true, and_true]
    refine ⟨?_, ?_, ?_, ?_, ?_⟩ <;> rintro parent ⟨⟩ <;> decide
  refine acyclic_of_descends depth fun node member => descends node ?_
  rw [truncate] at member
  split at member
  · exact member
  · exact (List.mem_filter.1 member).1

/-- Going back to the last insertion takes no child from a list. The missing node has a subtree, and
the children come in the order of their insertion. -/
theorem missing_root : (store.truncate 6).Handled ∧ Acyclic (store.truncate 6) ∧
    (store.truncate 6).Preordered ⟨0⟩ ∧ (store.truncate 6).node? ⟨0⟩ = none ∧
    (store.truncate 6).subtree ⟨0⟩ = [⟨0⟩, ⟨4⟩, ⟨2⟩, ⟨3⟩, ⟨5⟩] :=
  ⟨handled 6, acyclic 6, subtree_preordered (handled 6) (acyclic 6) ⟨0⟩, by rfl, by rfl⟩

/-- Going back to before the node in the middle keeps its children and takes them off its list. Their
parents still lead to it, but its subtree has lost them. -/
theorem children_lost : (store.truncate 4).Handled ∧ Acyclic (store.truncate 4) ∧
    store.subtree ⟨4⟩ = [⟨4⟩, ⟨2⟩, ⟨3⟩] ∧ (store.truncate 4).subtree ⟨4⟩ = [⟨4⟩] ∧
    ReflTransGen (Inside (store.truncate 4)) ⟨2⟩ ⟨4⟩ ∧
    ¬∀ id, id ∈ (store.truncate 4).subtree ⟨4⟩ ↔ ReflTransGen (Inside (store.truncate 4)) id ⟨4⟩ := by
  have alone : (store.truncate 4).subtree ⟨4⟩ = [⟨4⟩] := by rfl
  have leads : ReflTransGen (Inside (store.truncate 4)) ⟨2⟩ ⟨4⟩ :=
    .single ⟨⟨⟨2⟩, some ⟨4⟩, .block "first"⟩, by rfl, rfl⟩
  refine ⟨handled 4, acyclic 4, by rfl, alone, leads, fun whole => ?_⟩
  have member := (whole ⟨2⟩).2 leads
  rw [alone] at member
  cases List.mem_singleton.1 member

end Grove

end NodeStore

end FormFlow
