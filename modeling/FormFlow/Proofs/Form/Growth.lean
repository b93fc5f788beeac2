import FormFlow.Proofs.Form.Coherence

/-!
# Stores that grow

Whatever is done to a store while nodes are made is a sequence of insertions.
`NodeStore.Grows` says that one store came from another in this way, with every new
identifier at or above a mark. A lookup that succeeded before succeeds after
(`Grows.node?_of_found`, `Grows.pseudo?_of_found`), and what a store shows below the mark stays
(`Grows.node?_below`).

Going back to the next identifier of a store undoes whatever was inserted after it
(`Grows.truncate`). Only the pairs of the containment need care: a node that is kept must not
have a parent above the mark. It does not matter how the nodes were counted, as long as the next
identifier has moved on (`Heaps.truncate`).
-/

set_option autoImplicit false

namespace FormFlow

namespace NodeStore

/-- One store came from another by insertions of nodes with identifiers from a mark on. -/
inductive Grows (mark : Nat) (store : NodeStore) : NodeStore → Prop where
  | refl : Grows mark store store
  | push {later : NodeStore} {node : Node} : Grows mark store later →
    later.conflict? node = none → mark ≤ node.id.val → Grows mark store (later.push node)

namespace Grows

variable {mark : Nat} {store middle later : NodeStore}

theorem trans (first : Grows mark store middle) (second : Grows mark middle later) :
    Grows mark store later := by
  induction second with
  | refl => exact first
  | push _ free high ih => exact ih.push free high

theorem mono {higher : Nat} (grows : Grows higher store later) (le : mark ≤ higher) :
    Grows mark store later := by
  induction grows with
  | refl => exact .refl
  | push _ free high ih => exact ih.push free (Nat.le_trans le high)

theorem coherent (grows : Grows mark store later) (coherent : store.Coherent) :
    later.Coherent := by
  induction grows with
  | refl => exact coherent
  | push _ free _ ih => exact ih.push free

theorem nextId_le (grows : Grows mark store later) : store.nextId ≤ later.nextId := by
  induction grows with
  | refl => exact Nat.le_refl _
  | push _ _ _ ih => exact Nat.le_trans ih (Nat.le_max_left ..)

theorem node?_of_found (grows : Grows mark store later) {id : NodeId} {node : Node}
    (found : store.node? id = some node) : later.node? id = some node := by
  induction grows with
  | refl => exact found
  | @push later added _ free _ ih =>
    have fresh := (conflict?_eq_none_iff.1 free).1
    rw [node?_push fresh]
    split
    · rename_i same
      rw [contains, same, ih] at fresh
      cases fresh
    · exact ih

/-- Below the mark no node is found that was not there. -/
theorem node?_below (grows : Grows mark store later) {id : NodeId} (low : id.val < mark) :
    later.node? id = store.node? id := by
  induction grows with
  | refl => rfl
  | @push later added _ free high ih =>
    rw [node?_push (conflict?_eq_none_iff.1 free).1, if_neg, ih]
    rintro rfl
    omega

theorem pseudo?_of_found (grows : Grows mark store later) {identity : PseudoKey} {id : NodeId}
    (found : store.pseudo? identity = some id) : later.pseudo? identity = some id := by
  induction grows with
  | refl => exact found
  | push _ _ _ ih =>
    rw [pseudo?] at ih ⊢
    simp [NodeStore.push, List.lookup_append, ih]

end Grows

/-! ## Insertions grow a store -/

theorem Grows.locate {mark : Nat} {store later : NodeStore} (grows : Grows mark store later)
    (coherent : later.Coherent) (high : mark ≤ later.nextId) (identity : PseudoKey)
    (origin : Option NodeId) : Grows mark store (later.locate identity origin).nodes := by
  cases present : later.pseudo? identity with
  | some id =>
    rw [locate_of_present present]
    exact grows
  | none =>
    rw [locate_of_absent present]
    exact grows.push (coherent.conflict?_fresh present origin) high

/-! ## Going back -/

/-- What is left of a store below a mark. -/
def cut (store : NodeStore) (mark : Nat) : NodeStore where
  nodes := store.nodes.filter fun node => node.id.val < mark
  containment := store.containment.filter fun link => link.1.val < mark && link.2.val < mark
  references := store.references.filter fun id => id.val < mark
  identities := store.identities.filter fun entry => entry.2.val < mark
  nextId := mark

/-- The parents of the nodes of a store lie below its next identifier. -/
def ParentsBelow (store : NodeStore) : Prop :=
  ∀ node ∈ store.nodes, ∀ parent, node.parent = some parent → parent.val < store.nextId

/-- A node at or above the mark leaves nothing below it. -/
theorem cut_push {store : NodeStore} {mark : Nat} {node : Node} (high : mark ≤ node.id.val) :
    (store.push node).cut mark = store.cut mark := by
  have above : ¬node.id.val < mark := by omega
  simp only [cut, push]
  congr 1
  · simp [above]
  · cases node.parent <;> simp [above]
  · cases node.kind.isReference <;> simp [above]
  · cases node.kind.pseudo? <;> simp [above]

theorem cut_nextId {store : NodeStore} (coherent : store.Coherent) (below : store.ParentsBelow) :
    store.cut store.nextId = store := by
  have own : ∀ node ∈ store.nodes, node.id.val < store.nextId := coherent.below
  simp only [cut]
  rw [List.filter_eq_self.2, List.filter_eq_self.2, List.filter_eq_self.2, List.filter_eq_self.2]
  · intro entry member
    rw [coherent.identities] at member
    obtain ⟨node, found, entered⟩ := List.mem_filterMap.1 member
    obtain ⟨_, _, rfl⟩ := Option.map_eq_some_iff.1 entered
    simpa using own node found
  · intro id member
    rw [coherent.references] at member
    obtain ⟨node, found, rfl⟩ := List.mem_map.1 member
    simpa using own node (List.mem_filter.1 found).1
  · intro link member
    rw [coherent.containment] at member
    obtain ⟨node, found, linked⟩ := List.mem_filterMap.1 member
    obtain ⟨parent, contained, rfl⟩ := Option.map_eq_some_iff.1 linked
    simpa using ⟨below node found parent contained, own node found⟩
  · intro node member
    simpa using own node member

/-- Nodes with identifiers from the next one of a store on were put behind it, however they were
counted. -/
inductive Heaps (store : NodeStore) : NodeStore → Prop where
  | refl : Heaps store store
  | take {later : NodeStore} {node : Node} (counting : Counting) :
    Heaps store later → store.nextId ≤ node.id.val → Heaps store (later.take node counting)

section

variable {store later : NodeStore}

theorem Heaps.nextId_le (heaps : store.Heaps later) : store.nextId ≤ later.nextId := by
  induction heaps with
  | refl => exact Nat.le_refl _
  | take _ _ _ ih => exact Nat.le_trans ih (Nat.le_max_left ..)

theorem Heaps.trans {last : NodeStore} (first : store.Heaps later) (second : later.Heaps last) :
    store.Heaps last := by
  induction second with
  | refl => exact first
  | take counting _ high ih => exact ih.take counting (Nat.le_trans first.nextId_le high)

/-- If the next identifier has moved on, cutting the store back undoes everything. -/
theorem Heaps.truncate (heaps : store.Heaps later) (higher : store.nextId < later.nextId)
    (coherent : store.Coherent) (below : store.ParentsBelow) :
    later.truncate store.nextId = store := by
  have same : later.cut store.nextId = store.cut store.nextId := by
    clear higher
    induction heaps with
    | refl => rfl
    | take _ _ high ih =>
      rw [← ih]
      exact cut_push high
  rw [NodeStore.truncate, if_neg (Nat.not_le.2 higher)]
  exact same.trans (cut_nextId coherent below)

theorem Grows.heaps (grows : Grows store.nextId store later) : store.Heaps later := by
  induction grows with
  | refl => exact .refl
  | push _ _ high ih => exact ih.take .endless high

/-- Going back to the next identifier of a store undoes its growth. -/
theorem Grows.truncate (grows : Grows store.nextId store later) (coherent : store.Coherent)
    (below : store.ParentsBelow) : later.truncate store.nextId = store := by
  have heaps := grows.heaps
  cases grows with
  | refl => exact truncate_nextId _
  | push _ _ high =>
    exact heaps.truncate (Nat.lt_of_lt_of_le (Nat.lt_succ_of_le high) (Nat.le_max_right ..))
      coherent below

end

end NodeStore

end FormFlow
