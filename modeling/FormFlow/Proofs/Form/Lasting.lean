import FormFlow.Proofs.Form.Growth

/-!
# While identifiers last

Behind the last identifier the count of a store wraps around and stays where it is. That shows as
soon as a node has the last identifier, and not before: if no node of a store has it, the nodes
were added as they are without an end of identifiers (`NodeStore.take_eq_push`).

The next identifier of a coherent store is free, so a pseudo-node that is not found can always be
created (`NodeStore.Coherent.findOrCreate_eq`). Where the next identifier is taken, that is the only
thing that stands against it (`NodeStore.findOrCreate_eq`).
-/

set_option autoImplicit false

namespace FormFlow

namespace NodeStore

variable {store later : NodeStore} {node : Node} {counting : Counting}

/-- No node of a store has the last identifier. -/
def Lasting (store : NodeStore) : Prop := ∀ node ∈ store.nodes, node.id.HasNext

instance (store : NodeStore) : Decidable store.Lasting :=
  inferInstanceAs (Decidable (∀ node ∈ store.nodes, node.id.val + 1 < identBound))

theorem take_eq_push (store : NodeStore) (next : node.id.HasNext) (counting : Counting) :
    store.take node counting = store.push node := by
  rw [take, counting.ahead_eq next]
  rfl

theorem Lasting.of_subset (lasting : later.Lasting) (subset : store.nodes ⊆ later.nodes) :
    store.Lasting := fun node member => lasting node (subset member)

/-- What lasts after a node was added did so before, and the node was counted as everywhere. -/
theorem Lasting.of_take (lasting : (store.take node counting).Lasting) :
    node.id.HasNext ∧ store.Lasting :=
  ⟨lasting node (List.mem_append_right _ (List.mem_singleton_self _)),
    lasting.of_subset (List.subset_append_left ..)⟩

/-- Finding or creating a pseudo-node fails if the next identifier is taken, and else never. -/
theorem findOrCreate_eq (store : NodeStore) (identity : PseudoKey) (origin : Option NodeId)
    (counting : Counting) : store.findOrCreate identity origin counting =
      match store.pseudo? identity with
      | some existing => .ok ⟨store, existing, false⟩
      | none =>
        if store.contains ⟨store.nextId⟩ then .error (.duplicateNode ⟨store.nextId⟩)
        else .ok ⟨store.take ⟨⟨store.nextId⟩, some identity.scope, .pseudo ⟨identity, origin⟩⟩
          counting, ⟨store.nextId⟩, true⟩ := by
  rw [findOrCreate]
  cases absent : store.pseudo? identity with
  | some existing => rfl
  | none =>
    have unnamed : store.conflict? ⟨⟨store.nextId⟩, some identity.scope,
        .pseudo ⟨identity, origin⟩⟩ =
          if store.contains ⟨store.nextId⟩ then some (.duplicateNode ⟨store.nextId⟩) else none := by
      simp [conflict?, NodeKind.pseudo?, absent]
    simp only [add, addNode, unnamed]
    cases store.contains ⟨store.nextId⟩ <;> rfl

/-- A pseudo-node that is not found can be created in a coherent store while identifiers last. -/
theorem Coherent.findOrCreate_eq (coherent : store.Coherent)
    (lasts : counting = .wrapping → NodeId.HasNext ⟨store.nextId⟩) (identity : PseudoKey)
    (origin : Option NodeId) :
    store.findOrCreate identity origin counting = .ok (store.locate identity origin) := by
  rw [NodeStore.findOrCreate_eq, NodeStore.locate, contains_nextId coherent]
  cases store.pseudo? identity with
  | some existing => rfl
  | none =>
    cases counting with
    | endless => rfl
    | wrapping =>
      dsimp only
      rw [take_eq_push _ (lasts rfl), if_neg Bool.false_ne_true]

/-- Pseudo-nodes are put behind a store. -/
theorem Heaps.findOrCreate (heaps : store.Heaps later) {identity : PseudoKey}
    {origin : Option NodeId} {located : Located NodeStore}
    (found : later.findOrCreate identity origin counting = .ok located) :
    store.Heaps located.nodes := by
  rw [NodeStore.findOrCreate_eq] at found
  split at found
  · cases found
    exact heaps
  · split at found
    · cases found
    · cases found
      exact heaps.take counting heaps.nextId_le

end NodeStore

end FormFlow
