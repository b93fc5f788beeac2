import FormFlow.Proofs.Except
import FormFlow.Proofs.Form.Coherence
import FormFlow.Request.Template

/-!
# What a template is made of

A template is listed in pre-order: each of its nodes stands directly below the collection or
below a node that comes earlier in the list (`Template.Listed.under`). A copy of the list
therefore has every parent it needs by the time it needs it, and what passes from parents to
children holds of the whole list (`Hangs.induction`).

`Template.read_spec` collects what is known of a template that was read.
-/

set_option autoImplicit false

namespace FormFlow

/-- Nodes in an order in which each stands under a given one or under one that comes earlier. -/
def Hangs (Given : NodeId → Prop) (nodes : List Node) : Prop :=
  ∀ before node after, nodes = before ++ node :: after →
    ∃ parent, node.parent = some parent ∧ (Given parent ∨ parent ∈ before.map Node.id)

/-- What holds of the nodes under given ones and passes from a parent to its children holds of all
nodes. -/
theorem Hangs.induction {Given : NodeId → Prop} {nodes : List Node} (hangs : Hangs Given nodes)
    {P : Node → Prop}
    (up : ∀ node ∈ nodes, ∀ parent, node.parent = some parent →
      (Given parent ∨ ∃ outer ∈ nodes, outer.id = parent ∧ P outer) → P node) :
    ∀ node ∈ nodes, P node := by
  have along : ∀ (size : Nat) (before : List Node) (node : Node) (after : List Node),
      before.length = size → nodes = before ++ node :: after → P node := by
    intro size
    induction size using Nat.strongRecOn with
    | _ size ih =>
      intro before node after length split
      obtain ⟨parent, contained, place⟩ := hangs before node after split
      refine up node (by simp [split]) parent contained (place.imp_right fun earlier => ?_)
      obtain ⟨outer, member, named⟩ := List.mem_map.1 earlier
      obtain ⟨first, second, rfl⟩ := List.append_of_mem member
      refine ⟨outer, by simp [split], named, ?_⟩
      refine ih first.length ?_ first outer (second ++ node :: after) rfl (by simp [split])
      rw [← length]
      simp
  intro node member
  obtain ⟨before, after, split⟩ := List.append_of_mem member
  exact along before.length before node after rfl split

namespace Template

/-- A node directly below a collection or below one of some nodes. -/
def Under (collection : NodeId) (known : List NodeId) (node : Node) : Prop :=
  ∃ parent, node.parent = some parent ∧ (parent = collection ∨ parent ∈ known)

/-- The identifiers of some nodes of a template. -/
def ids (entries : List TemplateNode) : List NodeId := entries.map fun entry => entry.node.id

/-- Nodes of a store that are listed as the template of a collection. -/
structure Listed (layers : Layered) (holder : NodeStore) (collection : NodeId)
    (entries : List TemplateNode) : Prop where
  present : ∀ entry ∈ entries, holder.node? entry.node.id = some entry.node
  copied : ∀ entry ∈ entries, entry.node.kind.isIteration = false
  direct : ∀ entry ∈ entries,
    entry.direct = decide ((NodeSource.repeatedAbove? layers entry.node).map Node.id =
      some collection)
  under : ∀ before entry after, entries = before ++ entry :: after →
    Under collection (ids before) entry.node

theorem Listed.hangs {layers : Layered} {holder : NodeStore} {collection : NodeId}
    {entries : List TemplateNode} (listed : Listed layers holder collection entries) :
    Hangs (· = collection) (entries.map TemplateNode.node) := by
  intro before node after split
  obtain ⟨first, last, rfl, rfl, rest⟩ := List.map_eq_append_iff.1 split
  obtain ⟨entry, later, rfl, rfl, rfl⟩ := List.map_eq_cons_iff.1 rest
  simpa [Under, ids] using listed.under first entry later rfl

/-- What is taken off a stack hangs below what was taken off before. -/
theorem unfold_spec {layers : Layered} {holder : NodeStore} (coherent : holder.Coherent)
    {collection : NodeId} {fuel : Nat} {stack known : List NodeId} {entries : List TemplateNode}
    (hangs : ∀ id ∈ stack, ∀ node, holder.node? id = some node → Under collection known node)
    (run : unfold layers holder collection fuel stack = .ok entries) :
    (∀ entry ∈ entries, holder.node? entry.node.id = some entry.node ∧
      entry.node.kind.isIteration = false ∧
      entry.direct = decide ((NodeSource.repeatedAbove? layers entry.node).map Node.id =
        some collection)) ∧
    ∀ before entry after, entries = before ++ entry :: after →
      Under collection (known ++ ids before) entry.node := by
  induction fuel generalizing stack known entries with
  | zero =>
    cases run
    simp
  | succ fuel ih =>
    cases stack with
    | nil =>
      cases run
      simp
    | cons id stack =>
      rw [unfold] at run
      obtain ⟨node, found, run⟩ := Except.bind_eq_ok_iff.1 run
      have present : holder.node? id = some node := NodeSource.node?_of_get found
      have named := NodeStore.id_of_node? coherent present
      split at run
      · exact ih (fun other member => hangs other (List.mem_cons_of_mem _ member)) run
      · rename_i plain
        obtain ⟨rest, below, run⟩ := Except.bind_eq_ok_iff.1 run
        cases run
        have inner : ∀ other ∈ holder.children id ++ stack, ∀ found,
            holder.node? other = some found → Under collection (known ++ [id]) found := by
          intro other member found lookup
          rcases List.mem_append.1 member with child | waiting
          · obtain ⟨again, same, contained⟩ := (NodeStore.mem_children_iff coherent).1 child
            rw [lookup] at same
            cases same
            exact ⟨id, contained, .inr (by simp)⟩
          · obtain ⟨parent, contained, place⟩ :=
              hangs other (List.mem_cons_of_mem _ waiting) found lookup
            refine ⟨parent, contained, place.imp_right fun member => ?_⟩
            exact List.mem_append_left _ member
        obtain ⟨each, order⟩ := ih inner below
        refine ⟨?_, ?_⟩
        · intro entry member
          rcases List.mem_cons.1 member with rfl | later
          · exact ⟨named ▸ present, by simpa using plain, rfl⟩
          · exact each entry later
        · intro before entry after split
          cases before with
          | nil =>
            cases split
            simpa [ids] using hangs id (List.mem_cons_self ..) node present
          | cons first before =>
            cases split
            simpa [ids, named] using order before entry after rfl

/-- A template that was read belongs to a collection that is there and in no open template. -/
theorem read_spec {layers : Layered} (base : layers.base.Coherent)
    (overlay : layers.overlay.Coherent) {scopes : ScopeTree} {collection : NodeId}
    {template : Template} (read : Template.read layers scopes collection = .ok template) :
    ∃ node definition, layers.node? collection = some node ∧
      node.kind = .collection definition ∧
      NodeSource.inOpenTemplate layers node = false ∧
      NodeSource.owningStep? layers collection = some template.step ∧
      scopes.isStep template.step = true ∧
      template.collection = collection ∧ template.code = definition.code ∧
      Listed layers (layers.holder collection) collection template.nodes := by
  have holding : (layers.holder collection).Coherent := by
    simp only [Layered.holder]
    split
    · exact overlay
    · exact base
  simp only [Template.read] at read
  obtain ⟨node, found, read⟩ := Except.bind_eq_ok_iff.1 read
  have present := NodeSource.node?_of_get (Except.mapError_eq_ok_iff.1 found)
  split at read
  · cases read
  · rename_i definition isCollection
    split at read
    · cases read
    · rename_i closed
      split at read
      · cases read
      · rename_i step known
        obtain ⟨entries, listed, read⟩ := Except.bind_eq_ok_iff.1 read
        cases read
        obtain ⟨owned, isStep⟩ := Option.filter_eq_some_iff.1 known
        have hangs : ∀ id ∈ (layers.holder collection).children collection, ∀ found,
            (layers.holder collection).node? id = some found → Under collection [] found := by
          intro id child found lookup
          obtain ⟨again, same, contained⟩ := (NodeStore.mem_children_iff holding).1 child
          rw [lookup] at same
          cases same
          exact ⟨collection, contained, .inl rfl⟩
        obtain ⟨each, order⟩ := unfold_spec holding hangs (Except.mapError_eq_ok_iff.1 listed)
        refine ⟨node, definition, present, NodeKind.collection?_eq_some_iff.1 isCollection,
          by simpa using closed, owned, isStep, rfl, rfl, ?_⟩
        exact
          { present := fun entry member => (each entry member).1
            copied := fun entry member => (each entry member).2.1
            direct := fun entry member => (each entry member).2.2
            under := fun before entry after split => by simpa using order before entry after split }

end Template

end FormFlow
