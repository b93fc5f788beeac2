import FormFlow.Proofs.Form.Preorder

/-!
# Pre-order without iterations

What stands directly in a node, iterations apart, are its parts (`NodeStore.parts`). The pre-order
along the parts leaves out every iteration and what is below one, and a traversal that goes on to
other children but not into iterations lists the same nodes once the iterations are taken out
(`Spans.keep`).

A pre-order keeps the order of siblings: the nodes of the list that stand directly in one node are
what that node leads to, in this order (`Spans.filter_parent`).
-/

set_option autoImplicit false

namespace FormFlow

open NodeSource

namespace Spans

variable {next fewer : NodeId → List NodeId} {roots listed : List NodeId}

/-- A traversal that does not go on from some nodes lists, without them, what a traversal lists that
does not come to them. -/
theorem keep (spans : Spans next roots listed) {keep : NodeId → Bool}
    (ends : ∀ id ∈ listed, keep id = false → next id = [])
    (goesOn : ∀ id ∈ listed, keep id = true → fewer id = (next id).filter keep) :
    Spans fewer (roots.filter keep) (listed.filter keep) := by
  induction spans with
  | nil => exact .nil
  | @cons id rest below others inner outer ihBelow ihOthers =>
    have first := ihBelow
      (fun other member => ends other (List.mem_cons_of_mem _ (List.mem_append_left _ member)))
      fun other member => goesOn other (List.mem_cons_of_mem _ (List.mem_append_left _ member))
    have last := ihOthers
      (fun other member => ends other (List.mem_cons_of_mem _ (List.mem_append_right _ member)))
      fun other member => goesOn other (List.mem_cons_of_mem _ (List.mem_append_right _ member))
    cases kept : keep id with
    | true =>
      rw [List.filter_cons_of_pos kept, List.filter_cons_of_pos kept, List.filter_append]
      rw [← goesOn id (List.mem_cons_self ..) kept] at first
      exact .cons first last
    | false =>
      have empty := ends id (List.mem_cons_self ..) kept
      rw [empty] at inner
      cases inner
      rwa [List.filter_cons_of_neg (by simp [kept]), List.filter_cons_of_neg (by simp [kept]),
        List.nil_append]

/-- A traversal goes on as before if each node that it lists leads to the same nodes. -/
theorem congr (spans : Spans next roots listed) (same : ∀ id ∈ listed, fewer id = next id) :
    Spans fewer roots listed := by
  induction spans with
  | nil => exact .nil
  | @cons id rest below others inner outer ihBelow ihOthers =>
    have first := ihBelow fun other member =>
      same other (List.mem_cons_of_mem _ (List.mem_append_left _ member))
    rw [← same id (List.mem_cons_self ..)] at first
    exact .cons first (ihOthers fun other member =>
      same other (List.mem_cons_of_mem _ (List.mem_append_right _ member)))

/-- **A pre-order keeps the order of siblings.** -/
theorem filter_parent {parent : NodeId → Option NodeId}
    (above : ∀ id, ∀ child ∈ next id, parent child = some id) (spans : Spans next roots listed)
    {top : NodeId} (under : ∀ id ∈ roots, parent id = some top) (distinct : (top :: listed).Nodup)
    (id : NodeId) : listed.filter (fun other => parent other = some id) =
      if id = top then roots else if id ∈ listed then next id else [] := by
  induction spans generalizing top with
  | nil => simp
  | @cons first rest below others inner outer ihBelow ihOthers =>
    obtain ⟨fresh, distinct⟩ := List.nodup_cons.1 distinct
    obtain ⟨apart, distinct⟩ := List.nodup_cons.1 distinct
    obtain ⟨distinctBelow, distinctOthers, disjoint⟩ := List.nodup_append.1 distinct
    have notTop : first ≠ top := fun same => fresh (same ▸ List.mem_cons_self ..)
    have topBelow : top ∉ below := fun member =>
      fresh (List.mem_cons_of_mem _ (List.mem_append_left _ member))
    have topOthers : top ∉ others := fun member =>
      fresh (List.mem_cons_of_mem _ (List.mem_append_right _ member))
    have firstOthers : first ∉ others := fun member => apart (List.mem_append_right _ member)
    have ownParent : parent first = some top := under first (List.mem_cons_self ..)
    rw [List.filter_cons, List.filter_append, ownParent,
      ihBelow (above first) (List.nodup_cons.2
        ⟨fun member => apart (List.mem_append_left _ member), distinctBelow⟩),
      ihOthers (fun other member => under other (List.mem_cons_of_mem _ member))
        (List.nodup_cons.2 ⟨topOthers, distinctOthers⟩)]
    by_cases isTop : id = top
    · subst isTop
      simp [notTop.symm, topBelow]
    · by_cases isFirst : id = first
      · subst isFirst
        simp [isTop, firstOthers, Ne.symm isTop]
      · by_cases inBelow : id ∈ below
        · have notOthers : id ∉ others := fun member => disjoint id inBelow id member rfl
          simp [isTop, isFirst, inBelow, notOthers, Ne.symm isTop]
        · simp [isTop, isFirst, inBelow, Ne.symm isTop]

end Spans

namespace NodeStore

/-- What stands directly in a node, iterations apart, in the order of insertion. -/
def parts (store : NodeStore) (id : NodeId) : List NodeId :=
  (store.nodes.filter fun node =>
    decide (node.parent = some id) && !node.kind.isIteration).map Node.id

variable {store : NodeStore}

theorem mem_parts_iff (coherent : store.Coherent) {id child : NodeId} :
    child ∈ store.parts id ↔ ∃ node, store.node? child = some node ∧ node.parent = some id ∧
      node.kind.isIteration = false := by
  simp only [parts, List.mem_map, List.mem_filter, Bool.and_eq_true, decide_eq_true_eq,
    Bool.not_eq_true', node?_eq_some_iff coherent]
  constructor
  · rintro ⟨node, ⟨member, contained, single⟩, rfl⟩
    exact ⟨node, ⟨member, rfl⟩, contained, single⟩
  · rintro ⟨node, ⟨member, rfl⟩, contained, single⟩
    exact ⟨node, ⟨member, contained, single⟩, rfl⟩

/-- The parts are the children that are no iterations. -/
theorem parts_eq_filter (coherent : store.Coherent) (id : NodeId) : store.parts id =
    (store.children id).filter fun child =>
      !(store.node? child).any fun node => node.kind.isIteration := by
  rw [children_eq coherent, List.filter_map, List.filter_filter, parts]
  congr 1
  refine List.filter_congr fun node member => ?_
  simp [Function.comp, node?_of_mem coherent member, Bool.and_comm]

/-- The parts of a node after nodes were appended. -/
theorem parts_of_append {later : NodeStore} {new : List Node}
    (nodes : later.nodes = store.nodes ++ new) {id : NodeId} (elsewhere : ∀ node ∈ new, node.parent = some id → node.kind.isIteration = true) :
    later.parts id = store.parts id := by
  rw [parts, nodes, List.filter_append, List.map_append, parts]
  refine (List.append_right_eq_self).2 (List.map_eq_nil_iff.2 (List.filter_eq_nil_iff.2 ?_))
  intro node member
  by_cases contained : node.parent = some id
  · simp [elsewhere node member contained]
  · simp [contained]

end NodeStore

end FormFlow
