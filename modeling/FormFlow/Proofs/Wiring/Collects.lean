import FormFlow.Proofs.Wiring.Outcome

/-!
# Drafts that collect what single nodes ask for

Both passes of wiring come down to single nodes, and everything that a node asks for leads into
that node (`Draft.Into`). A draft collects the nodes under a condition if it offers each of their
connections what the node itself asks for, and nothing else (`Draft.Collects`).

Drafts that collect can be put together: families side by side over the same nodes
(`Collects.flatMap`), and groups one after the other, each with its own nodes
(`Collects.union`).
-/

set_option autoImplicit false

namespace FormFlow

theorem findSome?_congr {α β : Type} {items : List α} {f g : α → Option β}
    (same : ∀ item ∈ items, f item = g item) : items.findSome? f = items.findSome? g := by
  induction items with
  | nil => rfl
  | cons item rest ih =>
    rw [List.findSome?_cons, List.findSome?_cons, same item (List.mem_cons_self ..),
      ih fun other member => same other (List.mem_cons_of_mem _ member)]

namespace Draft

/-- Every connection of a draft leads into one node. -/
def Into (draft : Draft) (consumer : NodeId) : Prop :=
  ∀ c, .ok c ∈ draft → c.consumer = consumer

theorem into_nil (consumer : NodeId) : Into [] consumer := nofun

theorem Into.after_error (consumer : NodeId) (error : WiringError) :
    Into [.error error] consumer := by
  intro c member
  simp at member

theorem Into.append {first second : Draft} {consumer : NodeId} (one : first.Into consumer)
    (other : second.Into consumer) : (first ++ second).Into consumer := by
  intro c member
  rcases List.mem_append.1 member with left | right
  · exact one c left
  · exact other c right

theorem Into.left {first second : Draft} {consumer : NodeId}
    (into : (first ++ second).Into consumer) : first.Into consumer :=
  fun c member => into c (List.mem_append_left _ member)

theorem Into.right {first second : Draft} {consumer : NodeId}
    (into : (first ++ second).Into consumer) : second.Into consumer :=
  fun c member => into c (List.mem_append_right _ member)

theorem Into.after {α : Type} {value : Except WiringError α} {draft : α → Draft}
    {consumer : NodeId} (into : ∀ found, (draft found).Into consumer) :
    (Draft.after value draft).Into consumer := by
  cases value with
  | ok found => exact into found
  | error error => exact after_error consumer error

theorem Into.offer?_of_ne {draft : Draft} {consumer : NodeId} (into : draft.Into consumer)
    {triple : Triple} (other : triple.consumer ≠ consumer) : draft.offer? triple = none := by
  rw [offer?, List.findSome?_eq_none_iff]
  intro entry member
  cases entry with
  | error error => rfl
  | ok c =>
    refine if_neg ?_
    rintro rfl
    exact other (into c member)

/-- Of drafts that each lead into a node of their own, only one concerns a connection. -/
theorem offer?_flatMap_into {ids : List NodeId} {draft : NodeId → Draft}
    (into : ∀ id ∈ ids, (draft id).Into id) (triple : Triple) :
    offer? (ids.flatMap draft) triple =
      if triple.consumer ∈ ids then (draft triple.consumer).offer? triple else none := by
  induction ids with
  | nil => simp
  | cons id rest ih =>
    rw [List.flatMap_cons, offer?_append,
      ih fun other member => into other (List.mem_cons_of_mem _ member)]
    by_cases here : triple.consumer = id
    · subst here
      by_cases again : triple.consumer ∈ rest <;> simp [again]
    · rw [(into id (List.mem_cons_self ..)).offer?_of_ne here]
      simp [here]

/-! ## Drafts that collect what single nodes ask for -/

/-- Unless it fails, a draft offers what the nodes under a condition ask for, and no more. -/
structure Collects (draft : Draft) (Within : NodeId → Prop) (single : NodeId → Draft) :
    Prop where
  succeeds : draft.failure? = none → ∀ id, Within id → (single id).failure? = none
  inside : draft.failure? = none → ∀ triple : Triple, Within triple.consumer →
    draft.offer? triple = (single triple.consumer).offer? triple
  outside : draft.failure? = none → ∀ triple : Triple, ¬Within triple.consumer →
    draft.offer? triple = none

namespace Collects

variable {Within : NodeId → Prop} {single : NodeId → Draft}

theorem nil : Collects [] Within fun _ => [] :=
  ⟨fun _ _ _ => rfl, fun _ _ _ => rfl, fun _ _ _ => rfl⟩

theorem ofFailure {draft : Draft} (fails : draft.failure? ≠ none) :
    draft.Collects Within single :=
  ⟨fun silent => absurd silent fails, fun silent => absurd silent fails,
    fun silent => absurd silent fails⟩

theorem append {first second : Draft} {other : NodeId → Draft}
    (one : first.Collects Within single) (two : second.Collects Within other) :
    (first ++ second).Collects Within fun id => single id ++ other id := by
  refine ⟨?_, ?_, ?_⟩
  · intro succeeds id within
    obtain ⟨left, right⟩ := failure?_append.1 succeeds
    exact failure?_append.2 ⟨one.succeeds left id within, two.succeeds right id within⟩
  · intro succeeds triple within
    obtain ⟨left, right⟩ := failure?_append.1 succeeds
    rw [offer?_append, offer?_append, one.inside left triple within,
      two.inside right triple within]
  · intro succeeds triple without
    obtain ⟨left, right⟩ := failure?_append.1 succeeds
    rw [offer?_append, one.outside left triple without, two.outside right triple without]
    rfl

/-- Families side by side over the same nodes. -/
theorem flatMap {α : Type} {items : List α} {draft : α → Draft} {singles : α → NodeId → Draft}
    (each : ∀ item ∈ items, (draft item).Collects Within (singles item)) :
    Collects (items.flatMap draft) Within fun id => items.flatMap fun item => singles item id := by
  induction items with
  | nil => exact nil
  | cons item rest ih =>
    exact (each item (List.mem_cons_self ..)).append
      (ih fun other member => each other (List.mem_cons_of_mem _ member))

/-- Groups one after the other, each with nodes of its own. -/
theorem union {α : Type} {items : List α} {draft : α → Draft} {Among : α → NodeId → Prop}
    (each : ∀ item ∈ items, (draft item).Collects (Among item) single) :
    Collects (items.flatMap draft) (fun id => ∃ item ∈ items, Among item id) single := by
  refine ⟨?_, ?_, ?_⟩
  · rintro succeeds id ⟨item, member, among⟩
    exact (each item member).succeeds (failure?_flatMap.1 succeeds item member) id among
  · rintro succeeds triple ⟨item, member, among⟩
    rw [offer?_flatMap]
    have every : ∀ other ∈ items, (draft other).offer? triple = none ∨
        (draft other).offer? triple = (single triple.consumer).offer? triple := by
      intro other known
      have silent := failure?_flatMap.1 succeeds other known
      by_cases inner : Among other triple.consumer
      · exact .inr ((each other known).inside silent triple inner)
      · exact .inl ((each other known).outside silent triple inner)
    have own := (each item member).inside (failure?_flatMap.1 succeeds item member) triple among
    cases asked : (single triple.consumer).offer? triple with
    | none =>
      refine List.findSome?_eq_none_iff.2 fun other known => ?_
      rcases every other known with silent | same
      · exact silent
      · rw [same, asked]
    | some metadata =>
      cases found : items.findSome? fun item => (draft item).offer? triple with
      | none =>
        have absent := List.findSome?_eq_none_iff.1 found item member
        rw [own, asked] at absent
        cases absent
      | some other =>
        obtain ⟨source, known, offered⟩ := List.exists_of_findSome?_eq_some found
        rcases every source known with silent | same
        · rw [silent] at offered
          cases offered
        · rw [← offered, same, asked]
  · intro succeeds triple without
    rw [offer?_flatMap]
    refine List.findSome?_eq_none_iff.2 fun item member => ?_
    exact (each item member).outside (failure?_flatMap.1 succeeds item member) triple
      fun among => without ⟨item, member, among⟩

theorem congr {draft : Draft} {other : NodeId → Draft} {Same : NodeId → Prop}
    (collects : draft.Collects Within single) (same : ∀ id, Within id ↔ Same id)
    (asks : ∀ id, Within id → single id = other id) : draft.Collects Same other := by
  refine ⟨?_, ?_, ?_⟩
  · intro succeeds id within
    have held := (same id).2 within
    rw [← asks id held]
    exact collects.succeeds succeeds id held
  · intro succeeds triple within
    have held := (same _).2 within
    rw [← asks _ held]
    exact collects.inside succeeds triple held
  · intro succeeds triple without
    exact collects.outside succeeds triple fun held => without ((same _).1 held)

/-- Nodes that ask for nothing may be added to those that are collected. -/
theorem extend {draft : Draft} {other : NodeId → Draft} {More : NodeId → Prop}
    (collects : draft.Collects Within single) (more : ∀ id, Within id → More id)
    (asks : ∀ id, Within id → single id = other id)
    (nothing : ∀ id, More id → ¬Within id → other id = []) : draft.Collects More other := by
  refine ⟨?_, ?_, ?_⟩
  · intro succeeds id added
    by_cases within : Within id
    · rw [← asks id within]
      exact collects.succeeds succeeds id within
    · rw [nothing id added within]
      rfl
  · intro succeeds triple added
    by_cases within : Within triple.consumer
    · rw [← asks _ within]
      exact collects.inside succeeds triple within
    · rw [nothing _ added within, collects.outside succeeds triple within]
      rfl
  · intro succeeds triple without
    exact collects.outside succeeds triple fun within => without (more _ within)

/-- Two drafts for each item may be collected apart, if no connection concerns both. -/
theorem interleave {α : Type} {items : List α} {first second : α → Draft}
    {other : NodeId → Draft} (one : Collects (items.flatMap first) Within single)
    (two : Collects (items.flatMap second) Within other)
    (apart : ∀ triple, (∀ item ∈ items, (first item).offer? triple = none) ∨
      ∀ item ∈ items, (second item).offer? triple = none) :
    Collects (items.flatMap fun item => first item ++ second item) Within
      fun id => single id ++ other id := by
  have failures : failure? (items.flatMap fun item => first item ++ second item) = none →
      failure? (items.flatMap first ++ items.flatMap second) = none := by
    intro succeeds
    rw [failure?_append, failure?_flatMap, failure?_flatMap]
    have each := failure?_flatMap.1 succeeds
    exact ⟨fun item member => (failure?_append.1 (each item member)).1,
      fun item member => (failure?_append.1 (each item member)).2⟩
  have offers : ∀ triple, offer? (items.flatMap fun item => first item ++ second item) triple =
      offer? (items.flatMap first ++ items.flatMap second) triple := by
    intro triple
    rw [offer?_append, offer?_flatMap, offer?_flatMap, offer?_flatMap]
    rcases apart triple with silent | silent
    · rw [List.findSome?_eq_none_iff.2 silent, Option.none_or]
      refine findSome?_congr fun item member => ?_
      rw [offer?_append, silent item member, Option.none_or]
    · rw [List.findSome?_eq_none_iff.2 silent, Option.or_none]
      refine findSome?_congr fun item member => ?_
      rw [offer?_append, silent item member, Option.or_none]
  have both := one.append two
  refine ⟨?_, ?_, ?_⟩
  · exact fun succeeds => both.succeeds (failures succeeds)
  · intro succeeds triple within
    rw [offers]
    exact both.inside (failures succeeds) triple within
  · intro succeeds triple without
    rw [offers]
    exact both.outside (failures succeeds) triple without

/-- A list of nodes is collected by asking each of them. -/
theorem ofNodes {ids : List NodeId} (into : ∀ id ∈ ids, (single id).Into id) :
    Collects (ids.flatMap single) (· ∈ ids) single := by
  refine ⟨?_, ?_, ?_⟩
  · intro succeeds id member
    exact failure?_flatMap.1 succeeds id member
  · intro _ triple member
    rw [offer?_flatMap_into into, if_pos member]
  · intro _ triple absent
    rw [offer?_flatMap_into into, if_neg absent]

end Collects

end Draft

end FormFlow
