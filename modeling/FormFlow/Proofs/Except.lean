import Mathlib.Data.List.Forall2

/-!
# Computations that may fail

A sequence of steps succeeds exactly if every step does (`Except.bind_eq_ok_iff`,
`Except.mapM_eq_ok_iff`). Proofs about a computation take it apart with these equations and
need not unfold the monad.
-/

set_option autoImplicit false

namespace FormFlow

namespace Except

variable {ε ε' α β : Type}

theorem bind_eq_ok_iff {first : Except ε α} {next : α → Except ε β} {value : β} :
    first >>= next = .ok value ↔ ∃ found, first = .ok found ∧ next found = .ok value := by
  cases first with
  | error error =>
    refine ⟨nofun, ?_⟩
    rintro ⟨_, ⟨⟩, _⟩
  | ok found =>
    refine ⟨fun run => ⟨found, rfl, run⟩, ?_⟩
    rintro ⟨_, ⟨⟩, run⟩
    exact run

theorem map_eq_ok_iff {change : α → β} {first : Except ε α} {value : β} :
    change <$> first = .ok value ↔ ∃ found, first = .ok found ∧ change found = value := by
  cases first with
  | error error =>
    refine ⟨nofun, ?_⟩
    rintro ⟨_, ⟨⟩, _⟩
  | ok found =>
    constructor
    · rintro ⟨⟩
      exact ⟨found, rfl, rfl⟩
    · rintro ⟨_, ⟨⟩, rfl⟩
      rfl

theorem mapError_eq_ok_iff {wrap : ε → ε'} {first : Except ε α} {value : α} :
    first.mapError wrap = .ok value ↔ first = .ok value := by
  cases first with
  | error error => exact ⟨nofun, nofun⟩
  | ok found =>
    constructor
    · rintro ⟨⟩
      rfl
    · rintro ⟨⟩
      rfl

theorem toOption_eq_some_iff {first : Except ε α} {value : α} :
    first.toOption = some value ↔ first = .ok value := by
  cases first with
  | error error => exact ⟨nofun, nofun⟩
  | ok found =>
    constructor
    · rintro ⟨⟩
      rfl
    · rintro ⟨⟩
      rfl

/-- A list is mapped to the results of its elements, all of which have to succeed. -/
theorem mapM_eq_ok_iff {f : α → Except ε β} {items : List α} {values : List β} :
    items.mapM f = .ok values ↔
      List.Forall₂ (fun item value => f item = .ok value) items values := by
  induction items generalizing values with
  | nil =>
    rw [List.mapM_nil]
    constructor
    · rintro ⟨⟩
      exact .nil
    · rintro ⟨⟩
      rfl
  | cons item rest ih =>
    rw [List.mapM_cons, bind_eq_ok_iff]
    constructor
    · rintro ⟨value, found, run⟩
      obtain ⟨others, restFound, same⟩ := bind_eq_ok_iff.1 run
      cases same
      exact .cons found (ih.1 restFound)
    · rintro (_ | ⟨found, restFound⟩)
      exact ⟨_, found, bind_eq_ok_iff.2 ⟨_, ih.2 restFound, rfl⟩⟩

theorem exists_of_mem_mapM {f : α → Except ε β} {items : List α} {values : List β}
    (mapped : items.mapM f = .ok values) {item : α} (member : item ∈ items) :
    ∃ value ∈ values, f item = .ok value := by
  have all := mapM_eq_ok_iff.1 mapped
  clear mapped
  induction all with
  | nil => cases member
  | cons found _ ih =>
    rcases List.mem_cons.1 member with rfl | later
    · exact ⟨_, List.mem_cons_self .., found⟩
    · obtain ⟨value, known, same⟩ := ih later
      exact ⟨value, List.mem_cons_of_mem _ known, same⟩

theorem exists_of_mem_result {f : α → Except ε β} {items : List α} {values : List β}
    (mapped : items.mapM f = .ok values) {value : β} (member : value ∈ values) :
    ∃ item ∈ items, f item = .ok value := by
  have all := mapM_eq_ok_iff.1 mapped
  clear mapped
  induction all with
  | nil => cases member
  | cons found _ ih =>
    rcases List.mem_cons.1 member with rfl | later
    · exact ⟨_, List.mem_cons_self .., found⟩
    · obtain ⟨item, known, same⟩ := ih later
      exact ⟨item, List.mem_cons_of_mem _ known, same⟩

/-- A list fails to be mapped at one of its elements. -/
theorem exists_of_mapM_eq_error {f : α → Except ε β} {items : List α} {error : ε}
    (failed : items.mapM f = .error error) : ∃ item ∈ items, f item = .error error := by
  induction items with
  | nil => cases failed
  | cons item rest ih =>
    rw [List.mapM_cons] at failed
    cases found : f item with
    | error first =>
      rw [found] at failed
      cases failed
      exact ⟨item, List.mem_cons_self .., found⟩
    | ok value =>
      rw [found] at failed
      cases below : rest.mapM f with
      | error later =>
        simp only [below] at failed
        cases failed
        obtain ⟨other, member, same⟩ := ih below
        exact ⟨other, List.mem_cons_of_mem _ member, same⟩
      | ok values =>
        simp only [below] at failed
        cases failed

/-- Steps that succeed from every state of a kind, and lead to one, succeed one after another. -/
theorem exists_foldlM {P : β → Prop} {step : β → α → Except ε β} {entries : List α}
    (each : ∀ state, ∀ entry ∈ entries, P state → ∃ next, step state entry = .ok next ∧ P next)
    {state : β} (start : P state) : ∃ last, entries.foldlM step state = .ok last ∧ P last := by
  induction entries generalizing state with
  | nil => exact ⟨state, rfl, start⟩
  | cons entry rest ih =>
    obtain ⟨next, first, held⟩ := each state entry (List.mem_cons_self ..) start
    obtain ⟨last, later, kept⟩ :=
      ih (fun state other member => each state other (List.mem_cons_of_mem _ member)) held
    exact ⟨last, bind_eq_ok_iff.2 ⟨next, first, later⟩, kept⟩

/-- Steps that succeed do what is said of each. -/
theorem foldl_of_foldlM {step : β → α → Except ε β} {total : β → α → β}
    (each : ∀ state entry next, step state entry = .ok next → next = total state entry)
    {entries : List α} {state last : β} (ran : entries.foldlM step state = .ok last) :
    last = entries.foldl total state := by
  induction entries generalizing state with
  | nil => exact (Except.ok.inj ran).symm
  | cons entry rest ih =>
    obtain ⟨next, first, later⟩ := bind_eq_ok_iff.1 ran
    rw [List.foldl_cons, ← each state entry next first]
    exact ih later

end Except

end FormFlow
