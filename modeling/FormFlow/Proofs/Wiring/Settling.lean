import FormFlow.Proofs.Wiring.Result
import FormFlow.Proofs.Wiring.Sequence

/-!
# What comes first is kept

Pseudo-nodes and edges are made in the same way: one entry after the other is looked up by its key,
an identity or a connection, and put behind the others if the key is not there (`settle`). The
pseudo-nodes of a step stand in the order in which its members want them first
(`Form.entriesIn_furnished`), and the edges of a graph in the order in which its draft asks for them
first (`Draft.connections_applyTo_silent`).

What is settled under some keys is what is settled of the entries with these keys
(`filter_foldl_settle`), so whatever was made for other scopes or other nodes in between leaves no
trace in it.
-/

set_option autoImplicit false

namespace FormFlow

open NodeSource

/-- A list goes together with itself, element by element. -/
theorem forall₂_eq_and_mem {α : Type} (items : List α) :
    List.Forall₂ (fun item other => item = other ∧ item ∈ items) items items :=
  List.forall₂_same.2 fun _ member => ⟨rfl, member⟩

/-! ## Entries with keys -/

section

variable {α β : Type} [DecidableEq α]

/-- Puts an entry behind others unless its key is there. -/
def settle (settled : List (α × β)) (entry : α × β) : List (α × β) :=
  if entry.1 ∈ settled.map Prod.fst then settled else settled ++ [entry]

theorem settle_of_mem {settled : List (α × β)} {entry : α × β}
    (present : entry.1 ∈ settled.map Prod.fst) : settle settled entry = settled :=
  if_pos present

theorem settle_of_not_mem {settled : List (α × β)} {entry : α × β}
    (absent : entry.1 ∉ settled.map Prod.fst) : settle settled entry = settled ++ [entry] :=
  if_neg absent

theorem filter_settle (test : α → Bool) (settled : List (α × β)) (entry : α × β) :
    (settle settled entry).filter (fun other => test other.1) =
      if test entry.1 then settle (settled.filter fun other => test other.1) entry
      else settled.filter fun other => test other.1 := by
  have known : test entry.1 = true →
      (entry.1 ∈ (settled.filter fun other => test other.1).map Prod.fst ↔
        entry.1 ∈ settled.map Prod.fst) := by
    intro passes
    simp only [List.mem_map, List.mem_filter]
    refine exists_congr fun other => and_congr_left fun same => and_iff_left ?_
    rwa [same]
  by_cases present : entry.1 ∈ settled.map Prod.fst
  · rw [settle_of_mem present]
    split
    · rename_i passes
      rw [settle_of_mem ((known passes).2 present)]
    · rfl
  · rw [settle_of_not_mem present, List.filter_append, List.filter_cons]
    split
    · rename_i passes
      rw [settle_of_not_mem (mt (known passes).1 present)]
      rfl
    · exact List.append_nil _

/-- What is settled under some keys is settled of the entries with these keys. -/
theorem filter_foldl_settle (test : α → Bool) (entries settled : List (α × β)) :
    (entries.foldl settle settled).filter (fun entry => test entry.1) =
      (entries.filter fun entry => test entry.1).foldl settle
        (settled.filter fun entry => test entry.1) := by
  induction entries generalizing settled with
  | nil => rfl
  | cons entry rest ih =>
    rw [List.foldl_cons, ih, filter_settle, List.filter_cons]
    split
    · rw [List.foldl_cons]
    · rfl

/-- The same is settled of entries that correspond to each other, if their keys do so one to one. -/
theorem forall₂_foldl_settle {Same : α × β → α × β → Prop}
    (keys : ∀ {one two like other}, Same one like → Same two other →
      (one.1 = two.1 ↔ like.1 = other.1))
    {entries others : List (α × β)} (all : List.Forall₂ Same entries others) :
    List.Forall₂ Same (entries.foldl settle []) (others.foldl settle []) := by
  refine List.rel_foldl (fun settled likewise correspond entry like same => ?_) .nil all
  have known : entry.1 ∈ settled.map Prod.fst ↔ like.1 ∈ likewise.map Prod.fst := by
    induction correspond with
    | nil => simp
    | cons first _ ih =>
      rw [List.map_cons, List.map_cons, List.mem_cons, List.mem_cons, keys same first, ih]
  simp only [settle, known]
  split
  · exact correspond
  · exact List.rel_append correspond (.cons same .nil)

end

/-! ## Pseudo-nodes -/

namespace NodeStore

/-- The identity of a pseudo-node of a scope, with what it was made for. -/
def entryIn? (scope : NodeId) (node : Node) : Option (PseudoKey × Option NodeId) :=
  (node.kind.pseudo?.filter fun definition => definition.scope = scope).map fun definition =>
    (definition.toPseudoKey, definition.origin)

/-- The pseudo-nodes of a scope in the order in which they were inserted. -/
def entriesIn (store : NodeStore) (scope : NodeId) : List (PseudoKey × Option NodeId) :=
  store.nodes.filterMap (entryIn? scope)

variable {store : NodeStore} (coherent : store.Coherent)
include coherent

theorem mem_entriesIn_iff {identity : PseudoKey} {scope : NodeId} :
    identity ∈ (store.entriesIn scope).map Prod.fst ↔
      identity.scope = scope ∧ HasPseudo store identity := by
  rw [hasPseudo_iff coherent, List.mem_map]
  simp only [entriesIn, List.mem_filterMap]
  constructor
  · rintro ⟨entry, ⟨node, member, read⟩, rfl⟩
    obtain ⟨definition, kept, rfl⟩ := Option.map_eq_some_iff.1 read
    obtain ⟨isPseudo, here⟩ := Option.filter_eq_some_iff.1 kept
    exact ⟨of_decide_eq_true here, node, member, by rw [Node.identity?, isPseudo]; rfl⟩
  · rintro ⟨rfl, node, member, identified⟩
    obtain ⟨definition, isPseudo, rfl⟩ := Option.map_eq_some_iff.1 identified
    refine ⟨(definition.toPseudoKey, definition.origin), ⟨node, member, ?_⟩, rfl⟩
    rw [entryIn?, isPseudo, Option.filter_some, if_pos (decide_eq_true rfl)]
    rfl

/-- Looking an identity up settles it in its scope and changes no other scope. -/
theorem entriesIn_locate (identity : PseudoKey) (origin : Option NodeId) (scope : NodeId) :
    (store.locate identity origin).nodes.entriesIn scope =
      if identity.scope = scope then settle (store.entriesIn scope) (identity, origin)
      else store.entriesIn scope := by
  cases present : store.pseudo? identity with
  | some id =>
    have known : (identity, origin).1 ∈ (store.entriesIn identity.scope).map Prod.fst :=
      (mem_entriesIn_iff coherent).2 ⟨rfl, id, present⟩
    rw [locate_of_present present]
    split
    · rename_i here
      rw [← here, settle_of_mem known]
    · rfl
  | none =>
    have absent : (identity, origin).1 ∉ (store.entriesIn identity.scope).map Prod.fst := by
      intro listed
      obtain ⟨-, id, found⟩ := (mem_entriesIn_iff coherent).1 listed
      cases present.symm.trans found
    rw [locate_of_absent present, entriesIn, push]
    dsimp only
    rw [List.filterMap_append]
    split
    · rename_i here
      rw [← here, settle_of_not_mem absent]
      simp [entriesIn, entryIn?, NodeKind.pseudo?, Option.filter_some]
    · rename_i elsewhere
      simp [entriesIn, entryIn?, NodeKind.pseudo?, Option.filter_some, elsewhere]

end NodeStore

namespace Synthesis

variable {store current : NodeStore} {step : NodeId}

/-- What is wanted in a step is settled there, and nowhere else. -/
theorem entriesIn_foldl {wanted : List (PseudoKey × Option NodeId)} {state : State NodeStore}
    (within : ∀ entry ∈ wanted, entry.1.scope = step) (good : state.nodes.Coherent)
    (scope : NodeId) : (wanted.foldl ofWant state).nodes.entriesIn scope =
      if step = scope then wanted.foldl settle (state.nodes.entriesIn scope)
      else state.nodes.entriesIn scope := by
  induction wanted generalizing state with
  | nil => exact (ite_self _).symm
  | cons entry rest ih =>
    obtain ⟨identity, origin⟩ := entry
    have later : (ofWant state (identity, origin)).nodes.Coherent := good.locate identity origin
    have made : (ofWant state (identity, origin)).nodes.entriesIn scope = _ :=
      NodeStore.entriesIn_locate good identity origin scope
    rw [List.foldl_cons,
      ih (fun other member => within other (List.mem_cons_of_mem _ member)) later, made,
      within _ (List.mem_cons_self ..), List.foldl_cons]
    split <;> rfl

/-- The making of the pseudo-nodes of a step changes no other scope. -/
theorem entriesIn_runStep (coherent : store.Coherent) (good : current.Coherent)
    (shown : Shows store current)
    (locals : ∀ code, HasPseudo current ⟨.answerLocal, step, code⟩ ↔
      HasPseudo store ⟨.answerLocal, step, code⟩) (scope : NodeId) :
    (runStep current step ((StepMembership.build store).members step)).nodes.entriesIn scope =
      if step = scope then (wantedIn store step).foldl settle (current.entriesIn scope)
      else current.entriesIn scope := by
  rw [runStep_eq_foldl coherent good shown locals]
  exact entriesIn_foldl (fun _ => scope_of_wants) good scope

end Synthesis

/-- After all steps a scope has what its step wants, behind what it had. -/
theorem NodeStore.entriesIn_synthesize {store current : NodeStore} (coherent : store.Coherent)
    {steps : List NodeId} (distinct : steps.Nodup) (good : current.Coherent)
    (shown : Shows store current)
    (pending : ∀ scope ∈ steps, current.entriesIn scope = store.entriesIn scope) (count : Nat)
    (scope : NodeId) :
    (WiredForm.synthesize (.build store) steps current count).1.entriesIn scope =
      if scope ∈ steps then (Synthesis.wantedIn store scope).foldl settle (current.entriesIn scope)
      else current.entriesIn scope := by
  induction steps generalizing current count with
  | nil => exact (if_neg (List.not_mem_nil)).symm
  | cons step rest ih =>
    obtain ⟨fresh, others⟩ := List.nodup_cons.1 distinct
    have grown : current.Grows current.nextId
        (Synthesis.runStep current step ((StepMembership.build store).members step)).nodes :=
      Synthesis.run_grows good step _ _ _
    have locals : ∀ code, HasPseudo current ⟨.answerLocal, step, code⟩ ↔
        HasPseudo store ⟨.answerLocal, step, code⟩ := by
      intro code
      have known := @mem_entriesIn_iff current good ⟨.answerLocal, step, code⟩ step
      rw [pending step (List.mem_cons_self ..), mem_entriesIn_iff coherent] at known
      simpa using known.symm
    have made := Synthesis.entriesIn_runStep coherent good shown locals
    rw [WiredForm.synthesize, ih others (grown.coherent good) (shown.trans grown.shows)
      (fun scope later => ?_), made]
    · by_cases here : step = scope
      · subst here
        rw [if_neg fresh, if_pos rfl, if_pos (List.mem_cons_self ..)]
      · rw [if_neg here]
        simp only [List.mem_cons, Ne.symm here, false_or]
    · have elsewhere : step ≠ scope := fun same => fresh (same ▸ later)
      rw [made, if_neg elsewhere]
      exact pending scope (List.mem_cons_of_mem _ later)

/-- **The pseudo-nodes of a step are there in the order in which the step wants them first**, if the
form has none before. -/
theorem Form.entriesIn_furnished {form : Form} (coherent : form.nodes.Coherent)
    (bare : ∀ node ∈ form.nodes.nodes, node.kind.pseudo? = none) {step : NodeId}
    (listed : step ∈ form.steps) :
    form.furnished.entriesIn step = (Synthesis.wantedIn form.nodes step).foldl settle [] := by
  have nothing : form.nodes.entriesIn step = [] := by
    refine List.filterMap_eq_nil_iff.2 fun node member => ?_
    rw [NodeStore.entryIn?, bare node member]
    rfl
  rw [furnished, NodeStore.entriesIn_synthesize coherent (nodup_steps coherent) coherent
    (.refl _) (fun _ _ => rfl), if_pos listed, nothing]

namespace NodeStore

variable {store other : NodeStore}

/-- The identifiers of the pseudo-nodes of a kind are listed like the identities. -/
theorem pseudoIds_eq (coherent : store.Coherent) (kind : PseudoKind) (scope : NodeId) :
    store.pseudoIds kind scope = (store.entriesIn scope).filterMap fun entry =>
      if entry.1.kind = kind then store.pseudo? entry.1 else none := by
  rw [pseudoIds, pseudoNodes, coherent.identities, entriesIn, List.map_filterMap,
    List.filter_filterMap, List.filterMap_filterMap]
  refine List.filterMap_congr fun node member => ?_
  have found := node?_of_mem coherent member
  cases isPseudo : node.kind.pseudo? with
  | none => simp [Node.part?, Node.identity?, entryIn?, isPseudo]
  | some definition =>
    have looked : store.pseudo? definition.toPseudoKey = some node.id :=
      (pseudo?_eq_some_iff coherent).2 ⟨node, found, by rw [Node.identity?, isPseudo]; rfl⟩
    by_cases isKind : definition.kind = kind
    · by_cases here : definition.scope = scope
      · simp [Node.part?, Node.identity?, entryIn?, isPseudo, isPseudoOf, found, looked,
          Option.filter_some, isKind, here]
      · simp [Node.part?, Node.identity?, entryIn?, isPseudo, isPseudoOf, found,
          Option.filter_some, here]
    · by_cases here : definition.scope = scope
      · simp [Node.part?, Node.identity?, entryIn?, isPseudo, isPseudoOf, found,
          Option.filter_some, isKind, here]
      · simp [Node.part?, Node.identity?, entryIn?, isPseudo, isPseudoOf, found,
          Option.filter_some, here]

/-- Where a scope has the same entries, it lists the same pseudo-nodes of each kind. -/
theorem forall₂_pseudoIds (coherent : store.Coherent) (otherCoherent : other.Coherent)
    {scope : NodeId} (same : store.entriesIn scope = other.entriesIn scope) (kind : PseudoKind) :
    List.Forall₂ (SameNode store other) (store.pseudoIds kind scope)
      (other.pseudoIds kind scope) := by
  rw [pseudoIds_eq coherent, pseudoIds_eq otherCoherent, ← same]
  refine List.rel_filterMap ?_ (forall₂_eq_and_mem (store.entriesIn scope))
  rintro entry _ ⟨rfl, member⟩
  dsimp only
  split
  · have known : entry.1 ∈ (store.entriesIn scope).map Prod.fst := List.mem_map_of_mem member
    obtain ⟨-, id, found⟩ := (mem_entriesIn_iff coherent).1 known
    obtain ⟨-, partner, there⟩ := (mem_entriesIn_iff otherCoherent).1 (same ▸ known)
    have one : store.pseudo? entry.1 = some id := found
    have two : other.pseudo? entry.1 = some partner := there
    rw [one, two]
    exact .some (.pseudo entry.1 one two)
  · exact .none

end NodeStore

/-! ## Edges -/

/-- A connection that a graph does not have is put behind its own. -/
theorem DependencyGraph.connections_add_eq (graph : DependencyGraph) (triple : Triple)
    (metadata : EdgeMetadata) : (graph.add triple metadata).1.connections =
      settle graph.connections (triple, metadata) := by
  have keys : graph.connections.map Prod.fst = graph.triples := List.map_map
  rw [connections_add, settle, keys]
  simp only [contains_iff]

/-- **The edges of a graph are there in the order in which they are asked for first.** -/
theorem Draft.connections_applyTo_silent {draft : Draft} (silent : draft.failure? = none)
    (graph : DependencyGraph) : (draft.applyTo graph).graph.connections =
      draft.connections.foldl settle graph.connections := by
  induction draft generalizing graph with
  | nil => rfl
  | cons entry rest ih =>
    cases entry with
    | error error => cases silent
    | ok c =>
      rw [graph_applyTo_cons, ih silent, DependencyGraph.connections_add_eq]
      rfl

end FormFlow
