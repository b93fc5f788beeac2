import FormFlow.Proofs.Form.Twins
import FormFlow.Proofs.Wiring.Reading
import FormFlow.Proofs.Wiring.Registration
import FormFlow.Proofs.Wiring.Wants

/-!
# What pseudo-nodes are made for

Making the pseudo-nodes of a form gives each identity that is wanted and not there the origin that
it is first wanted with (`NodeStore.definition?_synthesize`). References want no origin, and items
have one each, so only the order of the fields counts: twins with the same first field of each code
in each step have the same pseudo-nodes afterwards, whatever their identifiers
(`NodeStore.Twins.definition?_synthesize`).
-/

set_option autoImplicit false

namespace FormFlow

open NodeSource

/-- In lists with the same pairs a key has the same value, if it has only one. -/
theorem lookup_eq_of_perm {α β : Type} [BEq α] [LawfulBEq α] {pairs others : List (α × β)}
    (perm : pairs.Perm others)
    (single : ∀ key value other, (key, value) ∈ pairs → (key, other) ∈ pairs → value = other)
    (key : α) : pairs.lookup key = others.lookup key := by
  have listed : ∀ {pairs : List (α × β)} {value : β}, pairs.lookup key = some value →
      (key, value) ∈ pairs := by
    intro pairs value found
    obtain ⟨front, rest, rfl, _⟩ := List.lookup_eq_some_iff.1 found
    simp
  have present : ∀ {pairs : List (α × β)} {value : β}, (key, value) ∈ pairs →
      ∃ other, pairs.lookup key = some other := by
    intro pairs value member
    cases found : pairs.lookup key with
    | some other => exact ⟨other, rfl⟩
    | none => simpa using List.lookup_eq_none_iff.1 found _ member
  cases found : pairs.lookup key with
  | some value =>
    obtain ⟨other, there⟩ := present (perm.mem_iff.1 (listed found))
    rw [there, single key value other (listed found) (perm.mem_iff.2 (listed there))]
  | none =>
    cases there : others.lookup key with
    | none => rfl
    | some value =>
      obtain ⟨other, here⟩ := present (perm.mem_iff.2 (listed there))
      cases found.symm.trans here

/-! ## The nodes of a step -/

/-- The nodes that belong to a step in a role. -/
def StepMembership.nodesIn (nodes : NodeStore) (step : NodeId) (role : MemberRole) : List Node :=
  nodes.nodes.filter fun node =>
    (place? nodes node).any fun member => member.step = step && member.role = role

namespace NodeStore

/-- The first of the fields of a step outside templates that have a code. -/
def firstField? (store : NodeStore) (step : NodeId) (code : String) : Option NodeId :=
  ((StepMembership.nodesIn store step .field).find? fun node =>
    node.kind.field?.map Field.code = some code).map Node.id

/-- The properties of the pseudo-node with an identity. -/
def definition? (store : NodeStore) (identity : PseudoKey) : Option Pseudo :=
  (store.pseudo? identity).bind fun id => (store.node? id).bind fun node => node.kind.pseudo?

end NodeStore

namespace StepMembership

variable {nodes : NodeStore} {step : NodeId} {role : MemberRole}

theorem of_place? {node : Node} {member : Member} (placed : place? nodes node = some member) :
    member.node = node.id ∧
      roleOf? node.kind (inTemplate nodes node) = some member.role := by
  obtain ⟨role, isRole, placed⟩ := Option.bind_eq_some_iff.1 placed
  obtain ⟨step, _, same⟩ := Option.bind_eq_some_iff.1 placed
  cases same
  exact ⟨rfl, isRole⟩

theorem map_nodesIn : (nodesIn nodes step role).map Node.id = (build nodes).within step role := by
  simp only [nodesIn, within, build]
  induction nodes.nodes with
  | nil => rfl
  | cons node rest ih =>
    rw [List.filter_cons, List.filterMap_cons]
    cases placed : place? nodes node with
    | none => simpa using ih
    | some member =>
      rw [Option.any_some, List.filter_cons]
      split
      · rw [List.map_cons, List.map_cons, ih, (of_place? placed).1]
      · exact ih

/-- Members of a step are no literals. -/
theorem outline_of_mem_nodesIn {node : Node} (member : node ∈ nodesIn nodes step role) :
    node.outline = node := by
  obtain ⟨own, placed, _⟩ := (Option.any_eq_true ..).1 (List.mem_filter.1 member).2
  have isRole := (of_place? placed).2
  obtain ⟨id, parent, kind⟩ := node
  cases kind with
  | literal value => cases isRole
  | _ => rfl

theorem collection_of_mem_nodesIn {node : Node} (member : node ∈ nodesIn nodes step .collection) :
    ∃ definition, node.kind = .collection definition := by
  obtain ⟨own, placed, isOne⟩ := (Option.any_eq_true ..).1 (List.mem_filter.1 member).2
  have isRole := (of_place? placed).2
  rw [of_decide_eq_true (Bool.and_eq_true_iff.1 isOne).2] at isRole
  cases kind : node.kind with
  | collection definition => exact ⟨definition, rfl⟩
  | _ =>
    rw [kind] at isRole
    cases templated : inTemplate nodes node <;> rw [templated] at isRole <;> cases isRole

end StepMembership

namespace NodeStore

variable {store other : NodeStore}

/-- A step has the same members in twins. -/
theorem Twins.nodesIn (twins : Twins store other) (step : NodeId) (role : MemberRole) :
    (StepMembership.nodesIn store step role).Perm (StepMembership.nodesIn other step role) := by
  have self : ∀ store : NodeStore, (StepMembership.nodesIn store step role).map Node.outline =
      StepMembership.nodesIn store step role := fun store =>
    (List.map_congr_left fun _ => StepMembership.outline_of_mem_nodesIn).trans (List.map_id _)
  have read : ∀ store : NodeStore, StepMembership.nodesIn store step role =
      store.nodes.filterMap fun node =>
        if (StepMembership.place? store node).any fun member =>
          member.step = step && member.role = role then some node.outline else none := by
    intro store
    rw [← self store, StepMembership.nodesIn, ← List.filterMap_eq_filter, List.map_filterMap]
    refine List.filterMap_congr fun node _ => ?_
    rw [Option.guard]
    split <;> rfl
  rw [read store, read other]
  refine twins.perm_filterMap fun node like same => ?_
  rw [twins.place? same, same]

/-! ## Pseudo-nodes by identity -/

section

variable (coherent : store.Coherent)
include coherent

theorem definition?_eq_some_iff {identity : PseudoKey} {definition : Pseudo} :
    store.definition? identity = some definition ↔
      definition.toPseudoKey = identity ∧ ∃ node ∈ store.nodes, node.kind = .pseudo definition := by
  rw [definition?, Option.bind_eq_some_iff]
  constructor
  · rintro ⟨id, found, own⟩
    obtain ⟨node, present, isPseudo⟩ := Option.bind_eq_some_iff.1 own
    obtain ⟨again, there, identified⟩ := (pseudo?_eq_some_iff coherent).1 found
    cases present.symm.trans there
    rw [Node.identity?, isPseudo] at identified
    exact ⟨Option.some.inj identified, node, ((node?_eq_some_iff coherent).1 present).1,
      NodeKind.pseudo?_eq_some_iff.1 isPseudo⟩
  · rintro ⟨rfl, node, member, isPseudo⟩
    have found := node?_of_mem coherent member
    refine ⟨node.id, (pseudo?_eq_some_iff coherent).2 ⟨node, found, ?_⟩, ?_⟩
    · rw [Node.identity?, isPseudo]
      rfl
    · rw [found, Option.bind_some, isPseudo]
      rfl

theorem definition?_eq_none_iff {identity : PseudoKey} :
    store.definition? identity = none ↔ store.pseudo? identity = none := by
  constructor
  · intro absent
    cases found : store.pseudo? identity with
    | none => rfl
    | some id =>
      obtain ⟨node, present, identified⟩ := (pseudo?_eq_some_iff coherent).1 found
      obtain ⟨definition, isPseudo, same⟩ := Option.map_eq_some_iff.1 identified
      rw [(definition?_eq_some_iff coherent).2 ⟨same, node,
        ((node?_eq_some_iff coherent).1 present).1,
        NodeKind.pseudo?_eq_some_iff.1 isPseudo⟩] at absent
      cases absent
  · intro absent
    rw [definition?, absent]
    rfl

/-- Looking an identity up makes its pseudo-node with the origin that it is looked up with, unless
it is there. -/
theorem definition?_locate (identity wanted : PseudoKey) (origin : Option NodeId) :
    (store.locate wanted origin).nodes.definition? identity =
      (store.definition? identity).or
        (if identity = wanted then some ⟨wanted, origin⟩ else none) := by
  have later := coherent.locate wanted origin
  cases present : store.pseudo? wanted with
  | some id =>
    rw [locate_of_present present]
    by_cases same : identity = wanted
    · subst same
      cases known : store.definition? identity with
      | some definition => rfl
      | none => cases present.symm.trans ((definition?_eq_none_iff coherent).1 known)
    · rw [if_neg same, Option.or_none]
  | none =>
    rw [locate_of_absent present] at later ⊢
    refine Option.ext fun definition => ?_
    rw [Option.or_eq_some_iff, definition?_eq_some_iff later, definition?_eq_some_iff coherent,
      definition?_eq_none_iff coherent]
    simp only [push, List.mem_append, List.mem_singleton]
    constructor
    · rintro ⟨rfl, node, member | rfl, isPseudo⟩
      · exact .inl ⟨rfl, node, member, isPseudo⟩
      · cases isPseudo
        exact .inr ⟨present, if_pos rfl⟩
    · rintro (⟨same, node, member, isPseudo⟩ | ⟨_, given⟩)
      · exact ⟨same, node, .inl member, isPseudo⟩
      · obtain ⟨rfl, made⟩ := Option.ite_none_right_eq_some.1 given
        cases made
        exact ⟨rfl, _, .inr rfl, rfl⟩

end

end NodeStore

namespace Synthesis

/-- What is looked up one after the other is made for what it is first wanted for. -/
theorem definition?_foldl {wanted : List (PseudoKey × Option NodeId)} {state : State NodeStore}
    (coherent : state.nodes.Coherent) (identity : PseudoKey) :
    (wanted.foldl ofWant state).nodes.definition? identity =
      (state.nodes.definition? identity).or
        ((wanted.lookup identity).map fun origin => ⟨identity, origin⟩) := by
  induction wanted generalizing state with
  | nil => exact (Option.or_none ..).symm
  | cons entry rest ih =>
    obtain ⟨first, origin⟩ := entry
    have later : (ofWant state (first, origin)).nodes.Coherent := coherent.locate first origin
    have made : (ofWant state (first, origin)).nodes.definition? identity = _ :=
      NodeStore.definition?_locate coherent identity first origin
    rw [List.foldl_cons, ih later, made, Option.or_assoc, lookup_cons_ite]
    by_cases same : identity = first
    · subst same
      simp
    · rw [if_neg same, if_neg same, Option.none_or]

/-! ## What a step wants -/

/-- Whether an answer of a step is local: it is there, or a field of the step has its code. -/
def localIn (store : NodeStore) (step : NodeId) (code : String) : Bool :=
  (store.pseudo? ⟨.answerLocal, step, code⟩).isSome || (store.firstField? step code).isSome

/-- What the members of a step want. -/
def wantedIn (store : NodeStore) (step : NodeId) : List (PseudoKey × Option NodeId) :=
  wants step (localIn store step) (StepMembership.nodesIn store step .field)
    (StepMembership.nodesIn store step .reference) (StepMembership.nodesIn store step .collection)

theorem localIn_iff {store : NodeStore} {step : NodeId} {code : String} :
    localIn store step code = true ↔ HasPseudo store ⟨.answerLocal, step, code⟩ ∨
      ∃ node ∈ StepMembership.nodesIn store step .field,
        ∃ field, node.kind = .field field ∧ field.code = code := by
  rw [localIn, Bool.or_eq_true, Option.isSome_iff_exists, NodeStore.firstField?, Option.isSome_map,
    List.find?_isSome]
  refine or_congr_right (exists_congr fun node => and_congr_right fun _ => ?_)
  rw [decide_eq_true_eq, Option.map_eq_some_iff]
  exact exists_congr fun field => and_congr_left fun _ => NodeKind.field?_eq_some_iff

/-- The pseudo-nodes of a step are made as its members want them, also in a later store that has
no more local answers in the step. -/
theorem runStep_eq_foldl {store current : NodeStore} (coherent : store.Coherent)
    (good : current.Coherent) (shown : Shows store current) {step : NodeId}
    (locals : ∀ code, HasPseudo current ⟨.answerLocal, step, code⟩ ↔
      HasPseudo store ⟨.answerLocal, step, code⟩) :
    runStep current step ((StepMembership.build store).members step) =
      (wantedIn store step).foldl ofWant ⟨current, []⟩ := by
  have found : ∀ role, ∀ node ∈ StepMembership.nodesIn store step role,
      node? current node.id = some node := fun role node member =>
    shown.node _ _ (NodeStore.node?_of_mem coherent (List.mem_of_mem_filter member))
  obtain ⟨isLocal, known, ran⟩ := run_eq_foldl (NodeStore.locates step) good
    (found .field) (found .reference) (found .collection)
  have same : isLocal = localIn store step := by
    funext code
    rw [Bool.eq_iff_iff, known, localIn_iff, locals]
  rw [StepMembership.map_nodesIn, StepMembership.map_nodesIn, StepMembership.map_nodesIn,
    same] at ran
  exact ran

end Synthesis

/-! ## The pseudo-nodes of all steps -/

namespace Synthesis

variable {store current : NodeStore} {step : NodeId}

/-- A step wants nothing of another step. -/
theorem lookup_wantedIn_of_scope {identity : PseudoKey} (elsewhere : identity.scope ≠ step) :
    (wantedIn store step).lookup identity = none := by
  rw [List.lookup_eq_none_iff]
  intro entry member
  refine bne_iff_ne.2 fun same => elsewhere ?_
  rw [same, scope_of_wants member]

/-- After a step each identity has the pseudo-node that it had, or the one that the step first wants
it for, if none of the step was made before. -/
theorem definition?_runStep (coherent : store.Coherent) (good : current.Coherent)
    (shown : Shows store current)
    (pending : ∀ identity, identity.scope = step →
      current.definition? identity = store.definition? identity) (identity : PseudoKey) :
    (runStep current step ((StepMembership.build store).members step)).nodes.definition? identity =
      (current.definition? identity).or (((wantedIn store step).lookup identity).map fun origin =>
        ⟨identity, origin⟩) := by
  have locals : ∀ code, HasPseudo current ⟨.answerLocal, step, code⟩ ↔
      HasPseudo store ⟨.answerLocal, step, code⟩ := by
    intro code
    have absent : current.pseudo? ⟨.answerLocal, step, code⟩ = none ↔
        store.pseudo? ⟨.answerLocal, step, code⟩ = none := by
      rw [← NodeStore.definition?_eq_none_iff good, ← NodeStore.definition?_eq_none_iff coherent,
        pending _ rfl]
    have has : ∀ store : NodeStore, HasPseudo store ⟨.answerLocal, step, code⟩ ↔
        ¬store.pseudo? ⟨.answerLocal, step, code⟩ = none :=
      fun store => Option.ne_none_iff_exists'.symm
    rw [has, has, absent]
  rw [runStep_eq_foldl coherent good shown locals]
  exact definition?_foldl good identity

end Synthesis

namespace NodeStore

variable {store other : NodeStore}

/-- After all steps each identity has the pseudo-node that it had, or the one that it is first
wanted for in its step. -/
theorem definition?_synthesize (coherent : store.Coherent) {steps : List NodeId}
    (distinct : steps.Nodup) {current : NodeStore} (good : current.Coherent)
    (shown : Shows store current)
    (pending : ∀ identity, identity.scope ∈ steps →
      current.definition? identity = store.definition? identity) (count : Nat)
    (identity : PseudoKey) :
    (WiredForm.synthesize (.build store) steps current count).1.definition? identity =
      (current.definition? identity).or (if identity.scope ∈ steps then
        ((Synthesis.wantedIn store identity.scope).lookup identity).map fun origin =>
          ⟨identity, origin⟩ else none) := by
  induction steps generalizing current count with
  | nil => exact (Option.or_none ..).symm
  | cons step rest ih =>
    obtain ⟨fresh, others⟩ := List.nodup_cons.1 distinct
    have grown : current.Grows current.nextId
        (Synthesis.runStep current step ((StepMembership.build store).members step)).nodes :=
      Synthesis.run_grows good step _ _ _
    have made := Synthesis.definition?_runStep coherent good shown fun identity here =>
      pending identity (here ▸ List.mem_cons_self ..)
    rw [WiredForm.synthesize, ih others (grown.coherent good) (shown.trans grown.shows)
      (fun identity later => ?_), made, Option.or_assoc]
    · by_cases here : identity.scope = step
      · rw [here, if_neg fresh, Option.or_none, if_pos (List.mem_cons_self ..)]
      · rw [Synthesis.lookup_wantedIn_of_scope here, Option.map_none, Option.none_or]
        simp only [List.mem_cons, here, false_or]
    · have here : identity.scope ≠ step := fun same => fresh (same ▸ later)
      rw [made, Synthesis.lookup_wantedIn_of_scope here, Option.map_none, Option.or_none]
      exact pending identity (List.mem_cons_of_mem _ later)

/-! ## Twins -/

namespace Twins

theorem definition? (twins : Twins store other) (identity : PseudoKey) :
    store.definition? identity = other.definition? identity := by
  have blind : NodeKind.Blind NodeKind.pseudo? := fun _ _ => rfl
  rw [NodeStore.definition?, NodeStore.definition?, twins.pseudo? identity]
  exact Option.bind_congr fun id _ => blind.bind_eq (twins.node? id)

/-- If the first fields agree, a step wants an identity for the same node. -/
theorem lookup_wantedIn (twins : Twins store other) {step : NodeId}
    (first : ∀ code, store.firstField? step code = other.firstField? step code)
    (identity : PseudoKey) : (Synthesis.wantedIn store step).lookup identity =
      (Synthesis.wantedIn other step).lookup identity := by
  have locals : Synthesis.localIn store step = Synthesis.localIn other step := by
    funext code
    rw [Synthesis.localIn, Synthesis.localIn, twins.pseudo?, first]
  have fields : ∀ store : NodeStore,
      ((StepMembership.nodesIn store step .field).find? fun node =>
        node.kind.field?.map Field.code = some identity.key).map (fun node => some node.id) =
      (store.firstField? step identity.key).map some := fun store => by
    rw [firstField?, Option.map_map]
    rfl
  have references : ∀ isLocal : String → Bool,
      ((StepMembership.nodesIn store step .reference).flatMap
        (Synthesis.referenceWants isLocal step)).lookup identity =
      ((StepMembership.nodesIn other step .reference).flatMap
        (Synthesis.referenceWants isLocal step)).lookup identity := by
    intro isLocal
    refine lookup_eq_of_perm ((twins.nodesIn step .reference).flatMap_right _) ?_ identity
    have without : ∀ key value, (key, value) ∈ (StepMembership.nodesIn store step
        .reference).flatMap (Synthesis.referenceWants isLocal step) → value = none := by
      intro key value member
      obtain ⟨node, _, wanted⟩ := List.mem_flatMap.1 member
      obtain ⟨_, _, _, _, _, _, _, same⟩ := Synthesis.mem_referenceWants.1 wanted
      exact congrArg Prod.snd same
    intro key value other one two
    rw [without key value one, without key other two]
  have items : ((StepMembership.nodesIn store step .collection).flatMap
      (Synthesis.repeatedWants step)).lookup identity =
      ((StepMembership.nodesIn other step .collection).flatMap
        (Synthesis.repeatedWants step)).lookup identity := by
    refine lookup_eq_of_perm ((twins.nodesIn step .collection).flatMap_right _) ?_ identity
    intro key value other one two
    obtain ⟨node, inside, wanted⟩ := List.mem_flatMap.1 one
    obtain ⟨like, alsoInside, alsoWanted⟩ := List.mem_flatMap.1 two
    obtain ⟨text, keyed, same⟩ := Synthesis.mem_repeatedWants.1 wanted
    obtain ⟨otherText, otherKeyed, otherSame⟩ := Synthesis.mem_repeatedWants.1 alsoWanted
    obtain ⟨_, isCollection⟩ := StepMembership.collection_of_mem_nodesIn inside
    obtain ⟨_, alsoCollection⟩ := StepMembership.collection_of_mem_nodesIn alsoInside
    rw [isCollection] at keyed
    rw [alsoCollection] at otherKeyed
    cases keyed
    cases otherKeyed
    obtain ⟨rfl, rfl⟩ := Prod.mk.inj same
    obtain ⟨identities, rfl⟩ := Prod.mk.inj otherSame
    exact congrArg some (NodeId.text_inj (congrArg PseudoKey.key identities))
  rw [Synthesis.wantedIn, Synthesis.wantedIn, Synthesis.wants, Synthesis.wants,
    List.lookup_append, List.lookup_append, List.lookup_append, List.lookup_append,
    Synthesis.lookup_fieldWants, Synthesis.lookup_fieldWants, fields, fields, first, locals,
    references, items]

/-- **Twins with the same first fields have the same pseudo-nodes once these are made.** -/
theorem definition?_synthesize (twins : Twins store other)
    (first : ∀ step code, store.firstField? step code = other.firstField? step code)
    {steps others : List NodeId} (distinct : steps.Nodup) (otherDistinct : others.Nodup)
    (same : ∀ step, step ∈ steps ↔ step ∈ others) (count otherCount : Nat)
    (identity : PseudoKey) :
    (WiredForm.synthesize (.build store) steps store count).1.definition? identity =
      (WiredForm.synthesize (.build other) others other otherCount).1.definition? identity := by
  rw [NodeStore.definition?_synthesize twins.coherent distinct twins.coherent (.refl _)
      (fun _ _ => rfl),
    NodeStore.definition?_synthesize twins.otherCoherent otherDistinct twins.otherCoherent
      (.refl _) (fun _ _ => rfl), twins.definition?, twins.lookup_wantedIn (first _)]
  simp only [same]

end Twins

end NodeStore

end FormFlow
